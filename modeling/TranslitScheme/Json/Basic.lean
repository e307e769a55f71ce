/-!
# JSON values

The values of a JSON text. Objects keep their members in order and may repeat a name, since
whether that is an error depends on what the object stands for. Numbers are integers.

A text can be well formed and still say something that has no place here: a number with a
fraction or an exponent, or a string with half of a surrogate pair. Such a value is read as
`unsupported`, which is harmless where it is ignored and of no use anywhere else.
-/

namespace TranslitScheme

/-- A JSON value. -/
inductive Json where
  | null
  | bool (flag : Bool)
  | int (number : Int)
  | str (text : String)
  | arr (items : List Json)
  | obj (members : List (String × Json))
  | unsupported
  deriving Repr, Inhabited

end TranslitScheme
