/-!
# Text replacement

Every occurrence of one text is replaced by another in a single scan from left to right.
Occurrences do not overlap, and inserted text is not scanned again. A blank text has no
occurrences.
-/

namespace TranslitScheme.Text

/-- Scan a text, passing over the first `skip` characters of what is left. -/
def scanReplacing (old new : List Char) : Nat → List Char → List Char
  | _, [] => []
  | skip + 1, _ :: rest => scanReplacing old new skip rest
  | 0, c :: rest =>
    if old.isPrefixOf (c :: rest) then new ++ scanReplacing old new (old.length - 1) rest
    else c :: scanReplacing old new 0 rest

/-- Replace every occurrence of `old` by `new`. -/
def replaceAll (old new text : String) : String :=
  if old = "" then text
  else String.ofList (scanReplacing old.toList new.toList 0 text.toList)

/-- One text ends in another. -/
def endsWith (text ending : String) : Bool := ending.toList.isSuffixOf text.toList

end TranslitScheme.Text
