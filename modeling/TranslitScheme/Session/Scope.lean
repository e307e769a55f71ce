import TranslitScheme.Session.Basic

/-!
# Scopes

A part of a scheme can run under a tag, or with a list scope open. The tag that was active
before comes back and the scope is closed when that part ends, also when it fails.
-/

namespace TranslitScheme.Session

variable {σ ε α : Type}

/-- Run a part of a scheme under a tag. -/
def underTag (session : Session σ) (name : String)
    (body : Session σ → Except ε α × Session σ) : Except ε α × Session σ :=
  let (result, ended) :=
    body { session with journal := { session.journal with tag := some name } }
  (result, { ended with journal := { ended.journal with tag := session.journal.tag } })

/-- Run a part of a scheme with a list scope open. A scope that cannot be opened is a fault,
which `wrap` turns into the kind of failure that the part itself has. -/
def underLists (session : Session σ) (names : List Value) (wrap : Fault → ε)
    (body : Session σ → Except ε α × Session σ) : Except ε α × Session σ :=
  match session.lists.openScope names with
  | (.error fault, lists) =>
    (.error (wrap fault), ({ session with lists }.abort (α := α) fault).2)
  | (.ok (), lists) =>
    let (result, ended) := body { session with lists }
    (result, { ended with lists := ended.lists.closeScope })

end TranslitScheme.Session
