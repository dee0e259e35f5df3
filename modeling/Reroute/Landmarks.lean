import Reroute.PatchError
import Reroute.Text.Rune

/-!
# Finding units by landmarks

Units are found by their text alone. The signature of a unit is the declaration mark, its name, an
opening parenthesis, at least one rune other than an opening brace, and the next opening brace. The
body is what follows, up to the mark that starts the next unit or the end of the text. Nested braces
are not followed, so a body may run past the brace that closes the unit.

The replacement character in a name stands for one stray byte of the text as well.

## Main definitions

* `Landmarks` — the two marks
* `Landmarks.bodyRunes?` — the runes after the first signature
* `Landmarks.locate` — the span of the body of a unit
-/

namespace Reroute

/-- The marks by which units are found. -/
structure Landmarks where
  /-- What stands before the name of a unit in its declaration. -/
  declaration : Text
  /-- What starts the next unit. -/
  nextUnit : Text
deriving DecidableEq, Repr

namespace Landmarks

/-- The runes after a pattern of code points, if they start with it. -/
def consume : List Char → List Rune → Option (List Rune)
  | [], rs => some rs
  | c :: cs, r :: rs => if r.char = c then consume cs rs else none
  | _ :: _, [] => none

/-- The runes after the first opening brace, if something stands before it. -/
def enterBody : List Rune → Option (List Rune)
  | [] => none
  | r :: rs =>
    if r.char = '{' then none
    else
      match rs.dropWhile (·.char ≠ '{') with
      | [] => none
      | _ :: body => some body

/-- The runes after the first signature that starts with a pattern. -/
def bodyRunes? (pattern : List Char) : List Rune → Option (List Rune)
  | [] => none
  | r :: rs =>
    match (consume pattern (r :: rs)).bind enterBody with
    | some body => some body
    | none => bodyRunes? pattern rs

/-- The number of bytes of runes. -/
def byteCount (rs : List Rune) : Nat := rs.foldr (fun r n => r.width + n) 0

/-- The span from an offset up to the next unit. -/
def spanFrom (l : Landmarks) (start : Nat) (t : Text) : Span :=
  match if l.nextUnit.isEmpty then none else Text.indexOf? (t.drop start) l.nextUnit with
  | none => ⟨start, t.length⟩
  | some i => ⟨start, (start + i : Nat)⟩

/-- The span of the body of a unit. -/
def locate (l : Landmarks) (name t : Text) : Except PatchError Span :=
  let opening := l.declaration ++ name
  if name.isEmpty then .error .unitUnnamed
  else if !opening.isUtf8 then .error .malformedSignature
  else
    match bodyRunes? (opening.chars ++ ['(']) t.runes with
    | none => .error (.unitMissing name)
    | some body => .ok (l.spanFrom (t.length - byteCount body) t)

end Landmarks

end Reroute
