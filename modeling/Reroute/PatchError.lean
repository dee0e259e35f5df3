import Reroute.Balance
import Reroute.Text.Quoted

/-!
# What can go wrong with a text

The causes for which a step of a pass gives up a text, and their messages.

## Main definitions

* `Span` — a stretch of a text
* `PatchError` — the causes
* `PatchError.isSkippable` — causes that concern one unit only
-/

namespace Reroute

/-- The bytes from `start` up to `stop`. The bounds are whatever a caller gives; a span of a text
is one that fits it. -/
structure Span where
  start : Int
  stop : Int
deriving DecidableEq, Repr

namespace Span

/-- A span fits a text if its bounds are in order and inside of the text. -/
def Fits (s : Span) (t : Text) : Prop := 0 ≤ s.start ∧ s.start ≤ s.stop ∧ s.stop ≤ t.length

instance (s : Span) (t : Text) : Decidable (s.Fits t) :=
  inferInstanceAs (Decidable (0 ≤ s.start ∧ s.start ≤ s.stop ∧ s.stop ≤ t.length))

/-- The text before a span. -/
def before (s : Span) (t : Text) : Text := t.take s.start.toNat

/-- The text inside of a span. -/
def body (s : Span) (t : Text) : Text := (t.take s.stop.toNat).drop s.start.toNat

/-- The text after a span. -/
def after (s : Span) (t : Text) : Text := t.drop s.stop.toNat

end Span

/-- Why a step of a pass gives up. -/
inductive PatchError where
  /-- The line that the helper follows is not in the text. -/
  | anchorMissing (anchor : Text)
  /-- A unit without a name was looked for. -/
  | unitUnnamed
  /-- The text declares no such unit. -/
  | unitMissing (name : Text)
  /-- The declaration to look for is not valid UTF-8, so no signature can be formed from it. -/
  | malformedSignature
  /-- The span does not fit the text. -/
  | spanOutOfRange (span : Span) (size : Nat)
  /-- Rerouting the calls of a unit would change its bracket balance. -/
  | unbalanced (unit : Text) (before after : Balance)
deriving DecidableEq, Repr

namespace PatchError

/-- Whether the cause only means that one unit has to be passed over. -/
def isSkippable : PatchError → Bool
  | unitUnnamed | unitMissing _ => true
  | _ => false

/-- The message of a patch error. -/
def message : PatchError → Text
  | anchorMissing anchor => "anchor marker not found: " ++ anchor.quote
  | unitUnnamed => "unit signature not found: empty unit name"
  | unitMissing name => "unit signature not found: " ++ name
  | malformedSignature => "unit signature is not valid UTF-8"
  | spanOutOfRange span size =>
    "span out of range: [" ++ Text.ofInt span.start ++ "," ++ Text.ofInt span.stop ++ ") in " ++
      Text.ofNat size ++ " bytes"
  | unbalanced unit before after =>
    "rewrite changed delimiter balance in unit " ++ unit ++ ": " ++ before.render ++ " became " ++
      after.render

end PatchError

end Reroute
