import Reroute.Snapshot.Basic
import Reroute.Snapshot.Frame
import Reroute.Snapshot.MessagePack

/-!
# The standard format of snapshots

A text is put into a frame, and a snapshot is written as a map with a short name for each field.
When a blob is read, it may also hold the fields in their order, or have a time among them.

## Main definitions

* `Snapshot.toBlob`, `Snapshot.ofBlob?` — snapshots as maps
-/

namespace Reroute

namespace Snapshot

open MessagePack (Value)

/-- A snapshot as a map. -/
def toBlob (s : Snapshot) : Text :=
  MessagePack.writeMap [("p", MessagePack.writeText s.path), ("o", MessagePack.writeBytes s.frame),
    ("b", MessagePack.writeWord s.before.value), ("a", MessagePack.writeWord s.after.value)]

/-- The snapshot that says nothing. -/
def blank : Snapshot := ⟨[], [], ⟨0⟩, ⟨0⟩⟩

/-- A value as a text. -/
def asText : Value → Option Text
  | .nil => some []
  | .text t | .bytes t => some t
  | _ => none

/-- A value as a fingerprint. Negative numbers stand for their word in two's complement. -/
def asFingerprint : Value → Option Fingerprint
  | .nil => some ⟨0⟩
  | .int n => some ⟨UInt64.ofInt n⟩
  | _ => none

/-- Whether a value is a time, or no time at all. -/
def isTime : Value → Bool
  | .nil => true
  | .ext kind data => kind = 0xff && data.length ∈ [4, 8, 12]
  | _ => false

/-- A snapshot with one field set. A field that is not known is ignored. -/
def withField (s : Snapshot) (name : Text) (value : Value) : Option Snapshot :=
  if name = Text.ofString "p" then do return { s with path := ← asText value }
  else if name = Text.ofString "o" then do return { s with frame := ← asText value }
  else if name = Text.ofString "b" then do return { s with before := ← asFingerprint value }
  else if name = Text.ofString "a" then do return { s with after := ← asFingerprint value }
  else if name = Text.ofString "t" then if isTime value then some s else none
  else some s

/-- A snapshot with fields set one after the other. -/
def withFields (s : Snapshot) : List (Value × Value) → Option Snapshot
  | [] => some s
  | (name, value) :: rest => do (← s.withField (← asText name) value).withFields rest

/-- The names of the fields in their order. -/
def fieldNames : List Text := ["p", "o", "b", "a", "t"]

/-- The snapshot that a value stands for: a map of fields, or all the fields in their order. -/
def ofValue? : Value → Option Snapshot
  | .nil | .array [] => some blank
  | .map entries => blank.withFields entries
  | .array items =>
    if items.length = fieldNames.length then
      blank.withFields ((fieldNames.map Value.text).zip items)
    else none
  | _ => none

/-- The snapshot in a blob. What follows the first value is ignored. -/
def ofBlob? (blob : Text) : Option Snapshot :=
  match Value.read? blob with
  | some (value, _) => ofValue? value
  | none => none

/-- The standard format. -/
instance : Format := ⟨Frame.encode, Frame.decode?, toBlob, ofBlob?⟩

theorem encode_eq (s : Snapshot) : s.encode = s.toBlob := rfl

theorem decode?_eq (blob : Text) : decode? blob = ofBlob? blob := rfl

end Snapshot

end Reroute
