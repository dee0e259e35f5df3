import Reroute.Text.Basic

/-!
# Sinks

A sink takes the output of the program write by write. It may refuse writes: a budget says how many
it still accepts. A sink may let plain text pass without counting it.

## Main definitions

* `Sink` — the accepted writes and the budget
* `Sink.put`, `Sink.putPlain` — one write, and whether it was accepted
* `Sink.putAll` — writes one after the other, up to the first that is refused
-/

namespace Reroute

/-- A taker of writes. -/
structure Sink where
  /-- How many more writes are accepted, without bound if there is none. -/
  budget : Option Nat
  /-- Whether plain text counts as a write and may be refused like one. -/
  metersPlain : Bool
  /-- The accepted writes, the last one first. -/
  accepted : List Text

namespace Sink

/-- A sink that accepts everything. -/
def unlimited : Sink := ⟨none, true, []⟩

/-- All that was accepted so far. -/
def output (s : Sink) : Text := s.accepted.reverse.flatten

/-- The sink with what it accepted so far taken out. -/
def drain (s : Sink) : Sink := { s with accepted := [] }

/-- One write, and whether it was accepted. -/
def put (s : Sink) (t : Text) : Sink × Bool :=
  match s.budget with
  | none => ({ s with accepted := t :: s.accepted }, true)
  | some 0 => (s, false)
  | some (n + 1) => ({ s with budget := some n, accepted := t :: s.accepted }, true)

/-- One write of plain text, and whether it was accepted. -/
def putPlain (s : Sink) (t : Text) : Sink × Bool :=
  if s.metersPlain then s.put t else ({ s with accepted := t :: s.accepted }, true)

/-- Writes one after the other. The first that is refused ends it. -/
def putAll (s : Sink) : List Text → Sink × Bool
  | [] => (s, true)
  | t :: ts =>
    match s.put t with
    | (s, true) => s.putAll ts
    | (s, false) => (s, false)

end Sink

/-- The message for a write that was refused. -/
def Sink.refusal : Text := "write refused"

end Reroute
