import Reroute.Profile.Basic
import Reroute.Report

/-!
# Passes

A pass takes a text through a profile: it installs the helper and then goes through the routes in
order. Each unit is looked for in the text as the units before it have left it. A unit that the text
does not declare is skipped and logged; any other trouble ends the pass without a result.

## Main definitions

* `lineOf` — the line of an offset
* `Profile.patchUnit` — one route's turn
* `Profile.patchUnits` — the turns of routes one after the other
* `Profile.apply` — a pass
-/

namespace Reroute

/-- The line of an offset, counted from one. -/
def lineOf (t : Text) (offset : Nat) : Nat := (t.take offset).count Text.newline + 1

/-- The line of an offset that lies in the text or at its end. -/
def lineOf? (t : Text) (offset : Int) : Option Nat :=
  if 0 ≤ offset ∧ offset ≤ t.length then some (lineOf t offset.toNat) else none

/-- What a pass leaves behind: its log, and the new text with a report unless it gave up. -/
structure PassResult (α : Type) where
  log : List Text
  result : Except PatchError α

namespace UnitOutcome

/-- The log lines of an outcome: one for a unit that was skipped. -/
def log (u : UnitOutcome) : List Text :=
  if u.status = .skipped then
    ["WARN: Skipping unit " ++ u.name ++ ": " ++ (PatchError.unitMissing u.name).message]
  else []

end UnitOutcome

namespace Profile

/-- The outcome of a unit whose calls were rerouted at some offsets of a text. -/
def outcome (r : Route) (t : Text) (sites : List Nat) : UnitOutcome where
  name := r.name
  status := if sites.isEmpty then .untouched else .rerouted
  lines := sites.map fun offset => (lineOf t offset : Int)

/-- One route's turn: the unit is looked for, and its calls are rerouted. -/
def patchUnit (p : Profile) (r : Route) (t : Text) : Except PatchError (Text × UnitOutcome) :=
  match p.landmarks.locate r.name t with
  | .error e => if e.isSkippable then .ok (t, ⟨r.name, .skipped, []⟩) else .error e
  | .ok span =>
    match p.callRule.apply t span r with
    | .error e => .error e
    | .ok (out, sites) => .ok (out, outcome r out sites)

/-- The turns of routes, each on the text that the one before it has left. -/
def patchUnits (p : Profile) : List Route → Text → PassResult (Text × List UnitOutcome)
  | [], t => ⟨[], .ok (t, [])⟩
  | r :: rs, t =>
    match p.patchUnit r t with
    | .error e => ⟨[], .error e⟩
    | .ok (out, u) =>
      let rest := p.patchUnits rs out
      ⟨u.log ++ rest.log, rest.result.map fun (final, us) => (final, u :: us)⟩

/-- A pass over a text. The path of the report is left empty. -/
def apply (p : Profile) (t : Text) : PassResult (Text × Report) :=
  match p.helper.install p.anchor t with
  | .error e => ⟨[], .error e⟩
  | .ok (start, installed) =>
    let pass := p.patchUnits p.routes start
    ⟨pass.log, pass.result.map fun (out, units) =>
      (out, ⟨[], installed, units, Fingerprint.ofText t, Fingerprint.ofText out⟩)⟩

end Profile

end Reroute
