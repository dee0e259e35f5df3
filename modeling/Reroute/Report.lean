import Reroute.Fingerprint
import Reroute.Text.Rune

/-!
# Reports

What a pass did to a text: for every registered unit whether it was found and where its calls were
rerouted, whether the helper was installed, and the fingerprints before and after.

## Main definitions

* `UnitStatus`, `UnitOutcome` — what a pass did to one unit
* `Report` — what a pass did to a text
* `Report.summary`, `Report.lines` — the report in one line, and in one line for each unit
-/

namespace Reroute

/-- What a pass did to a unit. -/
inductive UnitStatus where
  /-- The unit was found and has no call to reroute. -/
  | untouched
  /-- At least one call was rerouted. -/
  | rerouted
  /-- The text does not declare the unit. -/
  | skipped
  /-- A status that no pass gives. -/
  | unknown (code : Int)
deriving DecidableEq, Repr

namespace UnitStatus

/-- The status of a code number. -/
def ofCode (code : Int) : UnitStatus :=
  if code = 0 then untouched
  else if code = 1 then rerouted
  else if code = 2 then skipped
  else unknown code

/-- The word for a status. -/
def render : UnitStatus → Text
  | untouched => "untouched"
  | rerouted => "rewritten"
  | skipped => "skipped"
  | unknown code => "UnitStatus(" ++ Text.ofInt code ++ ")"

end UnitStatus

/-- What a pass did to one unit. -/
structure UnitOutcome where
  name : Text
  status : UnitStatus
  /-- The lines of the rerouted calls, counted from one in the text right after the unit's turn. -/
  lines : List Int
deriving DecidableEq, Repr

/-- What a pass did to a text. -/
structure Report where
  path : Text
  helperInstalled : Bool
  units : List UnitOutcome
  before : Fingerprint
  after : Fingerprint
deriving DecidableEq, Repr

namespace Report

/-- Whether the pass changed the text. -/
def changed (r : Report) : Bool := r.before != r.after

/-- The number of rerouted calls. -/
def rerouteCount (r : Report) : Nat := r.units.foldr (fun u n => u.lines.length + n) 0

/-- The names of the units that the text does not declare. -/
def skipped (r : Report) : List Text :=
  (r.units.filter (·.status = .skipped)).map UnitOutcome.name

/-- The report in one line. -/
def summary (r : Report) : Text :=
  "helper=" ++ Text.ofBool r.helperInstalled ++ " rewrites=" ++ Text.ofNat r.rerouteCount ++
    " skipped=" ++ Text.ofNat r.skipped.length ++ " " ++ r.before.render ++ " -> " ++ r.after.render

/-- The line of one unit. -/
def unitLine (u : UnitOutcome) : Text :=
  let lead := "  " ++ u.name.padRight 28 ++ " "
  if u.lines.isEmpty then lead ++ u.status.render ++ "\n"
  else
    lead ++ u.status.render.padRight 9 ++ " lines [" ++
      Text.join " " (u.lines.map Text.ofInt) ++ "]\n"

/-- The report line by line: the summary and a line for each unit. -/
def lines (r : Report) : List Text := (r.path ++ ": " ++ r.summary ++ "\n") :: r.units.map unitLine

end Report

end Reroute
