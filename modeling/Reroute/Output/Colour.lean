import Reroute.Output.Sink

/-!
# Diffs in colour

A diff goes to a sink line by line. With colour, headers, hunk ranges, added and removed lines are
each set between a colour sequence and a reset, as three writes; the sequences may be refused
without harm, the line may not. Context lines are plain text in either case.

## Main definitions

* `DiffLine` — the kinds of lines of a diff
* `Sink.putDiff` — a diff to a sink
-/

namespace Reroute

/-- The kinds of lines of a unified diff. -/
inductive DiffLine where
  | header
  | range
  | added
  | removed
  | context
deriving DecidableEq, Repr

namespace DiffLine

/-- The kind of a line by its first bytes. -/
def ofText (line : Text) : DiffLine :=
  if line.startsWith "+++" || line.startsWith "---" then header
  else if line.startsWith "@@" then range
  else if line.startsWith "+" then added
  else if line.startsWith "-" then removed
  else context

/-- The sequence that starts the colour of a kind of line. -/
def colour? : DiffLine → Option Text
  | header => some "\x1b[1m"
  | range => some "\x1b[36m"
  | added => some "\x1b[32m"
  | removed => some "\x1b[31m"
  | context => none

/-- The sequence that ends a colour. -/
def reset : Text := "\x1b[0m"

end DiffLine

namespace Sink

/-- One line of a diff. Only a refusal of the line itself counts. -/
def putDiffLine (coloured : Bool) (s : Sink) (line : Text) : Sink × Bool :=
  match (DiffLine.ofText line).colour? with
  | none => s.putPlain line
  | some colour =>
    if coloured then
      let (s, _) := s.put colour
      let (s, accepted) := s.put line
      let (s, _) := s.put DiffLine.reset
      (s, accepted)
    else s.put line

/-- Lines of a diff, up to the first that is refused. -/
def putDiffLines (coloured : Bool) (s : Sink) : List Text → Sink × Bool
  | [] => (s, true)
  | line :: rest =>
    match s.putDiffLine coloured line with
    | (s, true) => s.putDiffLines coloured rest
    | (s, false) => (s, false)

/-- A diff, and whether all its lines were accepted. -/
def putDiff (coloured : Bool) (s : Sink) (diff : Text) : Sink × Bool :=
  s.putDiffLines coloured (diff.lines.filter fun line => !line.isEmpty)

end Sink

end Reroute
