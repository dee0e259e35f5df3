import Reroute.PatchError
import Reroute.Route

/-!
# Rerouting calls

A call rule replaces the start of a call, such as `Log::ok(`, by the start of a call to the helper.
The arguments of the call stay where they are and follow the ones that the route adds. A
replacement has to keep the bracket balance of the span it is made in.

## Main definitions

* `CallRule` — the call to replace and the helper to call
* `CallRule.opening` — the start of the helper call for a route
* `CallRule.apply` — a text with the calls of a span rerouted
-/

namespace Reroute

/-- Which calls are rerouted and where to. -/
structure CallRule where
  /-- The start of the calls, with the opening parenthesis. -/
  target : Text
  /-- The name of the helper. -/
  helper : Text
deriving DecidableEq, Repr

namespace CallRule

/-- The start of the helper call for a route. -/
def opening (c : CallRule) (r : Route) : Text :=
  c.helper ++ "(\"" ++ r.name ++ "\", \"" ++ r.category ++ "\", Some(&" ++ r.path ++ "), " ++
    r.summary ++ ", "

/-- The offsets at which separators of a given length start when pieces are joined, if the first
piece starts at `start`. -/
def siteOffsets (start gap : Nat) : List Text → List Nat
  | [] | [_] => []
  | p :: rest => (start + p.length) :: siteOffsets (start + p.length + gap) gap rest

/-- Reroutes every call inside of a span, and gives the offsets in the new text at which the
helper calls start. -/
def apply (c : CallRule) (t : Text) (span : Span) (r : Route) :
    Except PatchError (Text × List Nat) :=
  if ¬ span.Fits t then .error (.spanOutOfRange span t.length)
  else if c.target.isEmpty then .ok (t, [])
  else
    let body := span.body t
    let pieces := body.pieces c.target
    let sites := siteOffsets span.start.toNat (c.opening r).length pieces
    let rerouted := Text.join (c.opening r) pieces
    if sites.isEmpty then .ok (t, [])
    else if Balance.ofText body ≠ Balance.ofText rerouted then
      .error (.unbalanced r.name (Balance.ofText body) (Balance.ofText rerouted))
    else .ok (span.before t ++ rerouted ++ span.after t, sites)

end CallRule

end Reroute
