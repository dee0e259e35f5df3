import Reroute.Number.Rounding
import Reroute.Text.Basic

/-!
# Cache metrics

How often a cache had what it was asked for, in a line for the log. Saying so starts the count anew.

## Main definitions

* `CacheMetrics` — hits and misses
* `CacheMetrics.report` — the line for the log, and the metrics after it
-/

namespace Reroute

/-- Hits and misses of a cache. -/
structure CacheMetrics where
  hits : UInt64
  misses : UInt64
deriving DecidableEq, Repr

namespace CacheMetrics

/-- The share of hits as a binary floating point number. -/
def ratio (m : CacheMetrics) : Binary :=
  Binary.ofDiv (Binary.significant m.hits.toNat) (Binary.significant (m.hits + m.misses).toNat)

/-- A number of hundredths with two places. -/
def renderHundredths (n : Nat) : Text :=
  Text.ofNat (n / 100) ++ "." ++ Text.ofNat (n / 10 % 10) ++ Text.ofNat (n % 10)

/-- The line of a cache that was asked for something. -/
def line? (name : Text) (m : CacheMetrics) : Option Text :=
  if m.hits = 0 ∧ m.misses = 0 then none
  else some (name ++ ": hits=" ++ Text.ofNat m.hits.toNat ++ " misses=" ++
    Text.ofNat m.misses.toNat ++ " ratio=" ++ renderHundredths m.ratio.hundredths)

/-- The line of a cache that keeps metrics, and the metrics after it. -/
def report (name : Text) : Option CacheMetrics → Option Text × Option CacheMetrics
  | none => (none, none)
  | some m => (m.line? name, some ⟨0, 0⟩)

end CacheMetrics

end Reroute
