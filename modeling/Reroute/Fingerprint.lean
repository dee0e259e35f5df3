import Reroute.Fingerprint.XxHash
import Reroute.Fingerprint.Base91

/-!
# Fingerprints

A fingerprint stands for a text where only change matters: a pass reports the fingerprints before
and after it, and a snapshot keeps the one of the last patched text.

## Main definitions

* `Fingerprint` — the 64 bit hash of a text
* `Fingerprint.ofText` — the fingerprint of a text
* `Fingerprint.render` — its text form, the eight bytes from the highest on in basE91
-/

namespace Reroute

/-- The hash of a text. -/
structure Fingerprint where
  value : UInt64
deriving DecidableEq, Repr, Inhabited

namespace Fingerprint

/-- The fingerprint of a text. -/
def ofText (t : Text) : Fingerprint := ⟨XxHash.sum t⟩

/-- The eight bytes of a word, the highest first. -/
def bigEndian (w : UInt64) : Text :=
  [w >>> 56, w >>> 48, w >>> 40, w >>> 32, w >>> 24, w >>> 16, w >>> 8, w].map UInt64.toUInt8

/-- The text form of a fingerprint in logs and reports. -/
def render (f : Fingerprint) : Text := Base91.encode (bigEndian f.value)

end Fingerprint

end Reroute
