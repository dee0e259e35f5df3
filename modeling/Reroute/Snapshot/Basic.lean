import Reroute.Fingerprint

/-!
# Snapshots

A snapshot keeps what a file held before it was patched for the first time, so that patching can be
undone, and the fingerprint of what was last put there, so that later edits are noticed. The text is
packed, and the snapshot is stored as a blob; how, is a matter of the format.

When a snapshot was taken is not part of it. Nothing asks for the time, so two snapshots that differ
in nothing else count as the same.

## Main definitions

* `Snapshot` — the pristine text of a file and the fingerprints around patching it
* `Snapshot.Format` — how texts are packed and snapshots are written
* `Snapshot.take` — the snapshot of a file before its first patch
* `Snapshot.text?` — the pristine text
* `Snapshot.encode`, `Snapshot.decode?` — snapshots as blobs
-/

namespace Reroute

/-- What is needed to undo the patches of a file. -/
structure Snapshot where
  /-- The absolute path of the file. -/
  path : Text
  /-- The pristine text, packed. -/
  frame : Text
  /-- The fingerprint of the pristine text. -/
  before : Fingerprint
  /-- The fingerprint of the text that was last put into the file. -/
  after : Fingerprint
deriving DecidableEq, Repr

namespace Snapshot

/-- How texts are packed and how snapshots are written. -/
class Format where
  pack : Text → Text
  unpack? : Text → Option Text
  write : Snapshot → Text
  read? : Text → Option Snapshot

variable [Format]

/-- The snapshot of a file whose text is about to be replaced. -/
def take (path pristine patched : Text) : Snapshot :=
  ⟨path, Format.pack pristine, .ofText pristine, .ofText patched⟩

/-- The pristine text. -/
def text? (s : Snapshot) : Option Text := Format.unpack? s.frame

/-- A snapshot as a blob. -/
def encode (s : Snapshot) : Text := Format.write s

/-- The snapshot in a blob. -/
def decode? (blob : Text) : Option Snapshot := Format.read? blob

end Snapshot

end Reroute
