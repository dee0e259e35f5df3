import Reroute.Attempt
import Reroute.Diff.Unified
import Reroute.Output.Colour
import Reroute.Vault

/-!
# Batches

A batch takes source files through a profile, each on its own: load the file, run a pass over its
text, take a snapshot, store the new text. A file that cannot be patched does not keep the others
from being patched. In a preview nothing is stored, and in a check a file that would change counts
as an error. Diffs are shown once all files are done, in the order of the files.

A pass over one of the files may break off. That ends the batch with the answer `none`, whatever
else is still to be done. A profile whose signatures can be formed never lets a pass break off, and
for such a profile there is a shorter way to say what is done with a file.

## Main definitions

* `Mode` — what a batch does with the files that change
* `FileError` — why a file was not patched
* `FileOutcome` — what came of one file
* `Profile.attemptFile`, `Profile.attemptFiles` — a file and a list of files through a profile
* `Profile.patchFile`, `Profile.patchFiles` — the same, if no pass breaks off
* `FileOutcome.showDiffs`, `FileOutcome.showAll` — the diffs to a sink
-/

namespace Reroute

/-- What a batch does with the files that change. -/
structure Mode where
  /-- Nothing is stored. -/
  dryRun : Bool
  /-- Nothing is stored, and a file that would change counts as an error. -/
  check : Bool
  /-- Diffs are made. -/
  diff : Bool
  /-- Snapshots are taken before a file is stored. -/
  snapshots : Bool
deriving DecidableEq, Repr

/-- Why a file was not patched. -/
inductive FileError where
  | cancelled
  | source (cause : SourceError)
  | patch (path : Text) (cause : PatchError)
  | wouldChange (path : Text)
  | snapshot (path : Text) (cause : VaultError)
  | notStored (path : Text) (cause : SourceError)
  /-- A diff could not be shown. -/
  | notShown
deriving DecidableEq, Repr

/-- The message of a file error. -/
def FileError.message : FileError → Text
  | cancelled => "context canceled"
  | source cause => cause.message
  | patch path cause => path ++ ": " ++ cause.message
  | wouldChange path => "file would be changed: " ++ path
  | snapshot path cause => "snapshot failure " ++ path ++ ": " ++ cause.message
  | notStored path cause => "write failure " ++ path ++ ": " ++ cause.message
  | notShown => Sink.refusal

/-- What came of one file. -/
structure FileOutcome where
  log : List Text
  report? : Option Report
  /-- The diff of the change, empty if none was made. -/
  diff : Text
  error? : Option FileError

namespace FileOutcome

/-- A file that was given up before there was a report. -/
def failed (log : List Text) (e : FileError) : FileOutcome := ⟨log, none, [], some e⟩

end FileOutcome

namespace Profile

variable [Snapshot.Format]

/-- The last steps for a file whose text changes: take a snapshot and store the new text. -/
def commit (cwd path before after : Text) (snapshots : Bool) : WorkJob (Option FileError) := do
  if ← WorkOp.isCancelled.perform then return some .cancelled
  let recorded ← if snapshots then Vault.record cwd path before after else pure (.ok ())
  match recorded with
  | .error e => return some (.snapshot path e)
  | .ok () =>
    match ← (WorkOp.store path after).perform with
    | .error e => return some (.notStored path e)
    | .ok () => return none

/-- What is done with a file once its new text is known. -/
def finish (cwd path before after : Text) (m : Mode) (log : List Text) (r : Report) :
    WorkJob FileOutcome := do
  let line (what : Text) : Text := what ++ " " ++ path ++ ": " ++ r.summary
  if !r.changed then return ⟨log ++ [line "Unchanged"], some r, [], none⟩
  let diff := if m.diff then Diff.unified path before after else []
  if m.check then return ⟨log, some r, diff, some (.wouldChange path)⟩
  if m.dryRun then return ⟨log ++ [line "Dry run"], some r, diff, none⟩
  match ← commit cwd path before after m.snapshots with
  | some e => return ⟨log, some r, diff, some e⟩
  | none => return ⟨log ++ [line "Patched"], some r, diff, none⟩

/-- One file through a profile. If the pass over it breaks off, there is no outcome. -/
def attemptFile (p : Profile) (cwd : Text) (m : Mode) (path : Text) :
    WorkJob (Option FileOutcome) := do
  if ← WorkOp.isCancelled.perform then return some (.failed [] .cancelled)
  match ← (WorkOp.load path).perform with
  | .error e => return some (.failed [] (.source e))
  | .ok before =>
    match p.attempt? before with
    | none => return none
    | some (log, done) =>
      match done.result with
      | .error e => return some (.failed log (.patch path e))
      | .ok r => return some (← finish cwd path before done.text m log { r with path })

/-- Files through a profile, one after the other, unless the pass over one of them breaks off. -/
def attemptFiles (p : Profile) (cwd : Text) (m : Mode) :
    List Text → WorkJob (Option (List FileOutcome))
  | [] => pure (some [])
  | path :: rest => do
    match ← p.attemptFile cwd m path with
    | none => return none
    | some outcome => return (← p.attemptFiles cwd m rest).map (outcome :: ·)

/-- One file through a profile. A signature that cannot be formed counts as an error of the file. -/
def patchFile (p : Profile) (cwd : Text) (m : Mode) (path : Text) : WorkJob FileOutcome := do
  if ← WorkOp.isCancelled.perform then return .failed [] .cancelled
  match ← (WorkOp.load path).perform with
  | .error e => return .failed [] (.source e)
  | .ok before =>
    let pass := p.apply before
    match pass.result with
    | .error e => return .failed pass.log (.patch path e)
    | .ok (after, r) => finish cwd path before after m pass.log { r with path }

/-- Files through a profile, one after the other. -/
def patchFiles (p : Profile) (cwd : Text) (m : Mode) : List Text → WorkJob (List FileOutcome)
  | [] => pure []
  | path :: rest => do
    let outcome ← p.patchFile cwd m path
    let outcomes ← p.patchFiles cwd m rest
    return outcome :: outcomes

end Profile

namespace FileOutcome

/-- The diffs of outcomes to a sink, up to the first that is refused. -/
def showDiffs (coloured : Bool) (s : Sink) : List FileOutcome → Sink × Bool
  | [] => (s, true)
  | o :: rest =>
    match s.putDiff coloured o.diff with
    | (s, true) => showDiffs coloured s rest
    | (s, false) => (s, false)

/-- The diffs of outcomes to a sink, and all that went wrong: with the files in their order, then
with the diffs. -/
def showAll (coloured : Bool) (s : Sink) (outcomes : List FileOutcome) : Sink × List FileError :=
  let (s, accepted) := showDiffs coloured s outcomes
  (s, outcomes.filterMap FileOutcome.error? ++ if accepted then [] else [.notShown])

end FileOutcome

/-- The message of errors that occurred together: each on a line of its own. -/
def joinMessages (messages : List Text) : Text := Text.join "\n" messages

end Reroute
