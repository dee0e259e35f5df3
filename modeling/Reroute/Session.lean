import Reroute.Batch
import Reroute.Config

/-!
# Sessions

A session carries out what a configuration says: it patches the files and shows diffs and reports,
or it restores files from their snapshots. The configuration is prepared first if it is not
prepared yet, and what the preparation finds stays in it for the next session.

A session works on a disk and with a store in a folder. How the store is kept is not its business:
it asks for the store to be opened, and then for the operations of a workspace. An archive on the
same disk is one way to keep it.

## Main definitions

* `SessionOp`, `sessionInterface` — the operations of a session
* `SessionOp.onDisk` — the operations as jobs on a disk
* `SessionError` — what may go wrong in a session
* `Account` — what a session tells
* `Config.run` — patches the files
* `Config.restore` — restores files
-/

namespace Reroute

/-- What may go wrong in a session. -/
inductive SessionError where
  | config (cause : ConfigError)
  | profile (cause : ProfileError)
  | archive (cause : ArchiveError)
  | file (cause : FileError)
  | vault (cause : VaultError)
  | noArchive
  | unlisted (cause : VaultError)

/-- The message of a session error. -/
def SessionError.message : SessionError → Text
  | config cause => cause.message
  | profile cause => "invalid profile: " ++ cause.message
  | archive cause => cause.message
  | file cause => cause.message
  | vault cause => cause.message
  | noArchive => "a state directory is required to restore"
  | unlisted cause => "list snapshots failed: " ++ cause.message

/-- What a session tells: entries of the log, what it shows, and what went wrong. -/
structure Account where
  log : List Text
  output : Text
  errors : List SessionError

namespace Account

/-- A session that ends early. -/
def failed (e : SessionError) : Account := ⟨[], [], [e]⟩

/-- The message of all that went wrong. -/
def message (a : Account) : Text := joinMessages (a.errors.map SessionError.message)

/-- The reports of a batch to a sink. -/
def showReports (s : Sink) : List Report → Sink
  | [] => s
  | r :: rest => showReports (s.putAll r.lines).1 rest

/-- What a session tells about a batch: the diffs of all files, then the reports. -/
def ofOutcomes (coloured : Bool) (heading : Text) (outcomes : List FileOutcome) : Account :=
  let (s, errors) := FileOutcome.showAll coloured Sink.unlimited outcomes
  let s := showReports s (outcomes.filterMap FileOutcome.report?)
  ⟨heading :: outcomes.flatMap FileOutcome.log, s.output, errors.map .file⟩

/-- What a session tells about files that were to be restored. -/
def ofRestored (results : List (Text × Except VaultError Unit)) : Account where
  log := results.filterMap fun (path, result) =>
    match result with
    | .ok () => some ("Restored " ++ path)
    | .error _ => none
  output := []
  errors := results.filterMap fun (_, result) =>
    match result with
    | .ok () => none
    | .error e => some (.vault e)

end Account

/-! ### Operations -/

/-- The operations of a session. -/
inductive SessionOp where
  | disk (op : DiskOp)
  /-- Opens the store in a folder, with an empty one if there is none. -/
  | openArchive (folder : Text)
  /-- An operation on the workspace with the store in a folder. -/
  | work (folder : Text) (op : WorkOp)

/-- The answers to an operation of a session. -/
abbrev SessionOp.Answer : SessionOp → Type
  | disk op => op.Answer
  | openArchive _ => Except ArchiveError Unit
  | work _ op => op.Answer

/-- The operations of a session with their answers. -/
def sessionInterface : Interface := ⟨SessionOp, SessionOp.Answer⟩

/-- The job of a session. -/
abbrev SessionJob := Job sessionInterface

/-- The job of one operation of a session. -/
def SessionOp.perform (op : SessionOp) : SessionJob op.Answer :=
  Job.perform (I := sessionInterface) op

/-- Opens the store in a folder. -/
def SessionJob.openArchive (folder : Text) : SessionJob (Except ArchiveError Unit) :=
  (SessionOp.openArchive folder).perform

/-- An operation of a session as a job on a disk, where the store is an archive. -/
def SessionOp.onDisk (cancelled : Bool) : (op : SessionOp) → DiskJob op.Answer
  | disk op => op.perform
  | openArchive folder => Archive.establish folder
  | work folder op => op.onDisk cancelled folder

namespace Job

variable {α : Type}

/-- A job on the disk of a session. -/
def inSession (j : DiskJob α) : SessionJob α := j.expand fun op => (SessionOp.disk op).perform

/-- A job on the workspace of a session with the store in a folder. -/
def withArchive (folder : Text) (j : WorkJob α) : SessionJob α :=
  j.expand fun op => (SessionOp.work folder op).perform

/-- A session as a job on a disk. -/
def onDisk (cancelled : Bool) (j : SessionJob α) : DiskJob α :=
  j.expand (SessionOp.onDisk cancelled)

end Job

/-! ### Sessions -/

variable [Snapshot.Format]

/-- Restores files, each on its own. -/
def Vault.restoreEach (cwd : Text) (force : Bool) :
    List Text → WorkJob (List (Text × Except VaultError Unit))
  | [] => pure []
  | path :: rest => do
    let result ← Vault.restore cwd path force
    let results ← Vault.restoreEach cwd force rest
    return (path, result) :: results

namespace Config

/-- Prepares a configuration unless it is prepared already. -/
def ready (c : Config) : DiskJob (Except ConfigError Unit × Config) :=
  if c.prepared then pure (.ok (), c) else c.prepare

/-- Whether snapshots are taken: there is an archive, and files may be stored. -/
def takesSnapshots (c : Config) : Bool := c.archive ≠ [] && !c.dryRun && !c.check

/-- How a batch goes about the files of a configuration. -/
def mode (c : Config) : Mode :=
  ⟨c.dryRun, c.check, c.diff || c.dryRun || c.check, c.takesSnapshots⟩

/-- Opens the archive if snapshots are taken. -/
def openArchive (c : Config) : SessionJob (Except ArchiveError Unit) :=
  if c.takesSnapshots then .openArchive c.archive else pure (.ok ())

/-- The first entry of the log of a batch. -/
def heading (c : Config) (p : Profile) : Text :=
  "Patching " ++ Text.ofNat c.targets.length ++ " files, " ++ Text.ofNat p.routes.length ++
    " registered units"

/-- Patches the files of a prepared configuration. There is nothing to tell if the batch breaks
off. -/
def patch (c : Config) (cwd : Text) (coloured : Bool) (p : Profile) :
    SessionJob (Option Account) := do
  match p.validate with
  | .error e => return some (.failed (.profile e))
  | .ok () =>
    match ← c.openArchive with
    | .error e => return some (.failed (.archive e))
    | .ok () =>
      let outcomes? ← (p.attemptFiles cwd c.mode c.targets).withArchive c.archive
      return outcomes?.map (.ofOutcomes (coloured && !c.plain) (c.heading p))

/-- A session that patches the files of a configuration. -/
def run (c : Config) (cwd : Text) (coloured : Bool) : SessionJob (Option Account × Config) := do
  match ← c.ready.inSession with
  | (.error e, c) => return (some (.failed (.config e)), c)
  | (.ok (), c) => return (← c.patch cwd coloured (c.profile?.getD Profile.standard), c)

/-- The files to restore: those listed, or all that have a snapshot and after them those listed that
have none. -/
def restoreTargets (c : Config) (cwd : Text) : WorkJob (Except VaultError (List Text)) := do
  if !c.restoreAll then return .ok c.targets
  match ← Vault.paths with
  | .error e => return .error e
  | .ok known =>
    return .ok (known ++ c.targets.filter fun t => !known.contains (Path.absolute cwd t))

/-- Restores the files of a prepared configuration from an archive. -/
def restoreFiles (c : Config) (cwd : Text) (force : Bool) : WorkJob Account := do
  match ← c.restoreTargets cwd with
  | .error e => return .failed (.unlisted e)
  | .ok [] => return ⟨["No snapshots recorded in " ++ c.archive], [], []⟩
  | .ok targets => return .ofRestored (← Vault.restoreEach cwd force targets)

/-- Restores the files of a prepared configuration. -/
def undo (c : Config) (cwd : Text) (force : Bool) : SessionJob Account := do
  if c.archive = [] then return .failed .noArchive
  match ← SessionJob.openArchive c.archive with
  | .error e => return .failed (.archive e)
  | .ok () => (c.restoreFiles cwd force).withArchive c.archive

/-- A session that restores files. From then on the configuration is one for restoring. -/
def restore (c : Config) (cwd : Text) (force : Bool) : SessionJob (Account × Config) := do
  match ← { c with restoring := true }.ready.inSession with
  | (.error e, c) => return (.failed (.config e), c)
  | (.ok (), c) => return (← c.undo cwd force, c)

end Config

end Reroute
