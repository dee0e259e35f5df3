import Reroute.Disk.Basic

/-!
# Source files on a disk

Reading a source file, and replacing one as a whole: the new text goes to a temporary file beside
the target, which then takes the target's name. Whatever step fails, the target keeps its text, and
the temporary file is taken away again.

## Main definitions

* `SourceError` — why a source file cannot be read or written
* `Files.load`, `Files.store` — reading and replacing a file
* `Files.makeFolders` — a folder with all that it lies in
-/

namespace Reroute

/-- Why a source file cannot be read or written. -/
inductive SourceError where
  /-- No file of that name is held in memory. -/
  | missing
  /-- The keeper of the files refuses the operation. -/
  | refused (operation : Text)
  | unreadable (path : Text) (cause : DiskError)
  | disk (cause : DiskError)
  | tempNotCreated (cause : DiskError)
  | tempNotWritten (cause : DiskError)
  | tempNotSynced (cause : DiskError)
deriving DecidableEq, Repr

namespace SourceError

/-- The message of a source error. -/
def message : SourceError → Text
  | missing => "file does not exist"
  | refused operation => operation ++ " refused"
  | unreadable path cause => "read source failed " ++ path ++ ": " ++ cause.message
  | disk cause => cause.message
  | tempNotCreated cause => "create temp file failed: " ++ cause.message
  | tempNotWritten cause => "write temp file failed: " ++ cause.message
  | tempNotSynced cause => "sync temp file failed: " ++ cause.message

/-- Whether the error says that there is no such file. -/
def isMissing : SourceError → Bool
  | missing => true
  | refused _ => false
  | unreadable _ cause | disk cause => cause.fault = .notFound
  | tempNotCreated cause | tempNotWritten cause | tempNotSynced cause => cause.fault = .notFound

end SourceError

namespace Files

/-- The text of a file. -/
def load (path : Text) : DiskJob (Except SourceError Text) := do
  match ← (DiskOp.read path).perform with
  | .error e => return .error (.unreadable path e)
  | .ok text => return .ok text

/-- Takes a temporary file away and fails. -/
def abandon (temp : Text) (e : SourceError) : DiskJob (Except SourceError Unit) := do
  let _ ← (DiskOp.remove temp).perform
  return .error e

/-- Closes a temporary file, takes it away and fails. -/
def closeAndAbandon (temp : Text) (e : SourceError) : DiskJob (Except SourceError Unit) := do
  let _ ← (DiskOp.close temp).perform
  abandon temp e

/-- Gives a file that is written and closed its permission bits and its name. -/
def publish (temp path : Text) (mode : Nat) : DiskJob (Except SourceError Unit) := do
  match ← (DiskOp.chmod temp mode).perform with
  | .error e => abandon temp (.disk e)
  | .ok () =>
    match ← (DiskOp.rename temp path).perform with
    | .error e => abandon temp (.disk e)
    | .ok () => return .ok ()

/-- Replaces the file at a path by way of a temporary file. -/
def replace (path text : Text) (mode : Nat) : DiskJob (Except SourceError Unit) := do
  match ← (DiskOp.createTemp (Path.folder path)).perform with
  | .error e => return .error (.tempNotCreated e)
  | .ok temp =>
    match ← (DiskOp.append temp text).perform with
    | .error e => closeAndAbandon temp (.tempNotWritten e)
    | .ok () =>
      match ← (DiskOp.sync temp).perform with
      | .error e => closeAndAbandon temp (.tempNotSynced e)
      | .ok () =>
        match ← (DiskOp.close temp).perform with
        | .error e => abandon temp (.disk e)
        | .ok () => publish temp path mode

/-- Replaces the file at a path. The permission bits of a file that is there stay. -/
def store (path text : Text) : DiskJob (Except SourceError Unit) := do
  match ← (DiskOp.stat path).perform with
  | .ok info => replace path text info.mode
  | .error e =>
    if e.fault = .notFound then replace path text Node.usualMode
    else return .error (.disk e)

/-- Makes a folder whose own folder exists. It may be there already under this path. -/
def makeFolder (path : Text) : DiskJob (Except DiskError Unit) := do
  match ← (DiskOp.mkdir path).perform with
  | .ok () => return .ok ()
  | .error e =>
    match ← (DiskOp.stat path).perform with
    | .ok info => return if info.isFolder then .ok () else .error e
    | .error _ => return .error e

/-- Makes a folder and those that it lies in, as far as they are missing. -/
def makeFolders (path : Text) : DiskJob (Except DiskError Unit) :=
  (DiskOp.stat path).perform.bind fun
    | .ok info =>
      pure (if info.isFolder then .ok () else .error ⟨"mkdir", [path], .notFolder⟩)
    | .error _ =>
      match _h : Path.upper? path with
      | none => makeFolder path
      | some upper => (makeFolders upper).bind fun
        | .error e => pure (.error e)
        | .ok () => makeFolder path
termination_by path.length
decreasing_by exact Path.length_lt_of_upper? _h

end Files

end Reroute
