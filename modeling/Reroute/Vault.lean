import Reroute.Snapshot.Basic
import Reroute.Workspace

/-!
# The vault of snapshots

Snapshots are kept in the store of a workspace under the absolute path of their file. The first
patch of a file takes its snapshot, later ones only note what they put there. Restoring a file puts
the pristine text back and drops the snapshot; unless it is forced, it first makes sure that nobody
has edited the file since.

## Main definitions

* `VaultError` — why a snapshot cannot be used
* `Vault.record` — notes that a file is about to be patched
* `Vault.find` — the snapshot of a file
* `Vault.paths` — the files that have a snapshot
* `Vault.restore` — undoes the patches of a file
-/

namespace Reroute

/-- Why a snapshot cannot be used. -/
inductive VaultError where
  | store (cause : StoreError)
  | source (cause : SourceError)
  | undecodable (path : Text)
  | unpackable (path : Text)
  | notRecorded (path : Text)
  /-- The file is not as the last patch has left it. -/
  | edited (path : Text) (found recorded : Fingerprint)
deriving DecidableEq, Repr

/-- The message of a vault error. -/
def VaultError.message : VaultError → Text
  | store cause => cause.message
  | source cause => cause.message
  | undecodable path => "snapshot decode failed " ++ path
  | unpackable path => "snapshot decompress failed " ++ path
  | notRecorded path => "no snapshot recorded for " ++ path
  | edited path found recorded =>
    "file differs from the patched version: " ++ path ++ " (" ++ found.render ++ " != " ++
      recorded.render ++ ")"

namespace Vault

/-- The start of the keys of snapshots. -/
def lead : Text := "snapshot:"

/-- The key of the snapshot of an absolute path. -/
def keyOf (path : Text) : Text := lead ++ path

/-- The path of a key. -/
def pathOf (key : Text) : Text := if key.startsWith lead then key.drop lead.length else key

variable [Snapshot.Format]

/-- The snapshot of a file, if there is one. -/
def find (cwd path : Text) : WorkJob (Except VaultError (Option Snapshot)) := do
  match ← (WorkOp.fetch (keyOf (Path.absolute cwd path))).perform with
  | .error e => return .error (.store e)
  | .ok none => return .ok none
  | .ok (some blob) =>
    match Snapshot.decode? blob with
    | none => return .error (.undecodable path)
    | some s => return .ok (some s)

/-- Keeps a snapshot under its path. -/
def keep (s : Snapshot) : WorkJob (Except VaultError Unit) := do
  match ← (WorkOp.keep (keyOf s.path) s.encode).perform with
  | .error e => return .error (.store e)
  | .ok () => return .ok ()

/-- Notes that the text of a file is about to be replaced. A snapshot that is there keeps its
pristine text. -/
def record (cwd path pristine patched : Text) : WorkJob (Except VaultError Unit) := do
  match ← find cwd path with
  | .error e => return .error e
  | .ok none => keep (Snapshot.take (Path.absolute cwd path) pristine patched)
  | .ok (some s) => keep { s with after := .ofText patched }

/-- The absolute paths of the files that have a snapshot, in ascending order. -/
def paths : WorkJob (Except VaultError (List Text)) := do
  match ← (WorkOp.keysWith lead).perform with
  | .error e => return .error (.store e)
  | .ok keys => return .ok (Text.sort (keys.map pathOf))

/-- Makes sure that a file is as the last patch has left it. -/
def confirm (path : Text) (s : Snapshot) : WorkJob (Except VaultError Unit) := do
  match ← (WorkOp.load path).perform with
  | .error e => return .error (.source e)
  | .ok text =>
    let found := Fingerprint.ofText text
    return if found = s.after then .ok () else .error (.edited path found s.after)

/-- Puts the pristine text back and drops the snapshot. -/
def putBack (path : Text) (s : Snapshot) : WorkJob (Except VaultError Unit) := do
  match s.text? with
  | none => return .error (.unpackable s.path)
  | some text =>
    match ← (WorkOp.store path text).perform with
    | .error e => return .error (.source e)
    | .ok () =>
      match ← (WorkOp.drop (keyOf s.path)).perform with
      | .error e => return .error (.store e)
      | .ok () => return .ok ()

/-- Undoes the patches of a file. Unless it is forced, the file has to be as the last patch has left
it. -/
def restore (cwd path : Text) (force : Bool) : WorkJob (Except VaultError Unit) := do
  match ← find cwd path with
  | .error e => return .error e
  | .ok none => return .error (.notRecorded path)
  | .ok (some s) =>
    if force then putBack path s
    else
      match ← confirm path s with
      | .error e => return .error e
      | .ok () => putBack path s

end Vault

end Reroute
