import Reroute.Disk.Files
import Reroute.Store.Archive

/-!
# Workspaces

What passes over files work on: source files, a store for snapshots, and the wish of the user to
stop. Each operation is one step for the outside; between two operations anything may happen there.

A workspace may be held in memory, with faults laid into it, or lie on a disk.

## Main definitions

* `WorkOp`, `workInterface` — the operations on a workspace
* `Memory`, `Memory.perform` — a workspace in memory
* `WorkOp.onDisk` — the operations as jobs on a disk
-/

namespace Reroute

/-- The operations on a workspace. -/
inductive WorkOp where
  /-- Whether the work is to be given up. -/
  | isCancelled
  | load (path : Text)
  | store (path text : Text)
  | fetch (key : Text)
  | keep (key blob : Text)
  | drop (key : Text)
  | keysWith (lead : Text)

/-- The answers to an operation on a workspace. -/
abbrev WorkOp.Answer : WorkOp → Type
  | isCancelled => Bool
  | load _ => Except SourceError Text
  | store _ _ => Except SourceError Unit
  | fetch _ => Except StoreError (Option Text)
  | keep _ _ => Except StoreError Unit
  | drop _ => Except StoreError Unit
  | keysWith _ => Except StoreError (List Text)

/-- The operations on a workspace with their answers. -/
def workInterface : Interface := ⟨WorkOp, WorkOp.Answer⟩

/-- A job on a workspace. -/
abbrev WorkJob := Job workInterface

/-- The job of one operation on a workspace. -/
def WorkOp.perform (op : WorkOp) : WorkJob op.Answer := Job.perform (I := workInterface) op

/-! ### Workspaces in memory -/

/-- What goes wrong in a workspace. -/
structure Faults where
  /-- The work is to be given up from the start. -/
  cancelled : Bool
  /-- The work is to be given up once a source file was loaded. -/
  cancelOnLoad : Bool
  failLoad : Bool
  failStore : Bool
  /-- The operations that the store refuses, by name. -/
  refused : List Text
deriving DecidableEq, Repr

/-- A workspace in which nothing goes wrong. -/
def Faults.none : Faults := ⟨false, false, false, false, []⟩

/-- A workspace in memory. -/
structure Memory where
  files : Keyed Text Text
  store : Store
  faults : Faults
  /-- How often a source file was stored. -/
  storeCount : Nat

namespace Memory

/-- The names by which the operations of the store are refused. -/
def operationName : WorkOp → Text
  | .keep _ _ => "save"
  | .fetch _ => "load"
  | .drop _ => "delete"
  | .keysWith _ => "list"
  | _ => []

/-- An answer of the store, unless it refuses the operation. -/
def guarded {α : Type} (m : Memory) (op : WorkOp) (answer : α × Memory) :
    Except StoreError α × Memory :=
  if m.faults.refused.contains (operationName op) then (.error (.refused (operationName op)), m)
  else (.ok answer.1, answer.2)

/-- What the operations do to a workspace in memory. -/
def perform : Handler workInterface Memory
  | .isCancelled, m => (m.faults.cancelled, m)
  | .load path, m =>
    let m := if m.faults.cancelOnLoad then { m with faults.cancelled := true } else m
    if m.faults.failLoad then (.error (.refused "load"), m)
    else
      match m.files.find? path with
      | none => (.error .missing, m)
      | some text => (.ok text, m)
  | .store path text, m =>
    if m.faults.failStore then (.error (.refused "store"), m)
    else (.ok (), { m with files := m.files.insert path text, storeCount := m.storeCount + 1 })
  | op@(.fetch key), m => m.guarded op (m.store.find? key, m)
  | op@(.keep key blob), m => m.guarded op ((), { m with store := m.store.insert key blob })
  | op@(.drop key), m => m.guarded op ((), { m with store := m.store.erase key })
  | op@(.keysWith lead), m => m.guarded op (m.store.keysWith lead, m)

end Memory

/-! ### Workspaces on a disk -/

/-- An operation as a job on a disk, where the store is an archive in a folder. -/
def WorkOp.onDisk (cancelled : Bool) (archive : Text) : (op : WorkOp) → DiskJob op.Answer
  | isCancelled => pure cancelled
  | load path => Files.load path
  | store path text => Files.store path text
  | fetch key => Archive.fetch archive key
  | keep key blob => Archive.keep archive key blob
  | drop key => Archive.drop archive key
  | keysWith lead => Archive.keysWith archive lead

end Reroute
