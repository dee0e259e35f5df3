import Reroute.Disk.Files
import Reroute.Store.Basic
import Reroute.Text.Binary

/-!
# Archives

An archive is a store in a folder of a disk: one file with all blobs, which is replaced as a whole
by every change.

## Main definitions

* `Archive.encode`, `Archive.decode?` — a store as a text
* `Archive.establish` — makes sure that a folder holds an archive
* `Archive.fetch`, `Archive.keep`, `Archive.drop`, `Archive.keysWith` — the operations of a store
-/

namespace Reroute

/-- Why an archive cannot be opened. -/
inductive ArchiveError where
  | folderNotMade (cause : DiskError)
  | unreadable
deriving DecidableEq, Repr

/-- The message of an archive error. -/
def ArchiveError.message : ArchiveError → Text
  | folderNotMade cause => "create storage dir failed: " ++ cause.message
  | unreadable => "open storage db failed"

namespace Archive

/-- The start of the file of an archive. -/
def heading : Text := "reroute archive 1\n"

/-- A text with its length before it. -/
def encodeText (t : Text) : Text := Text.bigEndian 8 t.length ++ t

/-- A store as a text. -/
def encode (s : Store) : Text :=
  heading ++ s.entries.flatMap fun (key, blob) => encodeText key ++ encodeText blob

/-- The text at the front, after its length. -/
def readText (t : Text) : Option (Text × Text) := do
  let (size, t) ← Text.block? 8 t
  Text.block? (Text.ofBigEndian size) t

/-- At most `count` entries, each before those that the store has already. -/
def readEntries : (count : Nat) → Text → Option Store
  | _, [] => some .empty
  | 0, _ :: _ => none
  | count + 1, b :: rest => do
    let (key, t) ← readText (b :: rest)
    let (blob, t) ← readText t
    return (← readEntries count t).insert key blob

/-- The store in a text. -/
def decode? (t : Text) : Option Store :=
  if t.startsWith heading then readEntries t.length (t.drop heading.length) else none

/-- The file of the archive in a folder. -/
def file (folder : Text) : Text := folder ++ "/MANIFEST"

/-- Makes sure that a folder holds an archive, with an empty one if there is none. -/
def establish (folder : Text) : DiskJob (Except ArchiveError Unit) := do
  match ← Files.makeFolders folder with
  | .error e => return .error (.folderNotMade e)
  | .ok () =>
    match ← (DiskOp.read (file folder)).perform with
    | .ok text => return if (decode? text).isSome then .ok () else .error .unreadable
    | .error e =>
      if e.fault = .notFound then
        match ← Files.store (file folder) (encode .empty) with
        | .ok () => return .ok ()
        | .error _ => return .error .unreadable
      else return .error .unreadable

/-- The store in a folder. -/
def load (folder : Text) : DiskJob (Except StoreError Store) := do
  match ← Files.load (file folder) with
  | .error e => return .error (.broken e.message)
  | .ok text =>
    match decode? text with
    | none => return .error (.broken "archive is damaged")
    | some s => return .ok s

/-- Changes the store in a folder. -/
def change (folder : Text) (f : Store → Store) : DiskJob (Except StoreError Unit) := do
  match ← load folder with
  | .error e => return .error e
  | .ok s =>
    match ← Files.store (file folder) (encode (f s)) with
    | .error e => return .error (.broken e.message)
    | .ok () => return .ok ()

/-- The start of keys that an archive keeps for itself. -/
def reserved : Text := "!badger!"

/-- Why a key cannot be written. -/
def refusal? (key : Text) : Option StoreError :=
  if key = [] then some .emptyKey
  else if key.startsWith reserved then some .reservedKey
  else none

/-- The blob of a key, if there is one. -/
def fetch (folder key : Text) : DiskJob (Except StoreError (Option Text)) := do
  if key = [] then return .error (.unfetchable key .emptyKey)
  match ← load folder with
  | .error e => return .error (.unfetchable key e)
  | .ok s => return .ok (s.find? key)

/-- Keeps a blob under a key. -/
def keep (folder key blob : Text) : DiskJob (Except StoreError Unit) :=
  match refusal? key with
  | some e => pure (.error e)
  | none => change folder fun s => s.insert key blob

/-- Drops the blob of a key. -/
def drop (folder key : Text) : DiskJob (Except StoreError Unit) :=
  match refusal? key with
  | some e => pure (.error e)
  | none => change folder fun s => s.erase key

/-- The keys with a common start, in ascending order. -/
def keysWith (folder lead : Text) : DiskJob (Except StoreError (List Text)) := do
  match ← load folder with
  | .error e => return .error e
  | .ok s => return .ok (s.keysWith lead)

end Archive

end Reroute
