import Reroute.Keyed

/-!
# Stores

A store keeps blobs by key. Here it is a value; `Reroute.Store.Archive` keeps one in a file.

## Main definitions

* `Store` — blobs by key
* `Store.keysWith` — the keys with a common start, in ascending order
* `StoreError` — why a store refuses an operation
-/

namespace Reroute

/-- Blobs by key. -/
abbrev Store := Keyed Text Text

/-- The keys with a common start, in ascending order. -/
def Store.keysWith (s : Store) (lead : Text) : List Text :=
  Text.sort (s.keys.filter fun key => key.startsWith lead)

/-- Why a store refuses an operation. -/
inductive StoreError where
  | emptyKey
  | reservedKey
  /-- The keeper of the store refuses the operation. -/
  | refused (operation : Text)
  /-- A blob cannot be fetched. -/
  | unfetchable (key : Text) (cause : StoreError)
  /-- The file that holds the store cannot be read or written. -/
  | broken (reason : Text)
deriving DecidableEq, Repr

/-- The message of a store error. -/
def StoreError.message : StoreError → Text
  | emptyKey => "Key cannot be empty"
  | reservedKey => "Key is using a reserved !badger! prefix"
  | refused operation => operation ++ " refused"
  | unfetchable key cause => "load state " ++ key ++ " failed: " ++ cause.message
  | broken reason => reason

end Reroute
