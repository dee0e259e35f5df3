import Reroute.Text.Basic

/-!
# Keyed collections

A finite map, held as a list of entries in which no key occurs twice. Source files in memory, the
blobs of a store and the nodes of a disk are such maps.

## Main definitions

* `Keyed` — entries without repeated keys
* `Keyed.find?`, `Keyed.insert`, `Keyed.erase`, `Keyed.keys`

## Main results

* `Keyed.find?_insert`, `Keyed.find?_erase` — what is found after a change
* `Keyed.mem_keys_iff` — the keys are those under which something is found
-/

namespace Reroute

/-- A finite map. -/
structure Keyed (κ α : Type) where
  entries : List (κ × α)
  nodup : (entries.map Prod.fst).Nodup

namespace Keyed

variable {κ α : Type}

/-- The map without entries. -/
def empty : Keyed κ α := ⟨[], .nil⟩

instance : Inhabited (Keyed κ α) := ⟨empty⟩

/-- The keys of the map. -/
def keys (m : Keyed κ α) : List κ := m.entries.map Prod.fst

variable [DecidableEq κ]

/-- What stands under a key. -/
def find? (m : Keyed κ α) (key : κ) : Option α :=
  (m.entries.find? fun e => e.1 = key).map Prod.snd

/-- The map without what stands under a key. -/
def erase (m : Keyed κ α) (key : κ) : Keyed κ α where
  entries := m.entries.filter fun e => e.1 ≠ key
  nodup := m.nodup.sublist (List.filter_sublist.map _)

/-- The map with a value under a key, in place of what stood there. -/
def insert (m : Keyed κ α) (key : κ) (value : α) : Keyed κ α where
  entries := (key, value) :: (m.erase key).entries
  nodup := List.nodup_cons.2 ⟨by simp [erase], (m.erase key).nodup⟩

@[simp] theorem find?_empty (key : κ) : (empty : Keyed κ α).find? key = none := rfl

theorem find?_erase (m : Keyed κ α) (key other : κ) :
    (m.erase key).find? other = if other = key then none else m.find? other := by
  simp only [find?, erase, List.find?_filter]
  split
  · rename_i h
    subst h
    simp
  · rename_i h
    congr 2
    funext e
    by_cases he : e.1 = other <;> simp [he, h]

theorem find?_insert (m : Keyed κ α) (key other : κ) (value : α) :
    (m.insert key value).find? other = if other = key then some value else m.find? other := by
  by_cases h : other = key
  · subst h
    simp [find?, insert]
  · have hne : key ≠ other := fun e => h e.symm
    have := find?_erase m key other
    simp only [h, if_false] at this ⊢
    rw [← this]
    simp [find?, insert, hne]

@[simp] theorem find?_insert_self (m : Keyed κ α) (key : κ) (value : α) :
    (m.insert key value).find? key = some value := by simp [find?_insert]

@[simp] theorem find?_erase_self (m : Keyed κ α) (key : κ) : (m.erase key).find? key = none := by
  simp [find?_erase]

/-- The keys are those under which something is found. -/
theorem mem_keys_iff (m : Keyed κ α) (key : κ) : key ∈ m.keys ↔ (m.find? key).isSome := by
  simp [keys, find?, List.find?_isSome, Option.isSome_map]

end Keyed

end Reroute
