import Mathlib.Data.List.Nodup
import Reroute.Proofs.Path
import Reroute.Proofs.Text.Order
import Reroute.Proofs.Vault

/-!
# Keys and the snapshots under them

The key of a snapshot is computed in two ways. Looking for the snapshot of a file starts from the
path that the caller has, which is made absolute first; keeping and dropping a snapshot start from
the path in the snapshot. The two ways agree because a path that was made absolute once stays as it
is: whatever is recorded and restored under whatever paths, and whatever fails on the way, each
snapshot stands under the key of its own path, and this path is absolute.

So the vault is a map from absolute paths. Its listing names each of them once, in ascending order,
paths that lead to the same absolute path share a snapshot, and no call reaches beyond its own.

## Main definitions

* `Vault.Kept` — the blobs that recording and restoring files may leave in a store
* `Vault.AllEntries` — every blob is a snapshot of an absolute path and stands under its key
* `Workspace.ListsOnce` — listings name no key twice

## Main results

* `Vault.Kept.entry` — every blob that was kept is the snapshot of its path
* `Vault.AllEntries.blob_record`, `Vault.AllEntries.blob_restore` — what a call does to the store
* `Vault.Kept.keyed` — the vault is a map from absolute paths
-/

namespace Reroute

open Snapshot (ofPristine Packable)

/-- Listings name no key twice. -/
def Workspace.ListsOnce {σ : Type} (w : Workspace σ) : Prop :=
  ∀ (lead : Text) (s : σ) (keys : List Text),
    (w.handler (.keysWith lead) s).1 = .ok keys → keys.Nodup

/-- A store lists every key once. -/
theorem Store.nodup_keysWith (s : Store) (lead : Text) : (s.keysWith lead).Nodup := by
  rw [Store.keysWith, Text.sort, (List.mergeSort_perm _ _).nodup_iff]
  exact s.nodup.filter _

/-- The store of a workspace in memory lists every key once. -/
theorem Memory.listsOnce : workspace.ListsOnce := by
  intro lead m keys h
  have hkeys := m.store.nodup_keysWith lead
  simp only [workspace, perform, guarded] at h
  split at h
  · cases h
  · cases h
    exact hkeys

namespace Vault

variable {σ : Type} {cwd path key blob : Text} {blobs : Text → Option Text}

/-! ### Listings -/

@[simp] theorem pathOf_keyOf (path : Text) : pathOf (keyOf path) = path := by
  rw [pathOf, keyOf, if_pos (Text.startsWith_iff.2 (List.prefix_append lead path)), List.drop_left]

/-- A key with the lead of snapshots is the key of its path. -/
theorem keyOf_pathOf (h : lead <+: key) : keyOf (pathOf key) = key := by
  obtain ⟨path, rfl⟩ := h
  exact congrArg keyOf (pathOf_keyOf path)

/-- The paths of the keys that are listed are those with a blob under their key. -/
theorem mem_sort_map_pathOf_iff {keys : List Text}
    (hkeys : ∀ key, key ∈ keys ↔ lead <+: key ∧ (blobs key).isSome = true) :
    path ∈ Text.sort (keys.map pathOf) ↔ (blobs (keyOf path)).isSome = true := by
  rw [Text.sort, List.mem_mergeSort, List.mem_map]
  constructor
  · rintro ⟨key, hkey, rfl⟩
    obtain ⟨hlead, hsome⟩ := (hkeys key).1 hkey
    rwa [keyOf_pathOf hlead]
  · intro hsome
    exact ⟨keyOf path, (hkeys _).2 ⟨List.prefix_append lead path, hsome⟩, pathOf_keyOf path⟩

/-- The paths of keys that are listed once are strictly increasing. -/
theorem pairwise_lt_sort_map_pathOf {keys : List Text} (hlead : ∀ key ∈ keys, lead <+: key)
    (hnodup : keys.Nodup) :
    (Text.sort (keys.map pathOf)).Pairwise fun a b => Text.lt a b = true := by
  refine Text.pairwise_lt_sort (List.Nodup.map_on (fun a ha b hb heq => ?_) hnodup)
  rw [← keyOf_pathOf (hlead a ha), heq, keyOf_pathOf (hlead b hb)]

section Listing

variable {w : Workspace σ} {s : σ}

/-- The listing of the vault has the paths of the keys that are listed. -/
theorem run_paths_of_keys (h : Handler workInterface σ) {keys : List Text}
    (hkeys : (h (.keysWith lead) s).1 = .ok keys) :
    paths.run h s = (.ok (Text.sort (keys.map pathOf)), (h (.keysWith lead) s).2) := by
  rw [paths, Job.run_monad_bind, WorkOp.run_perform, hkeys]
  rfl

/-- The listing of the vault, if the store can be listed. -/
theorem run_paths (hworks : ∀ event ∈ paths.events w.handler s, event.failed = false) :
    ∃ keys, (w.handler (.keysWith lead) s).1 = .ok keys ∧
      (paths.run w.handler s).1 = .ok (Text.sort (keys.map pathOf)) := by
  have hevent := hworks ⟨.keysWith lead, (w.handler (.keysWith lead) s).1⟩ List.mem_cons_self
  cases hanswer : (w.handler (.keysWith lead) s).1 with
  | error e =>
    rw [hanswer] at hevent
    cases hevent
  | ok keys => exact ⟨keys, rfl, congrArg Prod.fst (run_paths_of_keys w.handler hanswer)⟩

/-- A listing has the keys of snapshots that have a blob. -/
theorem mem_keysWith_iff {keys : List Text} (hkeys : (w.handler (.keysWith lead) s).1 = .ok keys)
    (key : Text) : key ∈ keys ↔ lead <+: key ∧ ((w.contents s).blob key).isSome = true := by
  have hmay := w.may (.keysWith lead) s
  rw [hkeys] at hmay
  exact hmay.2 key

end Listing

/-! ### Recording and restoring -/

section Format

variable [Snapshot.Format]

/-- The blobs that recording and restoring files may leave in a store, from an empty one on. Every
call may be made in a workspace of its own, with other files and other faults, as long as it finds
the blobs that the call before it has left. The texts are such that packing loses nothing. -/
inductive Kept (cwd : Text) : (Text → Option Text) → Prop
  | empty : Kept cwd fun _ => none
  | recorded {σ : Type} (w : Workspace σ) (s : σ) (path pristine patched : Text)
    (hpack : Packable (Path.absolute cwd path) pristine) (hkept : Kept cwd (w.contents s).blob) :
    Kept cwd (w.contents ((record cwd path pristine patched).run w.handler s).2).blob
  | restored {σ : Type} (w : Workspace σ) (s : σ) (path : Text) (force : Bool)
    (hkept : Kept cwd (w.contents s).blob) :
    Kept cwd (w.contents ((restore cwd path force).run w.handler s).2).blob

/-- A blob is a snapshot of an absolute path and stands under its key. -/
def Entry (cwd key blob : Text) : Prop :=
  ∃ abs text f, key = keyOf abs ∧ Path.absolute cwd abs = abs ∧ Packable abs text ∧
    blob = (ofPristine abs text f).encode

/-- All blobs are snapshots of absolute paths under their keys. -/
def AllEntries (cwd : Text) (blobs : Text → Option Text) : Prop :=
  ∀ key blob, blobs key = some blob → Entry cwd key blob

/-- A snapshot under the key of a path is one of that path. -/
theorem AllEntries.of_keyOf {abs : Text} (h : AllEntries cwd blobs)
    (hblob : blobs (keyOf abs) = some blob) :
    ∃ text f, Packable abs text ∧ blob = (ofPristine abs text f).encode := by
  obtain ⟨abs', text, f, hkey, -, hpack, hencode⟩ := h _ _ hblob
  obtain rfl : abs = abs' := keyOf_injective hkey
  exact ⟨text, f, hpack, hencode⟩

/-! ### What a call does to the store -/

section Calls

variable (w : Workspace σ) {s : σ}

/-- Recording a file leaves the store as it is, or it keeps a snapshot of its absolute path there,
with the text of the one before if there was one. -/
theorem AllEntries.blob_record (h : AllEntries cwd (w.contents s).blob)
    (path pristine patched : Text) :
    let c := w.contents s
    let c' := w.contents ((record cwd path pristine patched).run w.handler s).2
    c'.blob = c.blob ∨
      ∃ text f, (text = pristine ∨ Packable (Path.absolute cwd path) text) ∧
        c'.blob = Function.update c.blob (keyOf (Path.absolute cwd path))
          (some (ofPristine (Path.absolute cwd path) text f).encode) := by
  intro c c'
  let Q : Job.Goal (Except VaultError Unit) := fun _ _ c' =>
    c'.blob = c.blob ∨
      ∃ text f, (text = pristine ∨ Packable (Path.absolute cwd path) text) ∧
        c'.blob = Function.update c.blob (keyOf (Path.absolute cwd path))
          (some (ofPristine (Path.absolute cwd path) text f).encode)
  have halways : (record cwd path pristine patched).Always (fun _ _ _ => True) Q [] c := by
    refine always_record trivial (fun _ _ _ _ => trivial) (fun _ _ _ => .inl rfl) ?_
    intro _ snapshot _ hrenewal
    cases hblob : c.blob (keyOf (Path.absolute cwd path)) with
    | none =>
      -- the first snapshot of the path
      rw [hblob, renewal?, Snapshot.take_eq] at hrenewal
      cases hrenewal
      exact .inr ⟨pristine, _, .inl rfl, rfl⟩
    | some blob =>
      -- the snapshot that is there names the same path, so it is kept under the same key
      obtain ⟨text, f, htext, rfl⟩ := h.of_keyOf hblob
      rw [hblob, renewal?_ofPristine htext] at hrenewal
      cases hrenewal
      exact .inr ⟨text, _, .inr htext, rfl⟩
  exact halways.run w

/-- Restoring a file leaves the store as it is, or it drops the snapshot of its absolute path. -/
theorem AllEntries.blob_restore (h : AllEntries cwd (w.contents s).blob) (path : Text)
    (force : Bool) :
    let c := w.contents s
    let c' := w.contents ((restore cwd path force).run w.handler s).2
    c'.blob = c.blob ∨
      c'.blob = Function.update c.blob (keyOf (Path.absolute cwd path)) none := by
  intro c c'
  cases hblob : c.blob (keyOf (Path.absolute cwd path)) with
  | none =>
    let Q : Job.Goal (Except VaultError Unit) := fun _ _ c' => c'.blob = c.blob
    have halways : (restore cwd path force).Always (fun _ _ _ => True) Q [] c :=
      always_restore_of_none hblob trivial fun _ _ => rfl
    exact .inl (halways.run w)
  | some blob =>
    obtain ⟨text, f, htext, rfl⟩ := h.of_keyOf hblob
    have hrestored := restored_restore w force htext hblob
    change Restored c _ _ _ _ _ _ _ c' at hrestored
    generalize c' = after at hrestored ⊢
    generalize ((restore cwd path force).run w.handler s).1 = result at hrestored
    cases hrestored with
    | failed _ => exact .inl rfl
    | edited _ _ _ => exact .inl rfl
    | kept _ => exact .inl rfl
    | done _ => exact .inr rfl

end Calls

/-- Every blob that was kept is the snapshot of its path. -/
theorem Kept.entry (hcwd : Path.isAbsolute cwd = true) (h : Kept cwd blobs) :
    AllEntries cwd blobs := by
  induction h with
  | empty =>
    intro key blob hblob
    cases hblob
  | recorded w s path pristine patched hpack _ ih =>
    rcases ih.blob_record w path pristine patched with hsame | ⟨text, f, htext, hkept⟩
    · rwa [hsame]
    · have hpackable : Packable (Path.absolute cwd path) text :=
        htext.elim (fun heq => heq ▸ hpack) id
      intro key blob hblob
      rw [hkept, Function.update_apply] at hblob
      split at hblob
      · rename_i hkey
        cases hblob
        exact ⟨_, text, f, hkey, Path.absolute_absolute hcwd path, hpackable, rfl⟩
      · exact ih key blob hblob
  | restored w s path force _ ih =>
    rcases ih.blob_restore w path force with hsame | hdropped
    · rwa [hsame]
    · intro key blob hblob
      rw [hdropped, Function.update_apply] at hblob
      split at hblob
      · cases hblob
      · exact ih key blob hblob

/-! ### Looking for snapshots -/

section Looking

variable {w : Workspace σ} {s : σ}

/-- Looking for a snapshot comes to what the blob under the key of the absolute path is read as. -/
theorem run_find (hworks : ∀ event ∈ (find cwd path).events w.handler s, event.failed = false) :
    ((find cwd path).run w.handler s).1 =
      reading path ((w.contents s).blob (keyOf (Path.absolute cwd path))) := by
  let Q : Job.Goal (Except VaultError (Option Snapshot)) := fun result past _ =>
    (∀ event ∈ past, event.failed = false) →
      result = reading path ((w.contents s).blob (keyOf (Path.absolute cwd path)))
  have halways : (find cwd path).Always (fun _ _ _ => True) Q [] (w.contents s) :=
    always_find.2 ⟨trivial, fun e h => by simp [WorkEvent.failed] at h, fun _ => rfl⟩
  exact halways.run w hworks

/-- Paths with the same absolute path have the same snapshot. -/
theorem AllEntries.run_find_congr (h : AllEntries cwd (w.contents s).blob) {other : Text}
    (heq : Path.absolute cwd path = Path.absolute cwd other) :
    (find cwd path).run w.handler s = (find cwd other).run w.handler s := by
  have hmay := w.may (.fetch (keyOf (Path.absolute cwd other))) s
  rw [find, find, heq, Job.run_monad_bind, Job.run_monad_bind, WorkOp.run_perform]
  -- only a blob that cannot be read is reported with the path of the caller
  cases hanswer : (w.handler (.fetch (keyOf (Path.absolute cwd other))) s).1 with
  | error e => rfl
  | ok blob? =>
    cases blob? with
    | none => rfl
    | some blob =>
      rw [hanswer] at hmay
      obtain ⟨text, f, htext, rfl⟩ := h.of_keyOf hmay.2
      simp only [htext.blob_read]

end Looking

/-! ### The vault as a map -/

/-- What recording and restoring files leaves in a store is a map from absolute paths. Every blob is
read as a snapshot, stands under the key of its path, and this path is its own absolute path. The
listing of the vault is strictly increasing and has exactly the absolute paths for which a snapshot
is found. Paths with the same absolute path have the same snapshot. And a call leaves whatever does
not stand under the key of its own absolute path. -/
theorem Kept.keyed (hcwd : Path.isAbsolute cwd = true) (w : Workspace σ) (s : σ)
    (h : Kept cwd (w.contents s).blob) :
    (∀ key blob, (w.contents s).blob key = some blob →
      ∃ snapshot, Snapshot.decode? blob = some snapshot ∧ key = keyOf snapshot.path ∧
        Path.absolute cwd snapshot.path = snapshot.path) ∧
    (w.ListsOnce → (∀ event ∈ paths.events w.handler s, event.failed = false) →
      ∃ listed, (paths.run w.handler s).1 = .ok listed ∧
        (listed.Pairwise fun a b => Text.lt a b = true) ∧
        ∀ path, (∀ event ∈ (find cwd path).events w.handler s, event.failed = false) →
          (path ∈ listed ↔ Path.absolute cwd path = path ∧
            ∃ snapshot, ((find cwd path).run w.handler s).1 = .ok (some snapshot))) ∧
    (∀ path other, Path.absolute cwd path = Path.absolute cwd other →
      (find cwd path).run w.handler s = (find cwd other).run w.handler s) ∧
    ∀ path key, key ≠ keyOf (Path.absolute cwd path) →
      (∀ pristine patched,
        (w.contents ((record cwd path pristine patched).run w.handler s).2).blob key =
          (w.contents s).blob key) ∧
      ∀ force, (w.contents ((restore cwd path force).run w.handler s).2).blob key =
        (w.contents s).blob key := by
  have hall := h.entry hcwd
  refine ⟨fun key blob hblob => ?_, fun honce hworks => ?_, fun path other => ?_,
    fun path key hkey => ⟨fun pristine patched => ?_, fun force => ?_⟩⟩
  · obtain ⟨abs, text, f, hkey, habs, hpack, rfl⟩ := hall key blob hblob
    exact ⟨_, hpack.blob_read f, hkey, habs⟩
  · obtain ⟨keys, hkeys, hrun⟩ := run_paths hworks
    have hmem := mem_keysWith_iff hkeys
    refine ⟨_, hrun, pairwise_lt_sort_map_pathOf (fun key hkey => ((hmem key).1 hkey).1)
      (honce lead s keys hkeys), fun path hfound => ?_⟩
    rw [mem_sort_map_pathOf_iff hmem, run_find hfound]
    constructor
    · intro hsome
      obtain ⟨blob, hblob⟩ := Option.isSome_iff_exists.1 hsome
      obtain ⟨abs, text, f, hkey, habs, hpack, rfl⟩ := hall _ _ hblob
      -- the blob is a snapshot of the path itself, which is therefore absolute
      obtain rfl : path = abs := keyOf_injective hkey
      refine ⟨habs, ofPristine path text f, ?_⟩
      simp only [habs, hblob, reading, hpack.blob_read]
    · rintro ⟨habs, snapshot, hread⟩
      rw [habs] at hread
      cases hblob : (w.contents s).blob (keyOf path) with
      | none =>
        rw [hblob] at hread
        cases hread
      | some blob => rfl
  · exact hall.run_find_congr
  · rcases hall.blob_record w path pristine patched with hsame | ⟨text, f, -, hkept⟩
    · rw [hsame]
    · rw [hkept, Function.update_of_ne hkey]
  · rcases hall.blob_restore w path force with hsame | hdropped
    · rw [hsame]
    · rw [hdropped, Function.update_of_ne hkey]

end Format

/-- Two files are recorded under paths that are not clean, and one of them is restored: the other
one is listed and has its snapshot, and this one is neither listed nor found. -/
theorem Kept.keyed_unclean :
    let w := Memory.workspace
    let m₀ : Memory := ⟨Keyed.empty, Keyed.empty, .none, 0⟩
    let m₁ := ((record "/work" "./a.rs" "old" "new").run w.handler m₀).2
    let m₂ := ((record "/work" "x/..//b.rs" "old" "new").run w.handler m₁).2
    let m := ((restore "/work" "/../work/b.rs" true).run w.handler m₂).2
    Path.isAbsolute "/work" = true ∧ Kept "/work" (w.contents m).blob ∧
      (∃ listed, (paths.run w.handler m).1 = .ok listed ∧
        (listed.Pairwise fun a b => Text.lt a b = true) ∧
        Text.ofString "/work/a.rs" ∈ listed ∧ Text.ofString "/work/b.rs" ∉ listed) ∧
      ((find "/work" "a.rs").run w.handler m).1 = .ok (some (.take "/work/a.rs" "old" "new")) ∧
      (find "/work" "a.rs").run w.handler m = (find "/work" "/work//a.rs").run w.handler m ∧
      ((find "/work" "b.rs").run w.handler m).1 = .ok none := by
  intro w m₀ m₁ m₂ m
  have hcwd : Path.isAbsolute "/work" = true := by decide +kernel
  have hpack₁ : Packable (Path.absolute "/work" "./a.rs") "old" :=
    Snapshot.packable_of_length_lt (by decide +kernel) (by decide +kernel)
  have hpack₂ : Packable (Path.absolute "/work" "x/..//b.rs") "old" :=
    Snapshot.packable_of_length_lt (by decide +kernel) (by decide +kernel)
  have hkept : Kept "/work" (w.contents m).blob :=
    .restored w m₂ _ true (.recorded w m₁ _ _ _ hpack₂ (.recorded w m₀ _ _ _ hpack₁ .empty))
  have hkeyed := Kept.keyed hcwd w m hkept
  have hpaths : (paths.events w.handler m).all (!·.failed) = true := by decide +kernel
  obtain ⟨listed, hrun, hincreasing, hmem⟩ := hkeyed.2.1 Memory.listsOnce (by simpa using hpaths)
  have hfind : ∀ path ∈ ["/work/a.rs", "/work/b.rs"].map Text.ofString,
      ((find "/work" path).events w.handler m).all (!·.failed) = true := by
    decide +kernel
  have hfound : ((find "/work" "/work/a.rs").run w.handler m).1 =
      .ok (some (.take "/work/a.rs" "old" "new")) := by
    decide +kernel
  have hgone : ((find "/work" "/work/b.rs").run w.handler m).1 = .ok none := by decide +kernel
  refine ⟨hcwd, hkept, ⟨listed, hrun, hincreasing, ?_, ?_⟩, by decide +kernel,
    hkeyed.2.2.1 _ _ (by decide +kernel), by decide +kernel⟩
  · have hevents := hfind _ (.head _)
    exact (hmem _ (by simpa using hevents)).2 ⟨by decide +kernel, _, hfound⟩
  · have hevents := hfind _ (.tail _ (.head _))
    intro hlisted
    obtain ⟨-, snapshot, hsome⟩ := (hmem _ (by simpa using hevents)).1 hlisted
    rw [hgone] at hsome
    cases hsome

end Vault

end Reroute
