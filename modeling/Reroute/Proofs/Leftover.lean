import Reroute.Proofs.Patching

/-!
# What an attempt to patch leaves behind

The snapshot of a file is kept before the new text is stored, so that there is never a patched text
without it. If then the text cannot be stored, nobody takes the snapshot back: the vault holds the
fingerprint of a text that was never in the file, or the pristine text of a file that was never
patched. All other attempts that store nothing leave the workspace as it was.

## Main results

* `Profile.contents_eq_iff_of_not_stored` — when an attempt that stores nothing leaves no trace
* `Profile.restore_loses_edit_of_failStore` — what comes of a snapshot that is left behind
-/

namespace Reroute

open Vault (keyOf renewal?)

/-- Keeping a blob changes nothing exactly if it is there already. -/
theorem Contents.keep_eq_self_iff {c : Contents} {key blob : Text} :
    c.keep key blob = c ↔ c.blob key = some blob := by
  constructor
  · intro h
    have hblob := congrFun (congrArg Contents.blob h) key
    rwa [blob_keep, Function.update_self, eq_comm] at hblob
  · intro h
    rw [keep, ← h, Function.update_eq_self]

namespace Profile

section Format

variable [Snapshot.Format]

/-- A patch that has stored nothing leaves the workspace as it was, files and vault, unless the text
was refused when it should have been stored. Even then it does so exactly if the snapshot that was
kept for it is the one that was there before. -/
theorem contents_eq_iff_of_not_stored {σ : Type} (w : Workspace σ) (p : Profile) (cwd path : Text)
    (m : Mode) (s : σ) (hsnapshots : m.snapshots = true)
    (hquiet : ∀ event ∈ (p.patchFile cwd m path).events w.handler s, event.stores path = false) :
    let done := (p.patchFile cwd m path).run w.handler s
    let c := w.contents s
    w.contents done.2 = c ↔
      (∀ cause, done.1.error? ≠ some (.notStored path cause)) ∨
        ∃ before after r snapshot, c.file path = some before ∧
          (p.apply before).result = .ok (after, r) ∧
          renewal? (Path.absolute cwd path) before after
            (c.blob (keyOf (Path.absolute cwd path))) = some snapshot ∧
          c.blob (keyOf snapshot.path) = some snapshot.encode := by
  intro done c
  have hpatched := p.patched_patchFile w cwd path m s
  change p.Patched cwd path m c done.1 _ (w.contents done.2) at hpatched
  generalize (p.patchFile cwd m path).events w.handler s = past at hquiet hpatched
  generalize w.contents done.2 = c' at hpatched ⊢
  generalize done.1 = o at hpatched ⊢
  cases hpatched with
  | failed herror _ _ hearly =>
    refine iff_of_true rfl (.inl fun cause h => hearly cause ?_)
    exact Option.some.inj (herror.symm.trans h)
  | idle herror => exact iff_of_true rfl (.inl fun cause h => by cases herror.symm.trans h)
  | stored _ _ _ _ _ _ hstored =>
    have hnone := hquiet _ hstored
    simp [WorkEvent.stores] at hnone
  | @unstored _ r before after cause _ _ herror _ hfile happly hrecorded =>
    rw [hsnapshots] at hrecorded
    cases hrecorded with
    | @kept snapshot hs =>
      rw [Contents.keep_eq_self_iff]
      constructor
      · intro hsame
        exact .inr ⟨before, after, r, snapshot, hfile, happly, hs, hsame⟩
      · -- the text and what has become of it determine the snapshot
        rintro (hother | ⟨before', after', r', snapshot', hfile', happly', hs', hsame⟩)
        · exact absurd herror (hother cause)
        · obtain rfl : before = before' := Option.some.inj (hfile.symm.trans hfile')
          cases happly.symm.trans happly'
          cases hs.symm.trans hs'
          exact hsame

end Format

/-- A text is refused twice. The first attempt leaves a snapshot behind, and the second leaves
everything as it is. -/
theorem contents_eq_of_second_failStore :
    let p : Profile := { standard with
      helper := ⟨"log", "fn log", "\nfn log();"⟩, routes := [⟨"read_file", "read", "p", "\"s\""⟩] }
    let mode : Mode := ⟨false, false, false, true⟩
    let w := Memory.workspace
    let m₀ : Memory := ⟨Keyed.empty.insert "/a.rs" "use std::sync::Arc;", Keyed.empty,
      ⟨false, false, false, true, []⟩, 0⟩
    let m₁ := ((p.patchFile "/work" mode "/a.rs").run w.handler m₀).2
    (w.contents m₁).blob (keyOf "/a.rs") ≠ none ∧
      w.contents ((p.patchFile "/work" mode "/a.rs").run w.handler m₁).2 = w.contents m₁ := by
  intro p mode w m₀
  let before : Text := "use std::sync::Arc;"
  let after : Text := "use std::sync::Arc;\nfn log();"
  let r : Report := ⟨[], true, [⟨"read_file", .skipped, []⟩], .ofText before, .ofText after⟩
  let snapshot : Snapshot := .take "/a.rs" before after
  have hquiet : ((p.patchFile "/work" mode "/a.rs").events w.handler
      ((p.patchFile "/work" mode "/a.rs").run w.handler m₀).2).all
        (!·.stores "/a.rs") = true := by
    decide +kernel
  have hiff := contents_eq_iff_of_not_stored w p "/work" "/a.rs" mode
    ((p.patchFile "/work" mode "/a.rs").run w.handler m₀).2 rfl fun event hmem => by
      simpa using List.all_eq_true.1 hquiet event hmem
  refine ⟨by decide +kernel, hiff.2 (.inr ⟨before, after, r, snapshot, ?_⟩)⟩
  decide +kernel

/-- The text of a file is refused, somebody edits the file, and then it is patched. Restoring it
without force succeeds, but it puts back the text from before the edit: the snapshot is that of the
attempt that failed. -/
theorem restore_loses_edit_of_failStore :
    let p : Profile := { standard with
      helper := ⟨"log", "fn log", "\nfn log();"⟩, routes := [⟨"read_file", "read", "p", "\"s\""⟩] }
    let mode : Mode := ⟨false, false, false, true⟩
    let m : Memory := ⟨Keyed.empty.insert "/a.rs" "use std::sync::Arc;", Keyed.empty,
      ⟨false, false, false, true, []⟩, 0⟩
    let failed := (p.patchFile "/work" mode "/a.rs").run Memory.perform m
    let edited : Memory := ⟨failed.2.files.insert "/a.rs" "use std::sync::Arc;mine",
      failed.2.store, .none, 0⟩
    let patched := (p.patchFile "/work" mode "/a.rs").run Memory.perform edited
    let restored := (Vault.restore "/work" "/a.rs" false).run Memory.perform patched.2
    p.validate = .ok () ∧ failed.1.error? = some (.notStored "/a.rs" (.refused "store")) ∧
      failed.2.storeCount = 0 ∧ m.contents.blob (keyOf "/a.rs") = none ∧
      failed.2.contents.blob (keyOf "/a.rs") ≠ none ∧
      patched.1.error? = none ∧ restored.1 = .ok () ∧
      restored.2.contents.file "/a.rs" = some ("use std::sync::Arc;" : Text) := by
  decide +kernel

end Profile

end Reroute
