import Reroute.Proofs.Patching

/-!
# Undoing a run of patches

The snapshot of a file is taken by the first patch that stores it. Later patches renew it: they keep
its pristine text and note the fingerprint of what they put into the file. So however many patches
there were, restoring the file finds it as the last of them has left it, and puts back the text from
before the first.

## Main definitions

* `PatchRun` — patches of one file, one after the other
* `Contents.Traced` — the next patch keeps the pristine text in the snapshot
* `Contents.Undoable` — the file can be restored

## Main results

* `Contents.Traced.eq_or_undoable` — a patch that stores a traced file leaves it undoable
* `Vault.restore_of_patchRun` — restoring a file after a run of patches
-/

namespace Reroute

open Snapshot (ofPristine Packable)

open Vault (keyOf renewal?)

section Format

variable [Snapshot.Format]

/-- Patches of one file with snapshots, by profiles and in modes of their own, none of which had an
error. In between nobody touches the file and its snapshot. -/
inductive PatchRun {σ : Type} (w : Workspace σ) (cwd path : Text) (s : σ) :
    List WorkEvent → σ → Prop
  | start : PatchRun w cwd path s [] s
  | patch {events : List WorkEvent} {s' : σ} (hrun : PatchRun w cwd path s events s')
    (p : Profile) (m : Mode) (hsnapshots : m.snapshots = true)
    (herror : ((p.patchFile cwd m path).run w.handler s').1.error? = none) :
    PatchRun w cwd path s (events ++ (p.patchFile cwd m path).events w.handler s')
      ((p.patchFile cwd m path).run w.handler s').2
  | elsewhere {events : List WorkEvent} {s' s'' : σ} (hrun : PatchRun w cwd path s events s')
    (hfile : (w.contents s'').file path = (w.contents s').file path)
    (hblob : (w.contents s'').blob (keyOf (Path.absolute cwd path)) =
      (w.contents s').blob (keyOf (Path.absolute cwd path))) :
    PatchRun w cwd path s events s''

namespace Contents

variable {cwd path pristine : Text} {c c' : Contents}

/-- Whatever is put into the file next, recording it keeps the pristine text in the snapshot. -/
def Traced (cwd path pristine : Text) (c : Contents) : Prop :=
  ∃ current, c.file path = some current ∧ ∀ patched,
    renewal? (Path.absolute cwd path) current patched
        (c.blob (keyOf (Path.absolute cwd path))) =
      some (ofPristine (Path.absolute cwd path) pristine (.ofText patched))

/-- The snapshot has the pristine text and the fingerprint of what the file holds. -/
def Undoable (cwd path pristine : Text) (c : Contents) : Prop :=
  ∃ current, c.file path = some current ∧
    c.blob (keyOf (Path.absolute cwd path)) =
      some (ofPristine (Path.absolute cwd path) pristine (.ofText current)).encode

/-- A pristine file without a snapshot is traced: its first patch takes the snapshot. -/
theorem traced_of_pristine (hfile : c.file path = some pristine)
    (hblob : c.blob (keyOf (Path.absolute cwd path)) = none) : c.Traced cwd path pristine := by
  refine ⟨pristine, hfile, fun patched => ?_⟩
  rw [hblob, renewal?, Snapshot.take_eq]

theorem Undoable.traced (h : c.Undoable cwd path pristine)
    (hpack : Packable (Path.absolute cwd path) pristine) : c.Traced cwd path pristine := by
  obtain ⟨current, hfile, hblob⟩ := h
  refine ⟨current, hfile, fun patched => ?_⟩
  rw [hblob]
  exact Vault.renewal?_ofPristine hpack _ _ _

/-- A patch without an error leaves the contents as they are, or it has stored the file, which can
then be restored. -/
theorem Traced.eq_or_undoable {p : Profile} {m : Mode} {o : FileOutcome} {past : List WorkEvent}
    (h : c.Traced cwd path pristine) (hpatched : p.Patched cwd path m c o past c')
    (hsnapshots : m.snapshots = true) (herror : o.error? = none) :
    (c' = c ∧ ∀ event ∈ past, event.stores path = false) ∨ c'.Undoable cwd path pristine := by
  cases hpatched with
  | failed hsome => cases herror.symm.trans hsome
  | unstored hsome => cases herror.symm.trans hsome
  | idle _ _ _ hquiet => exact .inl ⟨rfl, hquiet⟩
  | @stored _ _ before after _ _ _ _ _ hfile _ _ _ hrecorded =>
    rw [hsnapshots] at hrecorded
    obtain ⟨current, hcurrent, hrenewal⟩ := h
    obtain rfl : before = current := Option.some.inj (hfile.symm.trans hcurrent)
    cases hrecorded with
    | kept hs =>
      cases (hrenewal after).symm.trans hs
      refine .inr ⟨after, by simp, ?_⟩
      simp [ofPristine]

end Contents

namespace PatchRun

variable {σ : Type} {w : Workspace σ} {cwd path pristine : Text} {s s' : σ}
  {events : List WorkEvent}

/-- All through a run the pristine text is at hand, and once the file was stored it can be
restored. -/
theorem traced_and_undoable (hrun : PatchRun w cwd path s events s')
    (hpack : Packable (Path.absolute cwd path) pristine)
    (hstart : (w.contents s).Traced cwd path pristine) :
    (w.contents s').Traced cwd path pristine ∧
      ((∃ event ∈ events, event.stores path = true) →
        (w.contents s').Undoable cwd path pristine) := by
  induction hrun with
  | start => exact ⟨hstart, by simp⟩
  | @patch _ s' _ p m hsnapshots herror ih =>
    have hpatched := p.patched_patchFile w cwd path m s'
    rcases ih.1.eq_or_undoable hpatched hsnapshots herror with ⟨hsame, hquiet⟩ | hundoable
    · rw [hsame]
      refine ⟨ih.1, fun ⟨event, hmem, hstores⟩ => ih.2 ⟨event, ?_, hstores⟩⟩
      -- the patch has stored nothing, so the event is from before
      refine (List.mem_append.1 hmem).resolve_right fun hnew => ?_
      simp [hquiet event hnew] at hstores
    · exact ⟨hundoable.traced hpack, fun _ => hundoable⟩
  | elsewhere _ hfile hblob ih =>
    simp only [Contents.Traced, Contents.Undoable, hfile, hblob] at ih ⊢
    exact ih

end PatchRun

/-- A file without a snapshot is patched, any number of times and by any profiles, and stored at
least once. If then no operation fails, restoring it succeeds without force: the text from before
the run is back, and there is no snapshot any more. -/
theorem Vault.restore_of_patchRun {σ : Type} (w : Workspace σ) {cwd path pristine : Text}
    {s s' : σ} {events : List WorkEvent} (hfile : (w.contents s).file path = some pristine)
    (hblob : (w.contents s).blob (keyOf (Path.absolute cwd path)) = none)
    (hpack : Packable (Path.absolute cwd path) pristine)
    (hrun : PatchRun w cwd path s events s')
    (hstored : ∃ event ∈ events, event.stores path = true)
    (hworks : ∀ event ∈ (restore cwd path false).events w.handler s', event.failed = false) :
    let done := (restore cwd path false).run w.handler s'
    done.1 = .ok () ∧ (w.contents done.2).file path = some pristine ∧
      (w.contents done.2).blob (keyOf (Path.absolute cwd path)) = none := by
  intro done
  have hstart := Contents.traced_of_pristine hfile hblob
  obtain ⟨current, hcurrent, hheld⟩ := (hrun.traced_and_undoable hpack hstart).2 hstored
  have hrestored := restored_restore w false hpack hheld
  simp only [done]
  -- of the run only its result, its events and the contents at its end matter
  generalize (restore cwd path false).events w.handler s' = past at hworks hrestored
  generalize (restore cwd path false).run w.handler s' = result at hrestored ⊢
  obtain ⟨answer, final⟩ := result
  generalize w.contents final = c at hrestored ⊢
  cases hrestored with
  | failed hfailed =>
    obtain ⟨event, hmem, hevent⟩ := hfailed
    simp [hworks event hmem] at hevent
  | edited _ htext hne =>
    cases htext.symm.trans hcurrent
    exact absurd rfl hne
  | kept hfailed =>
    obtain ⟨event, hmem, hevent⟩ := hfailed
    simp [hworks event hmem] at hevent
  | done _ => simp

end Format

/-- Two profiles with helpers of their own patch a file, and restoring it undoes both. -/
theorem Vault.restore_of_two_patches :
    let p : Profile := { Profile.standard with
      helper := ⟨"log", "fn log", "\nfn log();"⟩, routes := Profile.standard.routes.take 1 }
    let q : Profile := { p with helper := ⟨"note", "fn note", "\nfn note();"⟩ }
    let mode : Mode := ⟨false, false, false, true⟩
    let w := Memory.workspace
    let m₀ : Memory := ⟨Keyed.empty.insert "a.rs" "use std::sync::Arc;", Keyed.empty, .none, 0⟩
    let m₁ := ((p.patchFile "/work" mode "a.rs").run w.handler m₀).2
    let m₂ := ((q.patchFile "/work" mode "a.rs").run w.handler m₁).2
    let done := (restore "/work" "a.rs" false).run w.handler m₂
    done.1 = .ok () ∧ (w.contents done.2).file "a.rs" = some ("use std::sync::Arc;" : Text) ∧
      (w.contents done.2).blob (keyOf (Path.absolute "/work" "a.rs")) = none := by
  intro p q mode w m₀ m₁ m₂
  have hp : ((p.patchFile "/work" mode "a.rs").run w.handler m₀).1.error? = none := by
    decide +kernel
  have hq : ((q.patchFile "/work" mode "a.rs").run w.handler m₁).1.error? = none := by
    decide +kernel
  have hstored : (([] ++ (p.patchFile "/work" mode "a.rs").events w.handler m₀ ++
      (q.patchFile "/work" mode "a.rs").events w.handler m₁).any (·.stores "a.rs")) = true := by
    decide +kernel
  have hworks : ((restore "/work" "a.rs" false).events w.handler m₂).all (!·.failed) = true := by
    decide +kernel
  have hfile : (w.contents m₀).file "a.rs" = some ("use std::sync::Arc;" : Text) := by
    decide +kernel
  have hblob : (w.contents m₀).blob (keyOf (Path.absolute "/work" "a.rs")) = none := by
    decide +kernel
  have hpack : Packable (Path.absolute "/work" "a.rs") "use std::sync::Arc;" :=
    Snapshot.packable_of_length_lt (by decide +kernel) (by decide +kernel)
  have hrun : PatchRun w "/work" "a.rs" m₀ _ m₂ :=
    .patch (.patch .start p mode rfl hp) q mode rfl hq
  exact restore_of_patchRun w hfile hblob hpack hrun (List.any_eq_true.1 hstored) fun event hmem =>
    by simpa using List.all_eq_true.1 hworks event hmem

end Reroute
