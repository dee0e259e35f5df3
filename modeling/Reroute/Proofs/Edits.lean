import Reroute.Proofs.Undo

/-!
# Edits between patches

A snapshot notes the fingerprint of the text that was last put into the file, and restoring the file
without force compares this one with what the file holds. So an edit is noticed as long as it is the
last thing that happened to the file. Once a patch has stored the edited file, the fingerprint is
that of the patched edit, while the pristine text is still the one from before the first patch: the
file counts as unedited, and restoring it takes back the edit together with the patches.

## Main definitions

* `History` — patches of one file and edits of it by others
* `Contents.Noted` — the snapshot of a file has a pristine text and a fingerprint

## Main results

* `History.noted` — the snapshot notes a text that a patch has stored
* `Vault.restore_of_noted` — restoring a file is decided by the fingerprint in its snapshot
* `Vault.restore_of_edit` — restoring a file after an edit
-/

namespace Reroute

open Snapshot (ofPristine Packable)

open Vault (keyOf renewal?)

section Format

variable [Snapshot.Format]

/-- What happens to a file: patches by any profiles and in any modes, none of which had an error. In
between others do what they like elsewhere, and with `edits` to the file itself too. Nobody else
touches its snapshot. -/
inductive History {σ : Type} (w : Workspace σ) (cwd path : Text) (edits : Bool) (s : σ) :
    List WorkEvent → σ → Prop
  | start : History w cwd path edits s [] s
  | patch {events : List WorkEvent} {s' : σ} (hrun : History w cwd path edits s events s')
    (p : Profile) (m : Mode)
    (herror : ((p.patchFile cwd m path).run w.handler s').1.error? = none) :
    History w cwd path edits s (events ++ (p.patchFile cwd m path).events w.handler s')
      ((p.patchFile cwd m path).run w.handler s').2
  | between {events : List WorkEvent} {s' s'' : σ} (hrun : History w cwd path edits s events s')
    (hfile : edits = false → (w.contents s'').file path = (w.contents s').file path)
    (hblob : (w.contents s'').blob (keyOf (Path.absolute cwd path)) =
      (w.contents s').blob (keyOf (Path.absolute cwd path))) :
    History w cwd path edits s events s''

/-- The text that an event has put into the file. -/
def WorkEvent.stored? (path : Text) : WorkEvent → Option Text
  | ⟨.store target text, .ok ()⟩ => if target = path then some text else none
  | _ => none

/-- The texts that were put into the file. -/
def storedTexts (path : Text) (events : List WorkEvent) : List Text :=
  events.filterMap (WorkEvent.stored? path)

omit [Snapshot.Format] in
theorem storedTexts_append (path : Text) (events later : List WorkEvent) :
    storedTexts path (events ++ later) = storedTexts path events ++ storedTexts path later :=
  List.filterMap_append

omit [Snapshot.Format] in
theorem mem_storedTexts {path text : Text} {events : List WorkEvent}
    (h : ⟨.store path text, .ok ()⟩ ∈ events) : text ∈ storedTexts path events :=
  List.mem_filterMap.2 ⟨_, h, if_pos rfl⟩

/-! ### The fingerprint in the snapshot -/

namespace Contents

variable {p : Profile} {m : Mode} {cwd path pristine before after : Text} {f : Fingerprint}
  {c c' : Contents} {o : FileOutcome} {past : List WorkEvent}

/-- The snapshot of a file has a pristine text and a fingerprint. -/
def Noted (cwd path pristine : Text) (f : Fingerprint) (c : Contents) : Prop :=
  c.blob (keyOf (Path.absolute cwd path)) =
    some (ofPristine (Path.absolute cwd path) pristine f).encode

/-- A patch that takes a snapshot notes the text that it stores. -/
theorem noted_of_recorded (hrenewal : renewal? (Path.absolute cwd path) before after
      (c.blob (keyOf (Path.absolute cwd path))) =
        some (ofPristine (Path.absolute cwd path) pristine (.ofText after)))
    (hrecorded : Profile.Recorded cwd path before after c true c') :
    (c'.write path after).Noted cwd path pristine (.ofText after) := by
  cases hrecorded with
  | kept hs =>
    cases hrenewal.symm.trans hs
    simp [Noted, ofPristine]

/-- The patch that takes the first snapshot of a file notes the text that it stores. -/
theorem exists_noted_of_created (hfile : c.file path = some pristine)
    (hnone : c.blob (keyOf (Path.absolute cwd path)) = none)
    (hcreated : c'.blob (keyOf (Path.absolute cwd path)) ≠ none)
    (hpatched : p.Patched cwd path m c o past c') (herror : o.error? = none) :
    ∃ text ∈ storedTexts path past, c'.Noted cwd path pristine (.ofText text) := by
  rcases hpatched.blob_eq_or_recorded herror with
    hsame | ⟨before, after, c₁, hbefore, hstored, hrecorded, rfl⟩
  · rw [hsame] at hcreated
    exact absurd hnone hcreated
  · obtain rfl : before = pristine := Option.some.inj (hbefore.symm.trans hfile)
    refine ⟨after, mem_storedTexts hstored, noted_of_recorded ?_ hrecorded⟩
    rw [hnone, renewal?, Snapshot.take_eq]

/-- A later patch leaves the fingerprint as it is, or it notes the text that it stores. -/
theorem Noted.patched (h : c.Noted cwd path pristine f)
    (hpack : Packable (Path.absolute cwd path) pristine)
    (hpatched : p.Patched cwd path m c o past c') (herror : o.error? = none) :
    c'.Noted cwd path pristine f ∨
      ∃ text ∈ storedTexts path past, c'.Noted cwd path pristine (.ofText text) := by
  rcases hpatched.blob_eq_or_recorded herror with
    hsame | ⟨before, after, c₁, _, hstored, hrecorded, rfl⟩
  · exact .inl (by rwa [Noted, hsame])
  · refine .inr ⟨after, mem_storedTexts hstored, noted_of_recorded ?_ hrecorded⟩
    rw [h]
    exact Vault.renewal?_ofPristine hpack _ _ _

/-- The next patch keeps the pristine text in the snapshot. -/
theorem Noted.traced {text : Text} (h : c.Noted cwd path pristine f)
    (hfile : c.file path = some text) (hpack : Packable (Path.absolute cwd path) pristine) :
    c.Traced cwd path pristine := by
  refine ⟨text, hfile, fun patched => ?_⟩
  rw [h]
  exact Vault.renewal?_ofPristine hpack _ _ _

end Contents

namespace History

variable {σ : Type} {w : Workspace σ} {cwd path pristine : Text} {edits : Bool} {s s' : σ}
  {events : List WorkEvent} {f : Fingerprint}

/-- However the file was patched and edited, its snapshot has the pristine text, and the fingerprint
that it had before or that of a text which a patch has stored since. -/
theorem noted (hrun : History w cwd path edits s events s')
    (hpack : Packable (Path.absolute cwd path) pristine)
    (hstart : (w.contents s).Noted cwd path pristine f) :
    (w.contents s').Noted cwd path pristine f ∨
      ∃ text ∈ storedTexts path events,
        (w.contents s').Noted cwd path pristine (.ofText text) := by
  induction hrun with
  | start => exact .inl hstart
  | @patch events s' _ p m herror ih =>
    have hpatched := p.patched_patchFile w cwd path m s'
    rw [storedTexts_append]
    rcases ih with hf | ⟨text, hstored, htext⟩
    · refine (hf.patched hpack hpatched herror).imp_right ?_
      rintro ⟨text, hstored, hnoted⟩
      exact ⟨text, List.mem_append_right _ hstored, hnoted⟩
    · rcases htext.patched hpack hpatched herror with hsame | ⟨text', hstored', hnoted⟩
      · exact .inr ⟨text, List.mem_append_left _ hstored, hsame⟩
      · exact .inr ⟨text', List.mem_append_right _ hstored', hnoted⟩
  | between _ _ hblob ih =>
    simp only [Contents.Noted, hblob] at ih ⊢
    exact ih

/-- Patches that store nothing leave the file and its snapshot alone. -/
theorem eq_of_quiet (hrun : History w cwd path false s events s')
    (hquiet : ∀ event ∈ events, event.stores path = false) :
    (w.contents s').file path = (w.contents s).file path ∧
      (w.contents s').blob (keyOf (Path.absolute cwd path)) =
        (w.contents s).blob (keyOf (Path.absolute cwd path)) := by
  induction hrun with
  | start => exact ⟨rfl, rfl⟩
  | @patch events s' _ p m herror ih =>
    have hpatched := p.patched_patchFile w cwd path m s'
    have hbefore := ih fun event hmem => hquiet event (List.mem_append_left _ hmem)
    have hlate := fun event hmem => hquiet event (List.mem_append_right _ hmem)
    generalize (p.patchFile cwd m path).run w.handler s' = done at herror hpatched ⊢
    generalize (p.patchFile cwd m path).events w.handler s' = past at hlate hpatched
    generalize w.contents done.2 = c at hpatched ⊢
    cases hpatched with
    | failed hsome => cases herror.symm.trans hsome
    | unstored hsome => cases herror.symm.trans hsome
    | idle => exact hbefore
    | stored _ _ _ _ _ _ hstored =>
      have hnone := hlate _ hstored
      simp [WorkEvent.stores] at hnone
  | between _ hfile hblob ih =>
    obtain ⟨hfile', hblob'⟩ := ih hquiet
    exact ⟨(hfile rfl).trans hfile', hblob.trans hblob'⟩

end History

namespace Vault

variable {σ : Type} (w : Workspace σ) {cwd path pristine text : Text} {f : Fingerprint} {s : σ}

/-- If no operation fails, restoring a file without force puts the pristine text back exactly if the
file has the fingerprint that its snapshot notes. Otherwise the file counts as edited, and nothing
is touched. -/
theorem restore_of_noted (hpack : Packable (Path.absolute cwd path) pristine)
    (hnoted : (w.contents s).Noted cwd path pristine f)
    (hfile : (w.contents s).file path = some text)
    (hworks : ∀ event ∈ (restore cwd path false).events w.handler s, event.failed = false) :
    let done := (restore cwd path false).run w.handler s
    (Fingerprint.ofText text = f → done.1 = .ok () ∧
      w.contents done.2 =
        ((w.contents s).write path pristine).drop (keyOf (Path.absolute cwd path))) ∧
    (Fingerprint.ofText text ≠ f →
      done.1 = .error (.edited path (.ofText text) f) ∧ w.contents done.2 = w.contents s) := by
  intro done
  have hrestored := restored_restore w false hpack hnoted
  simp only [done]
  generalize (restore cwd path false).events w.handler s = past at hworks hrestored
  generalize (restore cwd path false).run w.handler s = result at hrestored ⊢
  obtain ⟨answer, final⟩ := result
  generalize w.contents final = c at hrestored ⊢
  cases hrestored with
  | failed hfailed =>
    obtain ⟨event, hmem, hevent⟩ := hfailed
    simp [hworks event hmem] at hevent
  | @edited found _ _ hfound hne =>
    obtain rfl : text = found := Option.some.inj (hfile.symm.trans hfound)
    exact ⟨fun hsame => absurd hsame hne, fun _ => ⟨rfl, rfl⟩⟩
  | kept hfailed =>
    obtain ⟨event, hmem, hevent⟩ := hfailed
    simp [hworks event hmem] at hevent
  | done hsame =>
    obtain ⟨found, hfound, hf⟩ := hsame rfl
    obtain rfl : text = found := Option.some.inj (hfile.symm.trans hfound)
    exact ⟨fun _ => ⟨rfl, rfl⟩, fun hne => absurd hf hne⟩

end Vault

/-- A patch takes the snapshot of a file, and then the file is patched and edited in any order. Some
edit puts a text there whose fingerprint no stored text had, and no other edit follows, only
patches. If none of them stores the file, restoring it without force is refused and leaves
everything as it is. If one of them does, and all of them take snapshots, restoring the file
succeeds and puts back the text from before the first patch. -/
theorem Vault.restore_of_edit {σ : Type} (w : Workspace σ) {cwd path pristine edited : Text}
    {p : Profile} {m : Mode} {s s₁ s₂ s₃ : σ} {events later : List WorkEvent}
    (hfile : (w.contents s).file path = some pristine)
    (hnone : (w.contents s).blob (keyOf (Path.absolute cwd path)) = none)
    (hpack : Packable (Path.absolute cwd path) pristine)
    (herror : ((p.patchFile cwd m path).run w.handler s).1.error? = none)
    (hcreated : (w.contents ((p.patchFile cwd m path).run w.handler s).2).blob
      (keyOf (Path.absolute cwd path)) ≠ none)
    (hhistory : History w cwd path true ((p.patchFile cwd m path).run w.handler s).2 events s₁)
    (hedit : (w.contents s₂).file path = some edited)
    (hblob : (w.contents s₂).blob (keyOf (Path.absolute cwd path)) =
      (w.contents s₁).blob (keyOf (Path.absolute cwd path)))
    (hfresh : ∀ text ∈ storedTexts path ((p.patchFile cwd m path).events w.handler s ++ events),
      Fingerprint.ofText edited ≠ .ofText text)
    (hpatches : History w cwd path false s₂ later s₃)
    (hworks : ∀ event ∈ (restore cwd path false).events w.handler s₃, event.failed = false) :
    let done := (restore cwd path false).run w.handler s₃
    ((∀ event ∈ later, event.stores path = false) →
      (∃ f, done.1 = .error (.edited path (.ofText edited) f)) ∧
        (w.contents s₃).file path = some edited ∧ w.contents done.2 = w.contents s₃) ∧
    (PatchRun w cwd path s₂ later s₃ → (∃ event ∈ later, event.stores path = true) →
      done.1 = .ok () ∧ (w.contents done.2).file path = some pristine) := by
  intro done
  have hfirst := Contents.exists_noted_of_created hfile hnone hcreated
    (p.patched_patchFile w cwd path m s) herror
  -- the fingerprint in the snapshot is that of a text stored before the edit
  obtain ⟨text, hstored, hnoted⟩ :
      ∃ text ∈ storedTexts path ((p.patchFile cwd m path).events w.handler s ++ events),
        (w.contents s₂).Noted cwd path pristine (.ofText text) := by
    obtain ⟨text, hstored, htext⟩ := hfirst
    simp only [Contents.Noted, hblob, storedTexts_append]
    rcases hhistory.noted hpack htext with hsame | ⟨text', hstored', hnoted⟩
    · exact ⟨text, List.mem_append_left _ hstored, hsame⟩
    · exact ⟨text', List.mem_append_right _ hstored', hnoted⟩
  constructor
  · intro hquiet
    obtain ⟨hfile₃, hblob₃⟩ := hpatches.eq_of_quiet hquiet
    have hnoted₃ : (w.contents s₃).Noted cwd path pristine (.ofText text) := hblob₃.trans hnoted
    have hedited := hfile₃.trans hedit
    obtain ⟨hrefused, hsame⟩ :=
      (restore_of_noted w hpack hnoted₃ hedited hworks).2 (hfresh text hstored)
    exact ⟨⟨_, hrefused⟩, hedited, hsame⟩
  · intro hrun hlate
    obtain ⟨current, hcurrent, hheld⟩ :=
      (hrun.traced_and_undoable hpack (hnoted.traced hedit hpack)).2 hlate
    obtain ⟨hok, hback⟩ := (restore_of_noted w hpack hheld hcurrent hworks).1 rfl
    refine ⟨hok, ?_⟩
    simp only [done, hback]
    simp

end Format

/-- A file is patched, edited and patched again by a profile that finds nothing left to do. The edit
is noticed: restoring the file without force is refused. -/
theorem Vault.restore_of_edit_refused :
    let p : Profile := { Profile.standard with
      helper := ⟨"log", "fn log", "\nfn log();"⟩, routes := [⟨"read_file", "read", "p", "\"s\""⟩] }
    let mode : Mode := ⟨false, false, false, true⟩
    let w := Memory.workspace
    let m₀ : Memory := ⟨Keyed.empty.insert "/a.rs" "use std::sync::Arc;", Keyed.empty, .none, 0⟩
    let m₁ := ((p.patchFile "/work" mode "/a.rs").run w.handler m₀).2
    let edited : Text := "use std::sync::Arc;\nfn log();mine"
    let m₂ : Memory := ⟨m₁.files.insert "/a.rs" edited, m₁.store, .none, 0⟩
    let m₃ := ((p.patchFile "/work" mode "/a.rs").run w.handler m₂).2
    let done := (restore "/work" "/a.rs" false).run w.handler m₃
    (∃ f, done.1 = .error (.edited "/a.rs" (.ofText edited) f)) ∧
      (w.contents m₃).file "/a.rs" = some edited ∧ w.contents done.2 = w.contents m₃ := by
  intro p mode w m₀ m₁ edited m₂ m₃
  have hp : ((p.patchFile "/work" mode "/a.rs").run w.handler m₀).1.error? = none := by
    decide +kernel
  have hq : ((p.patchFile "/work" mode "/a.rs").run w.handler m₂).1.error? = none := by
    decide +kernel
  have hcreated : (w.contents ((p.patchFile "/work" mode "/a.rs").run w.handler m₀).2).blob
      (keyOf (Path.absolute "/work" "/a.rs")) ≠ none := by
    decide +kernel
  have hfresh : ∀ text ∈ storedTexts "/a.rs"
      ((p.patchFile "/work" mode "/a.rs").events w.handler m₀ ++ []),
        Fingerprint.ofText edited ≠ .ofText text := by
    decide +kernel
  have hquiet : ([] ++ (p.patchFile "/work" mode "/a.rs").events w.handler m₂).all
      (!·.stores "/a.rs") = true := by
    decide +kernel
  have hworks : ((restore "/work" "/a.rs" false).events w.handler m₃).all (!·.failed) = true := by
    decide +kernel
  have hfile : (w.contents m₀).file "/a.rs" = some ("use std::sync::Arc;" : Text) := by
    decide +kernel
  have hblob : (w.contents m₀).blob (keyOf (Path.absolute "/work" "/a.rs")) = none := by
    decide +kernel
  have hedit : (w.contents m₂).file "/a.rs" = some edited := by
    decide +kernel
  have hpack : Packable (Path.absolute "/work" "/a.rs") "use std::sync::Arc;" :=
    Snapshot.packable_of_length_lt (by decide +kernel) (by decide +kernel)
  refine (restore_of_edit w hfile hblob hpack hp hcreated .start hedit rfl hfresh
    (.patch .start p mode hq) fun event hmem => ?_).1 fun event hmem => ?_
  · simpa using List.all_eq_true.1 hworks event hmem
  · simpa using List.all_eq_true.1 hquiet event hmem

/-- A file is patched, edited and patched again. Restoring it without force succeeds, and the edit
is lost: the fingerprint is that of the second patch, the text that of before the first. -/
theorem Vault.restore_loses_patched_edit :
    let p : Profile := { Profile.standard with
      helper := ⟨"log", "fn log", "\nfn log();"⟩, routes := [⟨"read_file", "read", "p", "\"s\""⟩] }
    let mode : Mode := ⟨false, false, false, true⟩
    let m₀ : Memory := ⟨Keyed.empty.insert "/a.rs" "use std::sync::Arc;", Keyed.empty, .none, 0⟩
    let first := (p.patchFile "/work" mode "/a.rs").run Memory.perform m₀
    let edited : Text := "use std::sync::Arc;mine"
    let m₁ : Memory := ⟨first.2.files.insert "/a.rs" edited, first.2.store, .none, 1⟩
    let second := (p.patchFile "/work" mode "/a.rs").run Memory.perform m₁
    let restored := (restore "/work" "/a.rs" false).run Memory.perform second.2
    p.validate = .ok () ∧ m₀.contents.blob (keyOf "/a.rs") = none ∧
      first.1.error? = none ∧ first.2.contents.blob (keyOf "/a.rs") ≠ none ∧
      (∀ text ∈ storedTexts "/a.rs" ((p.patchFile "/work" mode "/a.rs").events Memory.perform m₀),
        Fingerprint.ofText edited ≠ .ofText text) ∧
      second.1.error? = none ∧ restored.1 = .ok () ∧
      restored.2.contents.file "/a.rs" = some ("use std::sync::Arc;" : Text) := by
  decide +kernel

end Reroute
