import Reroute.Proofs.Vault

/-!
# Restoring is all or nothing

Restoring a file changes two things, one after the other: the text is put back, and then the
snapshot is dropped. It can stop at seven points, and all but the last come before the first change.
So a restore that fails has changed nothing, or it has put the text back and only the snapshot is
still there, and then it can be done again.

The snapshot is dropped under the path that it names. With snapshots that name the path they are
kept under this is the path of the file, and no other snapshot is lost.

## Main definitions

* `Contents.Labelled` — stores whose snapshots name the paths that they are kept under

## Main results

* `Vault.Course.eq_ok_iff` — when a restore succeeds
* `Vault.Course.error_cases` — what a restore that fails leaves behind
* `Vault.restore_all_or_nothing` — restoring a file with any failures
-/

namespace Reroute

open Vault (keyOf)

section Format

variable [Snapshot.Format]

/-- The snapshots name the paths that they are kept under. -/
def Contents.Labelled (c : Contents) : Prop :=
  ∀ abs snapshot, c.snapshot? abs = some snapshot → snapshot.path = abs

/-- The snapshots of a store in memory can be checked one by one. -/
theorem Memory.labelled_of_all {m : Memory}
    (h : (m.store.entries.all fun entry =>
      (Snapshot.decode? entry.2).all fun snapshot => entry.1 = keyOf snapshot.path) = true) :
    m.contents.Labelled := by
  intro abs snapshot hsnapshot
  obtain ⟨blob, hblob, hdecode⟩ := Option.bind_eq_some_iff.1 hsnapshot
  obtain ⟨entry, hentry, rfl⟩ := Option.map_eq_some_iff.1 hblob
  have hkey : entry.1 = keyOf abs := by simpa using List.find?_some hentry
  have hpath := List.all_eq_true.1 h entry (List.mem_of_find?_eq_some hentry)
  rw [hdecode] at hpath
  have hnamed : entry.1 = keyOf snapshot.path := by simpa using hpath
  exact Vault.keyOf_injective (hnamed.symm.trans hkey)

namespace Vault

variable {c c' : Contents} {abs path : Text} {force : Bool} {result : Except VaultError Unit}
  {past : List WorkEvent}

omit [Snapshot.Format] in
private theorem not_forall_succeed (last : WorkEvent) (hmem : last ∈ past)
    (hfailed : last.failed = true) : ¬ ∀ event ∈ past, event.failed = false := by
  intro h
  rw [h last hmem] at hfailed
  cases hfailed

omit [Snapshot.Format] in
/-- If all operations before it succeed, the last one is the only one that can have failed. -/
private theorem eq_last_of_failed {before : List WorkEvent} {event last : WorkEvent}
    (hbefore : ∀ event ∈ before, event.failed = false) (hmem : event ∈ before ++ [last])
    (hfailed : event.failed = true) : event = last := by
  rw [List.mem_append, List.mem_singleton] at hmem
  refine hmem.resolve_left fun hmem => ?_
  rw [hbefore event hmem] at hfailed
  cases hfailed

namespace Course

/-- A restore succeeds just if there is something to put back, nobody has edited the file, and no
operation fails. -/
theorem eq_ok_iff (h : Course c abs path force result past c') :
    result = .ok () ↔
      (∃ snapshot original, c.snapshot? abs = some snapshot ∧ snapshot.text? = some original ∧
        (force = false →
          ∃ text, c.file path = some text ∧ Fingerprint.ofText text = snapshot.after)) ∧
      ∀ event ∈ past, event.failed = false := by
  cases h with
  -- four times an operation fails, and then it is the last one
  | unfetched cause =>
    refine iff_of_false (by simp) fun h => ?_
    exact not_forall_succeed _ (List.mem_singleton_self _) rfl h.2
  | unloaded _ _ cause =>
    refine iff_of_false (by simp) fun h => ?_
    exact not_forall_succeed ⟨.load path, .error cause⟩ (by simp) rfl h.2
  | @unstored _ original _ _ _ _ cause =>
    refine iff_of_false (by simp) fun h => ?_
    exact not_forall_succeed ⟨.store path original, .error cause⟩ (by simp) rfl h.2
  | @undropped snapshot _ _ _ _ _ cause =>
    refine iff_of_false (by simp) fun h => ?_
    exact not_forall_succeed ⟨.drop (keyOf snapshot.path), .error cause⟩ (by simp) rfl h.2
  | notRecorded hblob =>
    refine iff_of_false (by simp) ?_
    rintro ⟨⟨snapshot, original, hsnapshot, -⟩, -⟩
    simp [Contents.snapshot?, hblob] at hsnapshot
  | undecodable hblob hdecode =>
    refine iff_of_false (by simp) ?_
    rintro ⟨⟨snapshot, original, hsnapshot, -⟩, -⟩
    simp [Contents.snapshot?, hblob, hdecode] at hsnapshot
  | edited hsnapshot hforce hfile hne =>
    refine iff_of_false (by simp) ?_
    rintro ⟨⟨snapshot', original, hsnapshot', -, hconfirmed⟩, -⟩
    obtain ⟨text', hfile', hsame⟩ := hconfirmed hforce
    cases hsnapshot.symm.trans hsnapshot'
    cases hfile.symm.trans hfile'
    exact hne hsame
  | unpackable hsnapshot hlooks htext =>
    refine iff_of_false (by simp) ?_
    rintro ⟨⟨snapshot', original, hsnapshot', htext', -⟩, -⟩
    cases hsnapshot.symm.trans hsnapshot'
    cases htext.symm.trans htext'
  | done hsnapshot hlooks htext =>
    refine iff_of_true rfl ⟨⟨_, _, hsnapshot, htext, hlooks.file_of_not_forced⟩, ?_⟩
    have hlooked := hlooks.failed_eq_false
    simpa [WorkEvent.failed, fetched, or_imp, forall_and] using hlooked

/-- A restore that succeeds has put the text of the snapshot back and has dropped the snapshot. -/
theorem restored_of_ok (h : Course c abs path force (.ok ()) past c') :
    ∃ snapshot original, c.snapshot? abs = some snapshot ∧ snapshot.text? = some original ∧
      c' = (c.write path original).drop (keyOf snapshot.path) ∧
      (force = false →
        ∃ text, c.file path = some text ∧ Fingerprint.ofText text = snapshot.after) := by
  cases h with
  | done hsnapshot hlooks htext =>
    exact ⟨_, _, hsnapshot, htext, rfl, hlooks.file_of_not_forced⟩

/-- A restore that fails has changed nothing, or its last operation was to drop the snapshot. -/
theorem error_cases {e : VaultError} (h : Course c abs path force (.error e) past c') :
    c' = c ∧ (∀ key cause, ⟨.drop key, .error cause⟩ ∉ past) ∨
      ∃ snapshot original cause, c.snapshot? abs = some snapshot ∧
        snapshot.text? = some original ∧ e = .store cause ∧ c' = c.write path original ∧
        ∃ before, past = before ++ [⟨.drop (keyOf snapshot.path), .error cause⟩] ∧
          ∀ event ∈ before, event.failed = false := by
  cases h with
  | unfetched | notRecorded | undecodable | unloaded | edited =>
    exact .inl ⟨rfl, fun key cause => by simp [fetched]⟩
  | unpackable _ hlooks | unstored _ hlooks =>
    refine .inl ⟨rfl, fun key cause => ?_⟩
    simp [fetched, hlooks.drop_not_mem key]
  | @undropped snapshot original looks hsnapshot hlooks htext cause =>
    refine .inr ⟨snapshot, original, cause, hsnapshot, htext, rfl, rfl,
      fetched c abs :: looks ++ [⟨.store path original, .ok ()⟩], by simp, ?_⟩
    have hlooked := hlooks.failed_eq_false
    simpa [WorkEvent.failed, fetched, or_imp, forall_and] using hlooked

end Course

/-- A restore that succeeds puts the recorded original back and drops the snapshot, and all other
files and blobs stay as they are; without force the file had the recorded fingerprint. A restore
that fails leaves the store as it is, and the files too, unless the last operation fails, which is
to drop the snapshot: then the original has been put back and nothing else has changed. -/
theorem restore_all_or_nothing {σ : Type} (w : Workspace σ) (s : σ) (cwd path : Text)
    (force : Bool) (hlabelled : (w.contents s).Labelled) :
    let abs := Path.absolute cwd path
    let c := w.contents s
    let events := (restore cwd path force).events w.handler s
    let result := ((restore cwd path force).run w.handler s).1
    let c' := w.contents ((restore cwd path force).run w.handler s).2
    (result = .ok () ↔
      (∃ snapshot original, c.snapshot? abs = some snapshot ∧ snapshot.text? = some original ∧
        (force = false →
          ∃ text, c.file path = some text ∧ Fingerprint.ofText text = snapshot.after)) ∧
      ∀ event ∈ events, event.failed = false) ∧
    (result = .ok () → ∃ snapshot original,
      c.snapshot? abs = some snapshot ∧ snapshot.text? = some original ∧
      c'.file path = some original ∧ c'.blob (keyOf abs) = none ∧
      (∀ other, other ≠ path → c'.file other = c.file other) ∧
      (∀ key, key ≠ keyOf abs → c'.blob key = c.blob key) ∧
      (force = false →
        ∃ text, c.file path = some text ∧ Fingerprint.ofText text = snapshot.after)) ∧
    (∀ e, result = .error e → c'.blob = c.blob ∧
      ((∀ key cause, ⟨.drop key, .error cause⟩ ∉ events) → c'.file = c.file) ∧
      ∀ key cause, ⟨.drop key, .error cause⟩ ∈ events →
        key = keyOf abs ∧ e = .store cause ∧
        (∃ before, events = before ++ [⟨.drop key, .error cause⟩] ∧
          ∀ event ∈ before, event.failed = false) ∧
        ∃ snapshot original, c.snapshot? abs = some snapshot ∧ snapshot.text? = some original ∧
          c'.file path = some original ∧ ∀ other, other ≠ path → c'.file other = c.file other) := by
  intro abs c events result c'
  have halways : (restore cwd path force).Always (fun _ _ _ => True) (Course c abs path force) []
      c :=
    course_restore trivial (fun _ => trivial) (fun _ _ _ _ _ => trivial) fun _ _ _ _ _ _ => trivial
  have hcourse : Course c abs path force result events c' := halways.run w
  refine ⟨hcourse.eq_ok_iff, fun hok => ?_, fun e herror => ?_⟩
  · rw [hok] at hcourse
    obtain ⟨snapshot, original, hsnapshot, htext, hc', hconfirmed⟩ := hcourse.restored_of_ok
    -- the snapshot is dropped under the path that it names
    rw [hlabelled abs snapshot hsnapshot] at hc'
    refine ⟨snapshot, original, hsnapshot, htext, ?_, ?_, ?_, ?_, hconfirmed⟩
    · simp [hc']
    · simp [hc']
    · intro other hother
      simp [hc', hother]
    · intro key hkey
      simp [hc', hkey]
  · rw [herror] at hcourse
    rcases hcourse.error_cases with ⟨hc', hnone⟩ |
      ⟨snapshot, original, cause, hsnapshot, htext, rfl, hc', before, hevents, hbefore⟩
    · refine ⟨by rw [hc'], fun _ => by rw [hc'], fun key cause hmem => ?_⟩
      exact absurd hmem (hnone key cause)
    · rw [hlabelled abs snapshot hsnapshot] at hevents
      refine ⟨by rw [hc', Contents.blob_write], fun hnone => ?_, fun key cause' hmem => ?_⟩
      · refine absurd ?_ (hnone (keyOf abs) cause)
        rw [hevents]
        exact List.mem_append_right _ (List.mem_singleton_self _)
      · rw [hevents] at hmem
        cases eq_last_of_failed hbefore hmem rfl
        refine ⟨rfl, rfl, ⟨before, hevents, hbefore⟩, snapshot, original, hsnapshot, htext, ?_, ?_⟩
        · simp [hc']
        · intro other hother
          simp [hc', hother]

end Vault

end Format

namespace Vault

/-- A store that drops nothing: the original is back, and both snapshots are still there. -/
theorem restore_all_or_nothing_undropped :
    let w := Memory.workspace
    let a := Snapshot.take "/w/a" "old" "new"
    let b := Snapshot.take "/w/b" "x" "y"
    let store := (Keyed.empty.insert (keyOf "/w/a") a.encode).insert (keyOf "/w/b") b.encode
    let files : Keyed Text Text := Keyed.empty.insert "a" "new"
    let m : Memory := ⟨files.insert "b" "y", store,
      ⟨false, false, false, false, ["delete"]⟩, 0⟩
    let c' := w.contents ((restore "/w" "a" false).run w.handler m).2
    (w.contents m).Labelled ∧
      ((restore "/w" "a" false).run w.handler m).1 = .error (.store (.refused "delete")) ∧
      c'.file "a" = some "old" ∧ c'.blob = (w.contents m).blob ∧
      ∀ other : Text, other ≠ "a" → c'.file other = (w.contents m).file other := by
  intro w a b store files m
  have hlabelled : (w.contents m).Labelled := Memory.labelled_of_all (by decide +kernel)
  have hresult : ((restore "/w" "a" false).run w.handler m).1 =
      .error (.store (.refused "delete")) := by
    decide +kernel
  have hold : (w.contents ((restore "/w" "a" false).run w.handler m).2).file "a" = some "old" := by
    decide +kernel
  have hnew : (w.contents m).file "a" = some "new" := by decide +kernel
  obtain ⟨-, -, herror⟩ := restore_all_or_nothing w m "/w" "a" false hlabelled
  obtain ⟨hblob, hsame, hdropped⟩ := herror _ hresult
  have hevent : ∃ key cause, ⟨.drop key, .error cause⟩ ∈
      (restore "/w" "a" false).events w.handler m := by
    by_contra hnone
    have hfile := congrFun (hsame fun key cause hmem => hnone ⟨key, cause, hmem⟩) "a"
    rw [hold, hnew] at hfile
    exact absurd hfile (by decide)
  obtain ⟨key, cause, hmem⟩ := hevent
  obtain ⟨-, -, -, snapshot, original, -, -, -, hothers⟩ := hdropped key cause hmem
  exact ⟨hlabelled, hresult, hold, hblob, hothers⟩

end Vault

end Reroute
