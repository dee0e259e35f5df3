import Reroute.Proofs.Snapshot
import Reroute.Proofs.Workspace
import Reroute.Vault

/-!
# What the vault does

Recording a file keeps the snapshot of its text if there is none, and renews the one that is there;
restoring it stores the pristine text and drops the snapshot, in this order. Here each of the two is
followed through all answers that a workspace may give.

## Main definitions

* `Contents.snapshot?` — the snapshot of a path
* `Vault.renewal?` — the snapshot that recording a file keeps
* `Vault.Confirmed` — the look at a file before it is restored
* `Vault.Course` — how a restore goes, operation by operation
* `Vault.Restored` — what restoring a file with a snapshot may come to

## Main results

* `Vault.always_record` — recording a file
* `Vault.course_restore` — restoring a file
* `Vault.always_restore` — restoring a file that has a snapshot
-/

namespace Reroute

/-- The snapshot that the store has for an absolute path. -/
def Contents.snapshot? [Snapshot.Format] (c : Contents) (abs : Text) : Option Snapshot :=
  (c.blob (Vault.keyOf abs)).bind Snapshot.decode?

namespace Vault

open Job (Guard Goal)

open Snapshot (ofPristine Packable)

variable {G : Guard} {past : List WorkEvent} {c c' : Contents} {cwd abs path : Text}

/-- The key of a path determines the path. -/
theorem keyOf_injective : Function.Injective keyOf := fun _ _ h => List.append_cancel_left h

variable [Snapshot.Format]

/-! ### Finding and keeping snapshots -/

/-- What is found in the vault, by the blob that stands there. -/
def reading (path : Text) : Option Text → Except VaultError (Option Snapshot)
  | none => .ok none
  | some blob =>
    match Snapshot.decode? blob with
    | none => .error (.undecodable path)
    | some s => .ok (some s)

theorem always_find {Q : Goal (Except VaultError (Option Snapshot))} :
    (find cwd path).Always G Q past c ↔
      G past c (.fetch (keyOf (Path.absolute cwd path))) ∧
        (∀ e, Q (.error (.store e))
          (past ++ [⟨.fetch (keyOf (Path.absolute cwd path)), .error e⟩]) c) ∧
        Q (reading path (c.blob (keyOf (Path.absolute cwd path))))
          (past ++ [⟨.fetch (keyOf (Path.absolute cwd path)),
            .ok (c.blob (keyOf (Path.absolute cwd path)))⟩]) c := by
  rw [find, Job.always_bind, Job.always_fetch]
  refine and_congr_right fun _ => and_congr_right fun _ => ?_
  cases c.blob (keyOf (Path.absolute cwd path)) with
  | none => rfl
  | some blob =>
    simp only [reading]
    cases Snapshot.decode? blob with
    | none => rfl
    | some s => rfl

theorem always_keep {Q : Goal (Except VaultError Unit)} {s : Snapshot} :
    (keep s).Always G Q past c ↔
      G past c (.keep (keyOf s.path) s.encode) ∧
        (∀ e, Q (.error (.store e)) (past ++ [⟨.keep (keyOf s.path) s.encode, .error e⟩]) c) ∧
        Q (.ok ()) (past ++ [⟨.keep (keyOf s.path) s.encode, .ok ()⟩])
          (c.keep (keyOf s.path) s.encode) := by
  rw [keep, Job.always_bind, Job.always_keep]
  rfl

/-! ### Recording -/

/-- The snapshot that recording a file keeps, by the blob that the vault has for it. -/
def renewal? (path pristine patched : Text) : Option Text → Option Snapshot
  | none => some (.take path pristine patched)
  | some blob => (Snapshot.decode? blob).map fun s => { s with after := .ofText patched }

omit [Snapshot.Format] in
/-- The last of some events may be the one that hinders. -/
private theorem exists_hinders_append {e : WorkEvent} (h : e.hinders = true) :
    ∃ event ∈ past ++ [e], event.hinders = true :=
  ⟨e, List.mem_append_right _ (List.mem_singleton_self e), h⟩

/-- Recording a file keeps the renewed snapshot. Or else an operation fails or the snapshot that is
there cannot be read, and everything is left as it is. -/
theorem always_record {Q : Goal (Except VaultError Unit)} {pristine patched : Text}
    (hfetch : G past c (.fetch (keyOf (Path.absolute cwd path))))
    (hkeep : ∀ past' s, past ⊆ past' →
      renewal? (Path.absolute cwd path) pristine patched
        (c.blob (keyOf (Path.absolute cwd path))) = some s →
      G past' c (.keep (keyOf s.path) s.encode))
    (hfail : ∀ past' e, (∃ event ∈ past', event.hinders = true) ∨
      renewal? (Path.absolute cwd path) pristine patched
        (c.blob (keyOf (Path.absolute cwd path))) = none → Q (.error e) past' c)
    (hdone : ∀ past' s, past ⊆ past' →
      renewal? (Path.absolute cwd path) pristine patched
        (c.blob (keyOf (Path.absolute cwd path))) = some s →
      Q (.ok ()) past' (c.keep (keyOf s.path) s.encode)) :
    (record cwd path pristine patched).Always G Q past c := by
  have hkept : ∀ past' s, past ⊆ past' →
      renewal? (Path.absolute cwd path) pristine patched
        (c.blob (keyOf (Path.absolute cwd path))) = some s →
      (keep s).Always G Q past' c := by
    intro past' s hsub hs
    refine always_keep.2 ⟨hkeep past' s hsub hs, fun e => ?_, ?_⟩
    · exact hfail _ _ (.inl (exists_hinders_append rfl))
    · exact hdone _ s (List.subset_append_of_subset_left _ hsub) hs
  rw [record, Job.always_bind, always_find]
  refine ⟨hfetch, fun e => hfail _ _ (.inl (exists_hinders_append rfl)), ?_⟩
  cases hblob : c.blob (keyOf (Path.absolute cwd path)) with
  | none => exact hkept _ _ (List.subset_append_left _ _) (by rw [hblob]; rfl)
  | some blob =>
    simp only [reading]
    cases hs : Snapshot.decode? blob with
    | none =>
      refine hfail _ _ (.inr ?_)
      rw [hblob, renewal?, hs]
      rfl
    | some s =>
      refine hkept _ _ (List.subset_append_left _ _) ?_
      rw [hblob, renewal?, hs]
      rfl

/-- A snapshot that is there keeps its pristine text. -/
theorem renewal?_ofPristine {abs pristine : Text} (h : Packable abs pristine) (f : Fingerprint)
    (text patched : Text) :
    renewal? abs text patched (some (ofPristine abs pristine f).encode) =
      some (ofPristine abs pristine (.ofText patched)) := by
  rw [renewal?, h.blob_read]
  rfl

/-! ### The course of a restore -/

section Course

variable {force : Bool} {result : Except VaultError Unit} {looks : List WorkEvent}
  {snapshot : Snapshot}

/-- The look at a file before its text is replaced, with its events. A restore that is forced does
not look; any other one finds the text that the last patch has left. -/
inductive Confirmed (c : Contents) (path : Text) (after : Fingerprint) :
    Bool → List WorkEvent → Prop
  | forced : Confirmed c path after true []
  | loaded {text : Text} (hfile : c.file path = some text)
    (hsame : Fingerprint.ofText text = after) :
    Confirmed c path after false [⟨.load path, .ok text⟩]

/-- The store is asked for the snapshot of an absolute path, and answers. -/
def fetched (c : Contents) (abs : Text) : WorkEvent :=
  ⟨.fetch (keyOf abs), .ok (c.blob (keyOf abs))⟩

/-- How a restore goes: its result, all its events, and the contents that it leaves. -/
inductive Course (c : Contents) (abs path : Text) (force : Bool) : Goal (Except VaultError Unit)
  /-- The store cannot be asked for the snapshot. -/
  | unfetched (cause : StoreError) :
    Course c abs path force (.error (.store cause)) [⟨.fetch (keyOf abs), .error cause⟩] c
  | notRecorded (hblob : c.blob (keyOf abs) = none) :
    Course c abs path force (.error (.notRecorded path)) [fetched c abs] c
  | undecodable {blob : Text} (hblob : c.blob (keyOf abs) = some blob)
    (hdecode : Snapshot.decode? blob = none) :
    Course c abs path force (.error (.undecodable path)) [fetched c abs] c
  /-- The file cannot be looked at. -/
  | unloaded {snapshot : Snapshot} (hsnapshot : c.snapshot? abs = some snapshot)
    (hforce : force = false) (cause : SourceError) :
    Course c abs path force (.error (.source cause)) [fetched c abs, ⟨.load path, .error cause⟩] c
  /-- Somebody has edited the file since. -/
  | edited {snapshot : Snapshot} (hsnapshot : c.snapshot? abs = some snapshot)
    (hforce : force = false) {text : Text} (hfile : c.file path = some text)
    (hne : Fingerprint.ofText text ≠ snapshot.after) :
    Course c abs path force (.error (.edited path (.ofText text) snapshot.after))
      [fetched c abs, ⟨.load path, .ok text⟩] c
  | unpackable {snapshot : Snapshot} {looks : List WorkEvent}
    (hsnapshot : c.snapshot? abs = some snapshot)
    (hlooks : Confirmed c path snapshot.after force looks) (htext : snapshot.text? = none) :
    Course c abs path force (.error (.unpackable snapshot.path)) (fetched c abs :: looks) c
  /-- The text cannot be put back. -/
  | unstored {snapshot : Snapshot} {original : Text} {looks : List WorkEvent}
    (hsnapshot : c.snapshot? abs = some snapshot)
    (hlooks : Confirmed c path snapshot.after force looks)
    (htext : snapshot.text? = some original) (cause : SourceError) :
    Course c abs path force (.error (.source cause))
      (fetched c abs :: looks ++ [⟨.store path original, .error cause⟩]) c
  /-- The text is put back, but the snapshot cannot be dropped. -/
  | undropped {snapshot : Snapshot} {original : Text} {looks : List WorkEvent}
    (hsnapshot : c.snapshot? abs = some snapshot)
    (hlooks : Confirmed c path snapshot.after force looks)
    (htext : snapshot.text? = some original) (cause : StoreError) :
    Course c abs path force (.error (.store cause))
      (fetched c abs :: looks ++
        [⟨.store path original, .ok ()⟩, ⟨.drop (keyOf snapshot.path), .error cause⟩])
      (c.write path original)
  | done {snapshot : Snapshot} {original : Text} {looks : List WorkEvent}
    (hsnapshot : c.snapshot? abs = some snapshot)
    (hlooks : Confirmed c path snapshot.after force looks)
    (htext : snapshot.text? = some original) :
    Course c abs path force (.ok ())
      (fetched c abs :: looks ++
        [⟨.store path original, .ok ()⟩, ⟨.drop (keyOf snapshot.path), .ok ()⟩])
      ((c.write path original).drop (keyOf snapshot.path))

namespace Confirmed

variable {after : Fingerprint}

omit [Snapshot.Format] in
theorem failed_eq_false (h : Confirmed c path after force looks) :
    ∀ event ∈ looks, event.failed = false := by
  cases h with
  | forced => simp
  | loaded hfile hsame => simp [WorkEvent.failed]

omit [Snapshot.Format] in
theorem drop_not_mem (h : Confirmed c path after force looks) (key : Text)
    (answer : Except StoreError Unit) : ⟨.drop key, answer⟩ ∉ looks := by
  cases h with
  | forced => simp
  | loaded hfile hsame => simp

omit [Snapshot.Format] in
/-- Without force, the file has the text that the last patch has left. -/
theorem file_of_not_forced (h : Confirmed c path after force looks) (hforce : force = false) :
    ∃ text, c.file path = some text ∧ Fingerprint.ofText text = after := by
  cases h with
  | forced => cases hforce
  | loaded hfile hsame => exact ⟨_, hfile, hsame⟩

end Confirmed

omit [Snapshot.Format] in
/-- A file is confirmed by the text that it has. -/
theorem always_confirm {Q : Goal (Except VaultError Unit)} :
    (confirm path snapshot).Always G Q past c ↔
      G past c (.load path) ∧
        (∀ cause, Q (.error (.source cause)) (past ++ [⟨.load path, .error cause⟩]) c) ∧
        ∀ text, c.file path = some text →
          Q (if Fingerprint.ofText text = snapshot.after then .ok ()
              else .error (.edited path (.ofText text) snapshot.after))
            (past ++ [⟨.load path, .ok text⟩]) c := by
  rw [confirm, Job.always_bind, Job.always_load]
  rfl

/-- The text is stored before the snapshot is dropped. -/
theorem course_putBack (hsnapshot : c.snapshot? abs = some snapshot)
    (hlooks : Confirmed c path snapshot.after force looks)
    (hstore : ∀ past' text, snapshot.text? = some text → G past' c (.store path text))
    (hdrop : ∀ past' text, snapshot.text? = some text → ⟨.store path text, .ok ()⟩ ∈ past' →
      G past' (c.write path text) (.drop (keyOf snapshot.path))) :
    (putBack path snapshot).Always G (Course c abs path force) (fetched c abs :: looks) c := by
  rw [putBack]
  cases htext : snapshot.text? with
  | none => exact .unpackable hsnapshot hlooks htext
  | some original =>
    rw [Job.always_bind, Job.always_store]
    refine ⟨hstore _ original htext, fun cause => .unstored hsnapshot hlooks htext cause, ?_⟩
    simp only
    rw [Job.always_bind, Job.always_drop]
    refine ⟨hdrop _ original htext (by simp), ?_⟩
    simp only [List.append_assoc]
    exact ⟨fun cause => .undropped hsnapshot hlooks htext cause, .done hsnapshot hlooks htext⟩

/-- Every restore takes such a course, whatever answers come. -/
theorem course_restore
    (hfetch : G [] c (.fetch (keyOf (Path.absolute cwd path))))
    (hload : ∀ past', G past' c (.load path))
    (hstore : ∀ past' snapshot text, c.snapshot? (Path.absolute cwd path) = some snapshot →
      snapshot.text? = some text → G past' c (.store path text))
    (hdrop : ∀ past' snapshot text, c.snapshot? (Path.absolute cwd path) = some snapshot →
      snapshot.text? = some text → ⟨.store path text, .ok ()⟩ ∈ past' →
      G past' (c.write path text) (.drop (keyOf snapshot.path))) :
    (restore cwd path force).Always G (Course c (Path.absolute cwd path) path force) [] c := by
  rw [restore, Job.always_bind, always_find]
  refine ⟨hfetch, fun cause => .unfetched cause, ?_⟩
  change Job.Always _ _ _ [fetched c (Path.absolute cwd path)] c
  cases hblob : c.blob (keyOf (Path.absolute cwd path)) with
  | none => exact .notRecorded hblob
  | some blob =>
    cases hdecode : Snapshot.decode? blob with
    | none =>
      simp only [reading, hdecode]
      exact .undecodable hblob hdecode
    | some snapshot =>
      have hsnapshot : c.snapshot? (Path.absolute cwd path) = some snapshot := by
        rw [Contents.snapshot?, hblob, Option.bind_some, hdecode]
      have hputBack : ∀ looks, Confirmed c path snapshot.after force looks →
          (putBack path snapshot).Always G (Course c (Path.absolute cwd path) path force)
            (fetched c (Path.absolute cwd path) :: looks) c := fun looks hlooks =>
        course_putBack hsnapshot hlooks (fun past' text => hstore past' snapshot text hsnapshot)
          fun past' text => hdrop past' snapshot text hsnapshot
      simp only [reading, hdecode]
      -- force leaves out the look at the file
      cases force with
      | true => exact hputBack [] .forced
      | false =>
        rw [if_neg Bool.false_ne_true, Job.always_bind, always_confirm]
        refine ⟨hload _, fun cause => .unloaded hsnapshot rfl cause, fun text hfile => ?_⟩
        by_cases hsame : Fingerprint.ofText text = snapshot.after
        · rw [if_pos hsame]
          exact hputBack _ (.loaded hfile hsame)
        · rw [if_neg hsame]
          exact .edited hsnapshot rfl hfile hsame

end Course

/-! ### Restoring -/

/-- What restoring a file comes to when the vault has a snapshot with the text `pristine`, after
which the text with the fingerprint `f` was put into the file. -/
inductive Restored (c : Contents) (abs path pristine : Text) (f : Fingerprint) (force : Bool) :
    Goal (Except VaultError Unit)
  /-- An operation failed before the text was put back. -/
  | failed {e : VaultError} {past : List WorkEvent} (hfailed : ∃ event ∈ past, event.failed) :
    Restored c abs path pristine f force (.error e) past c
  /-- Somebody has edited the file since. -/
  | edited {text : Text} {past : List WorkEvent} (hforce : force = false)
    (hfile : c.file path = some text) (hne : Fingerprint.ofText text ≠ f) :
    Restored c abs path pristine f force (.error (.edited path (.ofText text) f)) past c
  /-- The text was put back, but the snapshot could not be dropped. -/
  | kept {e : VaultError} {past : List WorkEvent} (hfailed : ∃ event ∈ past, event.failed) :
    Restored c abs path pristine f force (.error e) past (c.write path pristine)
  | done {past : List WorkEvent}
    (hfile : force = false → ∃ text, c.file path = some text ∧ Fingerprint.ofText text = f) :
    Restored c abs path pristine f force (.ok ()) past
      ((c.write path pristine).drop (keyOf abs))

/-- A file without a snapshot is not restored. -/
theorem always_restore_of_none {Q : Goal (Except VaultError Unit)} {force : Bool}
    (hblob : c.blob (keyOf (Path.absolute cwd path)) = none)
    (hfetch : G past c (.fetch (keyOf (Path.absolute cwd path))))
    (hfail : ∀ e past', Q (.error e) past' c) :
    (restore cwd path force).Always G Q past c := by
  rw [restore, Job.always_bind, always_find, hblob]
  exact ⟨hfetch, fun e => hfail _ _, hfail _ _⟩

section Restore

variable {pristine : Text} {f : Fingerprint} {force : Bool} {result : Except VaultError Unit}

theorem snapshot?_of_packable (hpack : Packable abs pristine)
    (hblob : c.blob (keyOf abs) = some (ofPristine abs pristine f).encode) :
    c.snapshot? abs = some (ofPristine abs pristine f) := by
  rw [Contents.snapshot?, hblob, Option.bind_some, hpack.blob_read]

/-- The course of a restore, when it is known what is in the vault. -/
theorem Course.restored {tail : List WorkEvent} (h : Course c abs path force result tail c')
    (hpack : Packable abs pristine)
    (hblob : c.blob (keyOf abs) = some (ofPristine abs pristine f).encode) :
    Restored c abs path pristine f force result (past ++ tail) c' := by
  have hsnapshot := snapshot?_of_packable hpack hblob
  have htext : (ofPristine abs pristine f).text? = some pristine := hpack.frame_read
  cases h with
  | unfetched cause => exact .failed ⟨⟨.fetch (keyOf abs), .error cause⟩, by simp, rfl⟩
  | notRecorded hnone => simp [hblob] at hnone
  | undecodable hblob' hdecode =>
    rw [hblob] at hblob'
    cases hblob'
    simp [hpack.blob_read] at hdecode
  | unloaded _ _ cause => exact .failed ⟨⟨.load path, .error cause⟩, by simp, rfl⟩
  | edited hsnapshot' hforce hfile hne =>
    cases hsnapshot.symm.trans hsnapshot'
    exact .edited hforce hfile hne
  | unpackable hsnapshot' _ hnone =>
    cases hsnapshot.symm.trans hsnapshot'
    simp [htext] at hnone
  | @unstored _ original _ _ _ _ cause =>
    exact .failed ⟨⟨.store path original, .error cause⟩, by simp, rfl⟩
  | undropped hsnapshot' _ htext' cause =>
    cases hsnapshot.symm.trans hsnapshot'
    cases htext.symm.trans htext'
    exact .kept ⟨⟨.drop (keyOf abs), .error cause⟩, by simp [ofPristine], rfl⟩
  | done hsnapshot' hlooks htext' =>
    cases hsnapshot.symm.trans hsnapshot'
    cases htext.symm.trans htext'
    exact .done hlooks.file_of_not_forced

/-- Restoring a file that has a snapshot. -/
theorem always_restore (hpack : Packable (Path.absolute cwd path) pristine)
    (hblob : c.blob (keyOf (Path.absolute cwd path)) =
      some (ofPristine (Path.absolute cwd path) pristine f).encode)
    (hfetch : G past c (.fetch (keyOf (Path.absolute cwd path))))
    (hload : ∀ past', G past' c (.load path))
    (hstore : ∀ past', G past' c (.store path pristine))
    (hdrop : ∀ past', ⟨.store path pristine, .ok ()⟩ ∈ past' →
      G past' (c.write path pristine) (.drop (keyOf (Path.absolute cwd path)))) :
    (restore cwd path force).Always G
      (Restored c (Path.absolute cwd path) path pristine f force) past c := by
  have hsnapshot := snapshot?_of_packable hpack hblob
  have hcourse : (restore cwd path force).Always (fun tail => G (past ++ tail))
      (Course c (Path.absolute cwd path) path force) [] c := by
    refine course_restore (by simpa using hfetch) (fun _ => hload _) ?_ ?_
    · intro tail snapshot text hsnapshot' htext
      cases hsnapshot.symm.trans hsnapshot'
      cases hpack.frame_read.symm.trans htext
      exact hstore _
    · intro tail snapshot text hsnapshot' htext hstored
      cases hsnapshot.symm.trans hsnapshot'
      cases hpack.frame_read.symm.trans htext
      exact hdrop _ (List.mem_append_right past hstored)
  have halways := hcourse.after
  rw [List.append_nil] at halways
  refine halways.imp ?_
  rintro result _ c' ⟨tail, rfl, h⟩
  exact h.restored hpack hblob

/-- What restoring a file in a workspace comes to. -/
theorem restored_restore {σ : Type} (w : Workspace σ) {s : σ} (force : Bool)
    (hpack : Packable (Path.absolute cwd path) pristine)
    (hblob : (w.contents s).blob (keyOf (Path.absolute cwd path)) =
      some (ofPristine (Path.absolute cwd path) pristine f).encode) :
    Restored (w.contents s) (Path.absolute cwd path) path pristine f force
      ((restore cwd path force).run w.handler s).1
      ((restore cwd path force).events w.handler s)
      (w.contents ((restore cwd path force).run w.handler s).2) := by
  have halways : (restore cwd path force).Always (fun _ _ _ => True)
      (Restored (w.contents s) (Path.absolute cwd path) path pristine f force) [] (w.contents s) :=
    always_restore hpack hblob trivial (fun _ => trivial) (fun _ => trivial) fun _ _ => trivial
  exact halways.run w

end Restore

/-! ### The files that are touched -/

theorem only_find (paths : Set Text) (cwd path : Text) :
    (find cwd path).Only (WorkOp.FilesIn paths) fun _ => True := by
  refine (Job.only_perform trivial).bind ?_
  rintro (e | _ | blob) -
  · trivial
  · trivial
  · simp only
    cases Snapshot.decode? blob <;> trivial

/-- A snapshot is taken without a look at any file. -/
theorem only_record (paths : Set Text) (cwd path before after : Text) :
    (record cwd path before after).Only (WorkOp.FilesIn paths) fun _ => True := by
  have hkeep : ∀ s : Snapshot, (keep s).Only (WorkOp.FilesIn paths) fun _ => True := by
    intro s
    refine (Job.only_perform trivial).bind ?_
    rintro (e | _) - <;> trivial
  refine (only_find paths cwd path).bind ?_
  rintro (e | _ | s) -
  · trivial
  · exact hkeep _
  · exact hkeep _

/-- Restoring a file keeps to the file. -/
theorem only_restore (cwd path : Text) (force : Bool) :
    (restore cwd path force).Only (WorkOp.FilesIn {path}) fun _ => True := by
  have hload : (WorkOp.load path).FilesIn {path} := rfl
  have hstore : ∀ text, (WorkOp.store path text).FilesIn {path} := fun _ => rfl
  have hputBack : ∀ s, (putBack path s).Only (WorkOp.FilesIn {path}) fun _ => True := by
    intro s
    rw [putBack]
    cases s.text? with
    | none => trivial
    | some text =>
      refine (Job.only_perform (hstore text)).bind ?_
      rintro (e | _) -
      · trivial
      · refine (Job.only_perform trivial).bind ?_
        rintro (e | _) - <;> trivial
  refine (only_find _ cwd path).bind ?_
  rintro (e | _ | s) -
  · trivial
  · trivial
  · simp only
    split
    · exact hputBack s
    · refine Job.Only.bind (Q := fun _ => True) ((Job.only_perform hload).bind ?_) ?_
      · rintro (e | text) - <;> trivial
      · rintro (e | _) -
        · trivial
        · exact hputBack s

end Vault

end Reroute
