import Reroute.Proofs.Archive
import Reroute.Proofs.Restoring

/-!
# Restoring and the modes that store nothing

A configuration may ask for a dry run or for a check, and patching then stores nothing. Restoring
pays no attention to either: a session that restores files does the same to the disk in every mode.
What it leaves as it is depends on the files and snapshots alone, and on what fails.

Restoring takes back: a file gets no text but the one from its snapshot, and no snapshot is kept. So
nothing that one operation changes is put right by a later one, and files and snapshots are left as
they are exactly if every single operation leaves them. This holds of any store, also of one in
which a snapshot names another path than the one it was found under.

## Main definitions

* `Contents.due?` — what restoring a file puts back
* `Contents.TakesBack` — the operations that only take back
* `Vault.Tried` — what restoring a file comes to, with any store

## Main results

* `Job.Always.contents_eq_iff` — what takes back leaves the contents only step by step
* `Vault.contents_restoreEach_eq_iff` — when restoring many files changes nothing
* `Config.run_restore_modes` — the modes make no difference to a session that restores
* `Config.contents_restoreFiles_eq_iff` — when a session that restores changes nothing
-/

namespace Reroute

open Disk (perform)

open Job (Goal)

open Vault (keyOf)

variable {σ α : Type}

section Format

variable [Snapshot.Format]

namespace Contents

variable {c : Contents} {cwd path text : Text} {force : Bool}

/-- What restoring a file puts back: its snapshot, and the text that this gives back. Unless it is
forced, the file has to be as the last patch has left it. -/
def due? (c : Contents) (cwd path : Text) (force : Bool) : Option (Snapshot × Text) :=
  (c.blob (keyOf (Path.absolute cwd path))).bind fun blob =>
    (Snapshot.decode? blob).bind fun snapshot =>
      if force = true ∨ (c.file path).map Fingerprint.ofText = some snapshot.after then
        snapshot.text?.map (snapshot, ·)
      else none

/-- Restoring a file would change nothing: whatever is due is there already, and no snapshot is to
be dropped. -/
def Settled (c : Contents) (cwd path : Text) (force : Bool) : Prop :=
  ∀ snapshot text, c.due? cwd path force = some (snapshot, text) →
    c.file path = some text ∧ c.blob (keyOf snapshot.path) = none

/-- Operations that only take back: the text that is stored is the one from the snapshot of the
file, and no snapshot is kept. -/
def TakesBack (cwd : Text) (c : Contents) : WorkOp → Prop
  | .store path text => c.original? (Path.absolute cwd path) = some text
  | .keep _ _ => False
  | _ => True

theorem due?_of_none (h : c.blob (keyOf (Path.absolute cwd path)) = none) :
    c.due? cwd path force = none := by
  rw [due?, h, Option.bind_none]

theorem due?_of_snapshot? {snapshot : Snapshot}
    (h : c.snapshot? (Path.absolute cwd path) = some snapshot) :
    c.due? cwd path force =
      if force = true ∨ (c.file path).map Fingerprint.ofText = some snapshot.after then
        snapshot.text?.map (snapshot, ·)
      else none := by
  obtain ⟨blob, hblob, hdecode⟩ := Option.bind_eq_some_iff.1 h
  rw [due?, hblob, Option.bind_some, hdecode, Option.bind_some]

/-- Without a snapshot there is nothing to put back. -/
theorem settled_of_none (h : c.blob (keyOf (Path.absolute cwd path)) = none) :
    c.Settled cwd path force := by
  intro snapshot text hdue
  rw [due?_of_none h] at hdue
  cases hdue

omit [Snapshot.Format] in
theorem write_eq_self_iff : c.write path text = c ↔ c.file path = some text := by
  constructor
  · intro h
    rw [← h, file_write, Function.update_self]
  · intro h
    ext other
    · rw [file_write, ← h, Function.update_eq_self]
    · rfl

omit [Snapshot.Format] in
theorem drop_eq_self_iff {key : Text} : c.drop key = c ↔ c.blob key = none := by
  constructor
  · intro h
    rw [← h, blob_drop, Function.update_self]
  · intro h
    ext other
    · rfl
    · rw [blob_drop, ← h, Function.update_eq_self]

end Contents

open Contents

/-! ### Taking back -/

namespace WorkEvent

variable {c : Contents} {cwd path text : Text}

/-- What takes back leaves what is under a key, or nothing is there any more. -/
theorem blob_effect (event : WorkEvent) (h : c.TakesBack cwd event.1) (key : Text) :
    (event.effect c).blob key = c.blob key ∨ (event.effect c).blob key = none := by
  unfold effect
  split
  · exact .inl rfl
  · exact h.elim
  · rw [blob_drop, Function.update_apply]
    split
    · exact .inr rfl
    · exact .inl rfl
  · exact .inl rfl

/-- What takes back leaves the files, or it stores the text from the snapshot of a file. -/
theorem effect_cases (event : WorkEvent) (h : c.TakesBack cwd event.1) :
    (event.effect c).file = c.file ∨
      ∃ path text, c.original? (Path.absolute cwd path) = some text ∧
        event.effect c = c.write path text := by
  unfold effect
  split
  · exact .inr ⟨_, _, h, rfl⟩
  · exact h.elim
  · exact .inl rfl
  · exact .inl rfl

/-- What takes back leaves a file that has the text from its snapshot. -/
theorem file_effect (event : WorkEvent) (h : c.TakesBack cwd event.1)
    (htext : c.original? (Path.absolute cwd path) = some text) (hfile : c.file path = some text) :
    (event.effect c).file path = some text := by
  rcases event.effect_cases h with heq | ⟨target, stored, hstored, heq⟩
  · rwa [heq]
  · rw [heq, file_write, Function.update_apply]
    split
    · rename_i htarget
      rw [htarget] at htext
      exact hstored.symm.trans htext
    · exact hfile

/-- An operation does not fail, unless it is to load a file that is missing. -/
def Expected (c : Contents) (event : WorkEvent) : Prop :=
  event.failed = true → ∃ path e, event = ⟨.load path, .error e⟩ ∧ c.file path = none

end WorkEvent

namespace Job.Always

variable {w : Workspace σ} {s : σ} {j : WorkJob α} {cwd path text : Text} {Q : Goal α}
  {past : List WorkEvent}

/-- What takes back brings nothing into the store. -/
theorem blob_eq_none (h : j.Always (fun _ c => c.TakesBack cwd) Q past (w.contents s)) {key : Text}
    (hnone : (w.contents s).blob key = none) :
    (w.contents (j.run w.handler s).2).blob key = none := by
  induction j generalizing past s with
  | done a => exact hnone
  | ask op next ih =>
    refine ih _ (h.2 _ _ (w.may op s)) ?_
    rw [WorkEvent.eq_effect_of_may (w.may op s)]
    -- an operation that takes back leaves what is under the key or drops it
    rcases WorkEvent.blob_effect ⟨op, _⟩ h.1 key with heq | heq
    · exact heq.trans hnone
    · exact heq

/-- If the store is the same in the end, it is the same after the first operation. -/
theorem blob_handler {op : WorkOp} {next : op.Answer → WorkJob α}
    (h : Always (fun _ c => c.TakesBack cwd) Q (.ask (I := workInterface) op next) past
      (w.contents s))
    (hblob : (w.contents ((next (w.handler op s).1).run w.handler (w.handler op s).2).2).blob =
      (w.contents s).blob) :
    (w.contents (w.handler op s).2).blob = (w.contents s).blob := by
  funext key
  rcases WorkEvent.blob_effect ⟨op, (w.handler op s).1⟩ h.1 key with heq | hnone
  · rw [WorkEvent.eq_effect_of_may (w.may op s)]
    exact heq
  · rw [← WorkEvent.eq_effect_of_may (w.may op s)] at hnone
    -- what is gone stays gone, so it was not there in the first place
    have hlater := (h.2 _ _ (w.may op s)).blob_eq_none hnone
    rw [hnone, ← hblob]
    exact hlater.symm

/-- As long as the store is the same, a file that has the text from its snapshot keeps it. -/
theorem file_eq_of_blob_eq (h : j.Always (fun _ c => c.TakesBack cwd) Q past (w.contents s))
    (hblob : (w.contents (j.run w.handler s).2).blob = (w.contents s).blob)
    (htext : (w.contents s).original? (Path.absolute cwd path) = some text)
    (hfile : (w.contents s).file path = some text) :
    (w.contents (j.run w.handler s).2).file path = some text := by
  induction j generalizing past s with
  | done a => exact hfile
  | ask op next ih =>
    -- with the store the same, so is the text that the snapshot gives back
    have hstep := h.blob_handler hblob
    refine ih _ (h.2 _ _ (w.may op s)) (hblob.trans hstep.symm) ?_ ?_
    · rwa [original?, hstep]
    · rw [WorkEvent.eq_effect_of_may (w.may op s)]
      exact WorkEvent.file_effect ⟨op, _⟩ h.1 htext hfile

/-- If the contents are the same in the end, they are the same after the first operation. -/
theorem contents_handler {op : WorkOp} {next : op.Answer → WorkJob α}
    (h : Always (fun _ c => c.TakesBack cwd) Q (.ask (I := workInterface) op next) past
      (w.contents s))
    (hend : w.contents ((next (w.handler op s).1).run w.handler (w.handler op s).2).2 =
      w.contents s) :
    w.contents (w.handler op s).2 = w.contents s := by
  have heffect := WorkEvent.eq_effect_of_may (w.may op s)
  have hblob := h.blob_handler (congrArg Contents.blob hend)
  rcases WorkEvent.effect_cases ⟨op, (w.handler op s).1⟩ h.1 with
    hfile | ⟨path, text, htext, hwrite⟩
  · rw [← heffect] at hfile
    exact Contents.ext hfile hblob
  · -- the file keeps the text up to the end, so it had the text before
    rw [← heffect] at hwrite
    have hstored : (w.contents (w.handler op s).2).file path = some text := by
      rw [hwrite, file_write, Function.update_self]
    have hkept := (h.2 _ _ (w.may op s)).file_eq_of_blob_eq
      ((congrArg Contents.blob hend).trans hblob.symm) (by rwa [original?, hblob]) hstored
    rw [hend] at hkept
    exact hwrite.trans (write_eq_self_iff.2 hkept)

/-- What takes back leaves the contents in the end exactly if every operation leaves them. -/
theorem contents_eq_iff (h : j.Always (fun _ c => c.TakesBack cwd) Q past (w.contents s)) :
    w.contents (j.run w.handler s).2 = w.contents s ↔
      ∀ event ∈ j.events w.handler s, event.effect (w.contents s) = w.contents s := by
  induction j generalizing past s with
  | done a => exact iff_of_true rfl fun event hevent => by cases hevent
  | ask op next ih =>
    have heffect := WorkEvent.eq_effect_of_may (w.may op s)
    have hlater := h.2 _ _ (w.may op s)
    rw [Job.events, List.forall_mem_cons]
    constructor
    · intro hend
      have hsame := h.contents_handler hend
      refine ⟨heffect.symm.trans hsame, ?_⟩
      rw [← hsame] at hend ⊢
      exact (ih _ hlater).1 hend
    · rintro ⟨hsame, hrest⟩
      rw [← heffect] at hsame
      rw [← hsame] at hrest ⊢
      exact (ih _ hlater).2 hrest

end Job.Always

/-! ### Restoring one file -/

namespace Vault

variable {w : Workspace σ} {s : σ} {c c' : Contents} {cwd path : Text} {targets : List Text}
  {force : Bool} {past : List WorkEvent}

/-- What restoring a file comes to, whatever the store has for it. -/
inductive Tried (c : Contents) (cwd path : Text) (force : Bool) : Goal (Except VaultError Unit)
  /-- There is nothing to put back, or an operation failed before. -/
  | stopped {e : VaultError} {past : List WorkEvent}
    (hstopped : c.due? cwd path force = none ∨ ∃ event ∈ past, ¬ event.Expected c) :
    Tried c cwd path force (.error e) past c
  /-- The text was put back, but the snapshot could not be dropped. -/
  | kept {snapshot : Snapshot} {text : Text} {e : VaultError} {past : List WorkEvent}
    (hdue : c.due? cwd path force = some (snapshot, text))
    (hfailed : ∃ event ∈ past, ¬ event.Expected c) :
    Tried c cwd path force (.error e) past (c.write path text)
  /-- The snapshot is dropped under the path that it names. -/
  | done {snapshot : Snapshot} {text : Text} {past : List WorkEvent}
    (hdue : c.due? cwd path force = some (snapshot, text)) :
    Tried c cwd path force (.ok ()) past ((c.write path text).drop (keyOf snapshot.path))

omit [Snapshot.Format] in
private theorem not_expected {event : WorkEvent} (hfailed : event.failed = true)
    (hload : ∀ path e, event ≠ ⟨.load path, .error e⟩) : ¬ event.Expected c := by
  intro hexpected
  obtain ⟨path, e, heq, -⟩ := hexpected hfailed
  exact hload path e heq

/-- After the look at the file, the text of the snapshot is due. -/
theorem Confirmed.due?_eq {snapshot : Snapshot} {looks : List WorkEvent}
    (h : Confirmed c path snapshot.after force looks)
    (hsnapshot : c.snapshot? (Path.absolute cwd path) = some snapshot) :
    c.due? cwd path force = snapshot.text?.map (snapshot, ·) := by
  rw [due?_of_snapshot? hsnapshot, if_pos]
  cases h with
  | forced => exact .inl rfl
  | loaded hfile hsame => exact .inr (by rw [hfile, Option.map_some, hsame])

/-- The course of a restore, as far as it matters what is due. -/
theorem Course.tried {result : Except VaultError Unit} {tail : List WorkEvent}
    (h : Course c (Path.absolute cwd path) path force result tail c') :
    Tried c cwd path force result (past ++ tail) c' := by
  cases h with
  | unfetched cause =>
    refine .stopped (.inr ⟨⟨.fetch (keyOf (Path.absolute cwd path)), .error cause⟩, by simp, ?_⟩)
    exact not_expected rfl (by simp)
  | notRecorded hblob => exact .stopped (.inl (due?_of_none hblob))
  | undecodable hblob hdecode =>
    exact .stopped (.inl (by rw [due?, hblob, Option.bind_some, hdecode, Option.bind_none]))
  | unloaded hsnapshot hforce cause =>
    -- a file that is missing is not as the last patch has left it
    cases hfile : c.file path with
    | none =>
      refine .stopped (.inl ?_)
      rw [due?_of_snapshot? hsnapshot, if_neg (by simp [hforce, hfile])]
    | some text =>
      refine .stopped (.inr ⟨⟨.load path, .error cause⟩, by simp, fun hexpected => ?_⟩)
      obtain ⟨_, _, heq, hnone⟩ := hexpected rfl
      cases heq
      cases hfile.symm.trans hnone
  | edited hsnapshot hforce hfile hne =>
    refine .stopped (.inl ?_)
    rw [due?_of_snapshot? hsnapshot, if_neg (by simp [hforce, hfile, hne])]
  | unpackable hsnapshot hlooks htext =>
    refine .stopped (.inl ?_)
    rw [hlooks.due?_eq hsnapshot, htext, Option.map_none]
  | @unstored _ original _ _ _ _ cause =>
    refine .stopped (.inr ⟨⟨.store path original, .error cause⟩, by simp, ?_⟩)
    exact not_expected rfl (by simp)
  | @undropped snapshot original _ hsnapshot hlooks htext cause =>
    have hdue : c.due? cwd path force = some (snapshot, original) := by
      rw [hlooks.due?_eq hsnapshot, htext, Option.map_some]
    refine .kept hdue ⟨⟨.drop (keyOf snapshot.path), .error cause⟩, by simp, ?_⟩
    exact not_expected rfl (by simp)
  | done hsnapshot hlooks htext =>
    exact .done (by rw [hlooks.due?_eq hsnapshot, htext, Option.map_some])

/-- What restoring a file comes to, whatever the store has for it. -/
theorem tried_restore (c : Contents) (cwd path : Text) (force : Bool) (past : List WorkEvent) :
    (restore cwd path force).Always (fun _ c => c.TakesBack cwd) (Tried c cwd path force) past
      c := by
  have hcourse : (restore cwd path force).Always (fun _ c => c.TakesBack cwd)
      (Course c (Path.absolute cwd path) path force) [] c := by
    refine course_restore trivial (fun _ => trivial) ?_ fun _ _ _ _ _ _ => trivial
    intro past' snapshot text hsnapshot htext
    obtain ⟨blob, hblob, hdecode⟩ := Option.bind_eq_some_iff.1 hsnapshot
    change c.original? (Path.absolute cwd path) = some text
    rw [original?, hblob, Option.bind_some, hdecode, Option.bind_some, htext]
  have halways : (restore cwd path force).Always (fun _ c => c.TakesBack cwd) _ (past ++ []) c :=
    hcourse.after
  rw [List.append_nil] at halways
  refine halways.imp ?_
  rintro result _ c' ⟨tail, rfl, h⟩
  exact h.tried

/-- Restoring a file changes nothing exactly if nothing is to be changed, unless it fails. -/
theorem Tried.contents_eq_iff {result : Except VaultError Unit}
    (h : Tried c cwd path force result past c') (hworks : ∀ event ∈ past, event.Expected c) :
    c' = c ↔ c.Settled cwd path force := by
  have hfine : ¬ ∃ event ∈ past, ¬ event.Expected c := by
    rintro ⟨event, hevent, hfailed⟩
    exact hfailed (hworks event hevent)
  cases h with
  | stopped hstopped =>
    refine iff_of_true rfl fun snapshot text hdue => ?_
    rw [hstopped.resolve_right hfine] at hdue
    cases hdue
  | kept hdue hfailed => exact absurd hfailed hfine
  | @done snapshot text _ hdue =>
    constructor
    · intro heq snapshot' text' hdue'
      cases hdue.symm.trans hdue'
      constructor
      · rw [← heq, file_drop, file_write, Function.update_self]
      · rw [← heq, blob_drop, Function.update_self]
    · intro hsettled
      -- the text is there and there is nothing to drop
      obtain ⟨hfile, hblob⟩ := hsettled snapshot text hdue
      rw [write_eq_self_iff.2 hfile, drop_eq_self_iff.2 hblob]

/-! ### Restoring one file after the other -/

theorem takesBack_restoreEach (c : Contents) (cwd : Text) (force : Bool) (targets : List Text)
    (past : List WorkEvent) :
    (restoreEach cwd force targets).Always (fun _ c => c.TakesBack cwd) (fun _ _ _ => True) past
      c := by
  induction targets generalizing past c with
  | nil => trivial
  | cons path rest ih =>
    rw [restoreEach, Job.always_bind]
    refine (tried_restore c cwd path force past).imp fun _ _ c' _ => ?_
    rw [Job.always_bind]
    exact (ih c' _).imp fun _ _ _ _ => trivial

/-- Restoring files changes nothing exactly if nothing is to be changed for any of them, unless
something fails. -/
theorem contents_restoreEach_eq_iff
    (hworks : ∀ event ∈ (restoreEach cwd force targets).events w.handler s,
      event.Expected (w.contents s)) :
    w.contents ((restoreEach cwd force targets).run w.handler s).2 = w.contents s ↔
      ∀ path ∈ targets, (w.contents s).Settled cwd path force := by
  induction targets generalizing s with
  | nil => exact iff_of_true rfl fun path hpath => by cases hpath
  | cons path rest ih =>
    have htakes := takesBack_restoreEach (w.contents s) cwd force (path :: rest) []
    have hevents : (restoreEach cwd force (path :: rest)).events w.handler s =
        (restore cwd path force).events w.handler s ++
          (restoreEach cwd force rest).events w.handler
            ((restore cwd path force).run w.handler s).2 := by
      rw [restoreEach, Job.events_bind, Job.events_bind, Job.events_pure, List.append_nil]
    rw [hevents, List.forall_mem_append] at hworks
    have htried := tried_restore (w.contents s) cwd path force []
    have hfirst := (htried.run w).contents_eq_iff hworks.1
    rw [List.forall_mem_cons]
    constructor
    · intro hend
      -- nothing is put right later, so the first file is left
      have hall := htakes.contents_eq_iff.1 hend
      rw [hevents, List.forall_mem_append] at hall
      have hsame := htried.contents_eq_iff.2 hall.1
      refine ⟨hfirst.1 hsame, ?_⟩
      rw [run_restoreEach_cons] at hend
      rw [← hsame] at hend hworks ⊢
      exact (ih hworks.2).1 hend
    · rintro ⟨hpath, hrest⟩
      -- the first file is left, and the others find what they would have found
      have hsame := hfirst.2 hpath
      rw [run_restoreEach_cons]
      rw [← hsame] at hworks hrest ⊢
      exact (ih hworks.2).2 hrest

end Vault

/-! ### Sessions -/

namespace Config

variable {τ : Type} {c : Config} {cwd : Text} {force : Bool} {w : Workspace σ} {s : σ}

/-- A configuration in a mode: a dry run, a check, both or neither. -/
def inMode (c : Config) (dryRun check : Bool) : Config :=
  { c with dryRun := dryRun, check := check }

/-- The files that a session that restores would put back if they have a snapshot. -/
def Restores (c : Config) (contents : Contents) (path : Text) : Prop :=
  (c.restoreAll = false ∧ path ∈ c.targets) ∨
    (c.restoreAll = true ∧ (contents.blob (keyOf path)).isSome = true)

omit [Snapshot.Format] in
/-- The mode makes no difference to the preparation. -/
theorem run_ready_modes (h : Handler diskInterface τ) (d : τ) (c : Config) (dryRun check : Bool) :
    (c.inMode dryRun check).ready.run h d =
      (((c.ready.run h d).1.1, (c.ready.run h d).1.2.inMode dryRun check),
        (c.ready.run h d).2) := by
  rw [ready, ready]
  have hprepared : (c.inMode dryRun check).prepared = c.prepared := rfl
  have hexamine : (c.inMode dryRun check).withTargets.examine = c.withTargets.examine := rfl
  have harchive : (c.inMode dryRun check).resolveArchive = c.resolveArchive := rfl
  rw [hprepared]
  split
  · rfl
  · rw [prepare, prepare, hprepared, hexamine, harchive]
    split
    · rfl
    · rw [Job.run_monad_bind, Job.run_monad_bind]
      cases (c.withTargets.examine.run h d).1 with
      | error e => rfl
      | ok p =>
        simp only [Job.run_monad_bind]
        cases (c.resolveArchive.run h (c.withTargets.examine.run h d).2).1 with
        | error e => rfl
        | ok archive => rfl

/-- The mode makes no difference to a session that restores files. -/
theorem run_restore_modes (h : Handler sessionInterface τ) (d : τ) (c : Config) (cwd : Text)
    (force dryRun check : Bool) :
    ((c.inMode dryRun check).restore cwd force).run h d =
      ((((c.restore cwd force).run h d).1.1,
        ((c.restore cwd force).run h d).1.2.inMode dryRun check),
        ((c.restore cwd force).run h d).2) := by
  have hready := run_ready_modes h.disk d { c with restoring := true } dryRun check
  have hswap : { c.inMode dryRun check with restoring := true } =
      { c with restoring := true }.inMode dryRun check := rfl
  rw [restore, restore, Job.run_monad_bind, Job.run_monad_bind, hswap, Job.run_inSession,
    Job.run_inSession, hready]
  generalize ({ c with restoring := true } : Config).ready.run h.disk d = prepared
  obtain ⟨⟨_ | _, c'⟩, d'⟩ := prepared
  · rfl
  · -- neither the archive nor the files to restore depend on the mode
    have hundo : (c'.inMode dryRun check).undo cwd force = c'.undo cwd force := rfl
    simp only [Job.run_monad_bind, Job.run_pure, hundo]

theorem takesBack_restoreTargets (c : Config) (cwd : Text) (contents : Contents)
    (past : List WorkEvent) :
    (c.restoreTargets cwd).Always (fun _ contents => contents.TakesBack cwd) (fun _ _ _ => True)
      past contents := by
  rw [restoreTargets]
  split
  · trivial
  · refine ⟨trivial, fun answer contents' _ => ?_⟩
    cases answer with
    | error e => trivial
    | ok keys => trivial

/-- Sessions that restore files take back. -/
theorem takesBack_restoreFiles (c : Config) (cwd : Text) (force : Bool) (contents : Contents)
    (past : List WorkEvent) :
    (c.restoreFiles cwd force).Always (fun _ contents => contents.TakesBack cwd)
      (fun _ _ _ => True) past contents := by
  rw [restoreFiles, Job.always_bind]
  refine (takesBack_restoreTargets c cwd contents past).imp fun listed past' contents' _ => ?_
  split
  · trivial
  · trivial
  · rw [Job.always_bind]
    exact (Vault.takesBack_restoreEach contents' cwd force _ past').imp fun _ _ _ _ => trivial

/-- The listed files that are left over when everything is restored have nothing to put back. -/
theorem forall_settled_iff {contents : Contents} {keys : List Text}
    (hkeys : ∀ key, key ∈ keys ↔ Vault.lead <+: key ∧ (contents.blob key).isSome = true)
    (c : Config) (cwd : Text) (force : Bool) :
    (∀ path ∈ c.everything cwd (Text.sort (keys.map Vault.pathOf)),
      contents.Settled cwd path force) ↔
    ∀ path, (contents.blob (keyOf path)).isSome = true → contents.Settled cwd path force := by
  constructor
  · intro h path hsome
    exact h path (List.mem_append_left _ ((Vault.mem_sort_map_pathOf_iff hkeys).2 hsome))
  · intro h path hpath
    rcases List.mem_append.1 hpath with hknown | hother
    · exact h path ((Vault.mem_sort_map_pathOf_iff hkeys).1 hknown)
    · -- a listed file is left over only if its absolute path has no snapshot
      refine settled_of_none (Option.not_isSome_iff_eq_none.1 fun hsome => ?_)
      have hnot := (List.mem_filter.1 hother).2
      rw [List.contains_iff_mem.2 ((Vault.mem_sort_map_pathOf_iff hkeys).2 hsome)] at hnot
      cases hnot

/-- Listing the files to restore fails, or it gives those that the session restores. -/
theorem run_restoreTargets (c : Config) (cwd : Text) (force : Bool) (w : Workspace σ) (s : σ) :
    (∃ event ∈ (c.restoreTargets cwd).events w.handler s, ¬ event.Expected (w.contents s)) ∨
      ∃ targets s', (c.restoreTargets cwd).run w.handler s = (.ok targets, s') ∧
        w.contents s' = w.contents s ∧
        ((∀ path ∈ targets, (w.contents s).Settled cwd path force) ↔
          ∀ path, c.Restores (w.contents s) path → (w.contents s).Settled cwd path force) := by
  cases hall : c.restoreAll with
  | false =>
    refine .inr ⟨c.targets, s, ?_, rfl, forall_congr' fun path => imp_congr_left ?_⟩
    · rw [restoreTargets, hall]
      rfl
    · simp [Restores, hall]
  | true =>
    cases hkeys : (w.handler (.keysWith Vault.lead) s).1 with
    | error e =>
      refine .inl ⟨⟨.keysWith Vault.lead, .error e⟩, ?_, fun hexpected => ?_⟩
      · rw [restoreTargets, hall, ← hkeys]
        exact List.mem_cons_self
      · obtain ⟨_, _, heq, -⟩ := hexpected rfl
        cases heq
    | ok keys =>
      refine .inr ⟨_, _, run_restoreTargets_of_keys w.handler hall hkeys cwd,
        WorkEvent.eq_effect_of_may (w.may (.keysWith Vault.lead) s), ?_⟩
      rw [forall_settled_iff (Vault.mem_keysWith_iff hkeys)]
      simp [Restores, hall]

/-! ### Sessions that change nothing -/

/-- Whatever the mode, a session that restores files does the same to the disk. It leaves files and
snapshots as they are exactly if each of its operations does. And if no operation fails, other than
to load a file that is missing, this is so exactly if all that is due has the text already and no
snapshot is to be dropped with it. -/
theorem contents_restoreFiles_eq_iff (c : Config) (cwd : Text) (force : Bool) (w : Workspace σ)
    (s : σ) :
    let session := (c.restoreFiles cwd force).run w.handler s
    let events := (c.restoreFiles cwd force).events w.handler s
    (∀ (τ : Type) (h : Handler sessionInterface τ) (d : τ) (dryRun check : Bool),
      ((c.inMode dryRun check).restore cwd force).run h d =
        ((((c.restore cwd force).run h d).1.1,
          ((c.restore cwd force).run h d).1.2.inMode dryRun check),
          ((c.restore cwd force).run h d).2)) ∧
      (w.contents session.2 = w.contents s ↔
        ∀ event ∈ events, event.effect (w.contents s) = w.contents s) ∧
      ((∀ event ∈ events, event.Expected (w.contents s)) →
        (w.contents session.2 = w.contents s ↔
          ∀ path, c.Restores (w.contents s) path →
            (w.contents s).Settled cwd path force)) := by
  intro session events
  refine ⟨fun τ h d dryRun check => run_restore_modes h d c cwd force dryRun check,
    (takesBack_restoreFiles c cwd force (w.contents s) []).contents_eq_iff, fun hworks => ?_⟩
  rcases run_restoreTargets c cwd force w s with
    ⟨event, hevent, hfailed⟩ | ⟨targets, s', hlisted, hsame, htargets⟩
  · refine absurd (hworks event ?_) hfailed
    change event ∈ (c.restoreFiles cwd force).events w.handler s
    -- the session ends there, and the event is among its own
    rw [restoreFiles, Job.events_bind]
    exact List.mem_append_left _ hevent
  · obtain ⟨hrun, -, -, hevents⟩ := run_restoreFiles_of_listed w.handler hlisted force
    rw [show events = _ from hevents, List.forall_mem_append, ← hsame] at hworks
    rw [show session.2 = _ from hrun, ← htargets, ← hsame]
    exact Vault.contents_restoreEach_eq_iff hworks.2

end Config

end Format

namespace Config

/-- The file was edited after it was patched. A dry run leaves it, but not if it is forced. -/
theorem contents_restoreFiles_of_edited :
    let w := Memory.workspace
    let path := Text.ofString "a.rs"
    let m₀ : Memory := ⟨Keyed.empty.insert path "edited", Keyed.empty, .none, 0⟩
    let m := ((Vault.record "/work" path "one" "1").run w.handler m₀).2
    let c : Config := { blank with dryRun := true, targets := [path] }
    w.contents ((c.restoreFiles "/work" false).run w.handler m).2 = w.contents m ∧
      w.contents ((c.restoreFiles "/work" true).run w.handler m).2 ≠ w.contents m := by
  intro w path m₀ m c
  have hworks : ∀ force, ((c.restoreFiles "/work" force).events w.handler m).all (!·.failed) =
      true := by
    decide +kernel
  have hexpected : ∀ force, ∀ event ∈ (c.restoreFiles "/work" force).events w.handler m,
      event.Expected (w.contents m) := by
    intro force event hevent hfailed
    have hfine := List.all_eq_true.1 (hworks force) event hevent
    rw [hfailed] at hfine
    cases hfine
  have hunforced : ((w.contents m).due? "/work" path false).isNone = true := by decide +kernel
  have hforced : ((w.contents m).due? "/work" path true).map Prod.snd = some ("one" : Text) := by
    decide +kernel
  constructor
  · refine ((contents_restoreFiles_eq_iff c "/work" false w m).2.2 (hexpected false)).2 ?_
    rintro other (⟨-, hother⟩ | ⟨hall, -⟩) snapshot text hdue
    · rw [List.mem_singleton.1 hother, Option.isNone_iff_eq_none.1 hunforced] at hdue
      cases hdue
    · cases hall
  · intro hsame
    have hsettled := ((contents_restoreFiles_eq_iff c "/work" true w m).2.2 (hexpected true)).1
      hsame path (.inl ⟨rfl, List.mem_singleton_self path⟩)
    obtain ⟨⟨snapshot, text⟩, hdue, rfl⟩ := Option.map_eq_some_iff.1 hforced
    have hfile : (w.contents m).file path = some ("edited" : Text) := by decide +kernel
    have hone := (hsettled snapshot "one" hdue).1
    rw [hfile] at hone
    revert hone
    decide +kernel

/-- A file is patched and then restored in a dry run: its first text is back, and the snapshot is
gone. -/
theorem restore_stores_in_dry_run :
    let c : Config := { blank with files := "a.rs", archive := "/state" }
    let d := (Disk.fresh "/work").put "a.rs" 0o644 "use std::sync::Arc;"
    let patched := (((c.run "/work" false).onDisk false).run perform d).2
    let restored :=
      ((({ c with dryRun := true }.restore "/work" false).onDisk false).run perform patched).2
    let keys := fun d => (Archive.storeAt? d ["state", "MANIFEST"]).map Keyed.keys
    patched.readFile "a.rs" = .ok ("use std::sync::Arc;" ++ Profile.standard.helper.definition) ∧
      keys patched = some [keyOf "/work/a.rs"] ∧
      restored.readFile "a.rs" = .ok "use std::sync::Arc;" ∧ keys restored = some [] := by
  decide +kernel

end Config

end Reroute
