import Reroute.Proofs.Independence
import Reroute.Proofs.Keys
import Reroute.Proofs.Recovery
import Reroute.Session

/-!
# Restoring many files

Files are restored one after the other, each on its own: an error with one is noted and the next one
follows. In a store that only recording and restoring have filled, restoring a file looks at and
changes nothing but the file and its own snapshot. So whatever happens to the others, a file ends up
as if it had been restored alone.

That holds in every workspace where an operation does not fail or succeed because of what was done
elsewhere. How an operation fails need not be the same, because restoring a file stops at the first
failure.

## Main definitions

* `Handler.Fair` — whether an operation fails depends on nothing but what it reads
* `Job.Stops` — jobs that are done once an operation has failed
* `Vault.Attempted` — what restoring any file comes to
* `Contents.revert` — the contents after a file was restored
* `Config.everything` — the files of a session that restores everything

## Main results

* `LinkedWorkspace.fair_view` — fairness does not get lost where paths share files
* `Vault.run_restore_view` — where paths share files, a file is restored as in a workspace of one
  file
* `Vault.AllEntries.agreeOn_restoreEach` — what is not restored stays
* `Vault.AllEntries.agreeOn_alone` — a file ends up as if it had been restored alone
* `Vault.AllEntries.contents_restoreEach` — what is left if nothing fails
* `Config.run_restoreFiles_of_listed` — a session restores the files that it has listed
-/

namespace Reroute

open Job (Goal)

open Vault (keyOf)

variable {σ α : Type}

/-! ### Fair workspaces -/

/-- Among some states, which no operation of some kind leads out of, it depends on nothing but what
such an operation reads whether it fails. How it fails may depend on anything. -/
structure Handler.Fair (h : Handler workInterface σ) (contents : σ → Contents) (P : WorkOp → Prop)
    (S : Set σ) : Prop where
  mem : ∀ (op : WorkOp), P op → ∀ s ∈ S, (h op s).2 ∈ S
  failed_eq : ∀ (F : Footprint) (op : WorkOp), P op → op.ReadsIn F → ∀ s ∈ S, ∀ t ∈ S,
    (contents s).AgreeOn F (contents t) →
      WorkEvent.failed ⟨op, (h op s).1⟩ = WorkEvent.failed ⟨op, (h op t).1⟩

/-- The operations of restoring some files. -/
def WorkOp.Restores (paths : Set Text) : WorkOp → Prop
  | .load path | .store path _ => path ∈ paths
  | .fetch _ | .drop _ => True
  | _ => False

theorem WorkOp.Restores.filesIn {paths : Set Text} {op : WorkOp} (h : op.Restores paths) :
    op.FilesIn paths := by
  cases op with
  | load path => exact h
  | store path text => exact h
  | _ => trivial

/-- A workspace is fair. -/
abbrev Workspace.Fair (w : Workspace σ) (P : WorkOp → Prop) (S : Set σ) : Prop :=
  w.handler.Fair w.contents P S

/-- Where answers depend on nothing but what is read, nothing else has a say in failures. -/
theorem Handler.Steady.fair {h : Handler workInterface σ} {contents : σ → Contents} {S : Set σ}
    (hh : h.Steady contents S) (P : WorkOp → Prop) : h.Fair contents P S :=
  ⟨fun op _ => hh.mem op, fun F op _ hreads s hs t ht hagree => by
    rw [hh.answer_eq F op hreads s hs t ht hagree]⟩

/-- The workspace that has nothing but some paths is fair if the linked one is. -/
theorem LinkedWorkspace.fair_view {w : LinkedWorkspace σ} {P : WorkOp → Prop} {S : Set σ}
    (hw : w.handler.Fair w.contents P S) (paths : Set Text) :
    (w.view paths).Fair P {s | s ∈ S ∧ w.Apart s paths} where
  mem op hP _ hs := w.viewed_mem paths hs (hw.mem op hP _ hs.1)
  failed_eq := by
    rintro F op hP hreads s ⟨hs, hapart⟩ t ⟨ht, hapart'⟩ hagree
    change WorkEvent.failed ⟨op, (w.viewed paths op s).1⟩ =
      WorkEvent.failed ⟨op, (w.viewed paths op t).1⟩
    by_cases hop : op.FilesIn paths
    · rw [w.viewed_of_apart hapart hop, w.viewed_of_apart hapart' hop]
      exact hw.failed_eq _ op hP (hreads.restrict hop) s hs t ht hagree.of_restrict
    · rw [w.viewed_of_not_filesIn hop, w.viewed_of_not_filesIn hop]

namespace WorkEvent

/-- An operation that failed has done nothing. -/
theorem effect_of_failed {event : WorkEvent} (h : event.failed = true) (c : Contents) :
    event.effect c = c := by
  obtain ⟨op, answer⟩ := event
  cases op with
  | isCancelled => cases h
  | load path => rfl
  | fetch key => rfl
  | keysWith lead => rfl
  | store path text =>
    cases answer with
    | error e => rfl
    | ok _ => cases h
  | keep key blob =>
    cases answer with
    | error e => rfl
    | ok _ => cases h
  | drop key =>
    cases answer with
    | error e => rfl
    | ok _ => cases h

/-- An operation that succeeds answers with what it reads. -/
theorem answer_eq {F : Footprint} {op : WorkOp} {a b : op.Answer} {c c' d d' : Contents}
    (hop : op.ReadsIn F) (hcancel : op ≠ .isCancelled) (h : c.AgreeOn F d)
    (ha : op.May c c' a) (hb : op.May d d' b) (hfailed : failed ⟨op, a⟩ = false)
    (hfailed' : failed ⟨op, b⟩ = false) : a = b := by
  cases op with
  | isCancelled => exact absurd rfl hcancel
  | keysWith lead => exact hop.elim
  | load path =>
    cases a with
    | error e => cases hfailed
    | ok text =>
      cases b with
      | error e => cases hfailed'
      | ok text' =>
        have hfile : some text = some text' := ha.2.symm.trans ((h.1 path hop).trans hb.2)
        rw [Option.some.inj hfile]
  | fetch key =>
    cases a with
    | error e => cases hfailed
    | ok blob =>
      cases b with
      | error e => cases hfailed'
      | ok blob' => exact congrArg _ (ha.2.symm.trans ((h.2 key hop).trans hb.2))
  | store path text =>
    cases a with
    | error e => cases hfailed
    | ok _ =>
      cases b with
      | error e => cases hfailed'
      | ok _ => rfl
  | keep key blob =>
    cases a with
    | error e => cases hfailed
    | ok _ =>
      cases b with
      | error e => cases hfailed'
      | ok _ => rfl
  | drop key =>
    cases a with
    | error e => cases hfailed
    | ok _ =>
      cases b with
      | error e => cases hfailed'
      | ok _ => rfl

end WorkEvent

namespace Job

/-- Once an operation has failed, the job is done and gives an error. -/
def Stops {ε : Type} : WorkJob (Except ε α) → Prop
  | done _ => True
  | ask op next => ∀ answer, (next answer).Stops ∧
    (WorkEvent.failed ⟨op, answer⟩ = true → ∃ e, next answer = done (.error e))

/-- A job after another that passes errors on. -/
theorem Stops.bind {β ε δ : Type} {j : WorkJob (Except ε β)}
    {f : Except ε β → WorkJob (Except δ α)} (hj : j.Stops)
    (herror : ∀ e, ∃ e', f (.error e) = done (.error e')) (hok : ∀ b, (f (.ok b)).Stops) :
    (j >>= f).Stops := by
  change (j.bind f).Stops
  induction j with
  | done result =>
    cases result with
    | error e =>
      obtain ⟨e', heq⟩ := herror e
      rw [Job.bind, heq]
      trivial
    | ok b => exact hok b
  | ask op next ih =>
    intro answer
    refine ⟨ih answer (hj answer).1, fun hfailed => ?_⟩
    obtain ⟨e, heq⟩ := (hj answer).2 hfailed
    obtain ⟨e', heq'⟩ := herror e
    exact ⟨e', by simp only [heq, Job.bind, heq']⟩

/-- A job does not lead out of states that its operations do not lead out of. -/
theorem run_mem {w : Workspace σ} {P : WorkOp → Prop} {S : Set σ}
    (hmem : ∀ op, P op → ∀ s ∈ S, (w.handler op s).2 ∈ S) {j : WorkJob α} {s : σ} (hs : s ∈ S)
    (hj : j.Asks P (w.contents s)) : (j.run w.handler s).2 ∈ S := by
  induction j generalizing s with
  | done a => exact hs
  | ask op next ih =>
    obtain ⟨hop, hnext⟩ := asks_ask_iff.1 hj
    exact ih _ (hmem op hop s hs) (hnext _ _ (w.may op s))

/-- In a fair workspace a job that stops at failures depends on nothing but what it reads. -/
theorem Stops.agreeOn_run {w : Workspace σ} {P : WorkOp → Prop} {S : Set σ} (hw : w.Fair P S)
    {F : Footprint} {ε : Type} {j : WorkJob (Except ε α)} (hstops : j.Stops) {s t : σ} (hs : s ∈ S)
    (ht : t ∈ S) (hj : j.Asks (fun op => P op ∧ op.ReadsIn F ∧ op ≠ .isCancelled) (w.contents s))
    (h : (w.contents s).AgreeOn F (w.contents t)) :
    (w.contents (j.run w.handler s).2).AgreeOn F (w.contents (j.run w.handler t).2) := by
  induction j generalizing s t with
  | done a => exact h
  | ask op next ih =>
    obtain ⟨⟨hop, hreads, hcancel⟩, hnext⟩ := asks_ask_iff.1 hj
    have hfailed := hw.failed_eq F op hop hreads s hs t ht h
    have heffect := WorkEvent.eq_effect_of_may (w.may op s)
    have heffect' := WorkEvent.eq_effect_of_may (w.may op t)
    rw [run_ask, run_ask]
    cases hcase : WorkEvent.failed ⟨op, (w.handler op s).1⟩ with
    | true =>
      -- both runs end here, and the operation has done nothing
      rw [hcase] at hfailed
      obtain ⟨a, ha⟩ := (hstops (w.handler op s).1).2 hcase
      obtain ⟨b, hb⟩ := (hstops (w.handler op t).1).2 hfailed.symm
      rw [ha, hb, run_done, run_done, heffect, heffect', WorkEvent.effect_of_failed hcase,
        WorkEvent.effect_of_failed hfailed.symm]
      exact h
    | false =>
      rw [hcase] at hfailed
      have hanswer := WorkEvent.answer_eq hreads hcancel h (w.may op s) (w.may op t) hcase
        hfailed.symm
      have hagree : (w.contents (w.handler op s).2).AgreeOn F (w.contents (w.handler op t).2) := by
        rw [heffect, heffect', hanswer]
        exact WorkEvent.effect_congr _ h
      have hlater := ih _ (hstops _).1 (hw.mem op hop s hs) (hw.mem op hop t ht)
        (hnext _ _ (w.may op s)) hagree
      rwa [hanswer] at hlater ⊢

end Job

variable [Snapshot.Format]

namespace Contents

variable {c : Contents} {cwd path : Text}

/-- The contents after a file was restored: if it has a snapshot, the file has the text from it, and
the snapshot is gone. -/
def revert (cwd : Text) (c : Contents) (path : Text) : Contents :=
  match c.original? (Path.absolute cwd path) with
  | some text => (c.write path text).drop (keyOf (Path.absolute cwd path))
  | none => c

theorem revert_of_none (h : c.blob (keyOf (Path.absolute cwd path)) = none) :
    c.revert cwd path = c := by
  rw [revert, original?, h]
  rfl

theorem revert_of_holds {text : Text} (h : c.Holds (Path.absolute cwd path) text) :
    c.revert cwd path = (c.write path text).drop (keyOf (Path.absolute cwd path)) := by
  rw [revert, h.original?_eq]

theorem file_revert (c : Contents) (cwd path other : Text) :
    (c.revert cwd path).file other =
      if other = path then (c.original? (Path.absolute cwd path)).or (c.file other)
      else c.file other := by
  rw [revert]
  cases c.original? (Path.absolute cwd path) with
  | none => simp
  | some text => rw [file_drop, file_write, Function.update_apply, Option.some_or]

end Contents

namespace Vault

open Contents

variable {w : Workspace σ} {s : σ} {P : WorkOp → Prop} {c c' : Contents} {cwd path : Text}
  {targets : List Text} {force : Bool}

/-! ### Restoring one file -/

theorem stops_find (cwd path : Text) : (find cwd path).Stops := by
  rintro (e | _ | blob)
  · exact ⟨trivial, fun _ => ⟨_, rfl⟩⟩
  · exact ⟨trivial, fun hfailed => by cases hfailed⟩
  · refine ⟨?_, fun hfailed => by cases hfailed⟩
    simp only [Job.bind]
    cases Snapshot.decode? blob <;> trivial

omit [Snapshot.Format] in
theorem stops_confirm (path : Text) (s : Snapshot) : (confirm path s).Stops := by
  rintro (e | text)
  · exact ⟨trivial, fun _ => ⟨_, rfl⟩⟩
  · exact ⟨trivial, fun hfailed => by cases hfailed⟩

theorem stops_putBack (path : Text) (s : Snapshot) : (putBack path s).Stops := by
  rw [putBack]
  cases s.text? with
  | none => trivial
  | some text =>
    rintro (e | _)
    · exact ⟨trivial, fun _ => ⟨_, rfl⟩⟩
    · refine ⟨?_, fun hfailed => by cases hfailed⟩
      rintro (e | _)
      · exact ⟨trivial, fun _ => ⟨_, rfl⟩⟩
      · exact ⟨trivial, fun hfailed => by cases hfailed⟩

/-- Restoring a file stops at the first failure. -/
theorem stops_restore (cwd path : Text) (force : Bool) : (restore cwd path force).Stops := by
  refine (stops_find cwd path).bind (fun e => ⟨e, rfl⟩) ?_
  rintro (_ | s)
  · trivial
  · simp only
    split
    · exact stops_putBack path s
    · exact (stops_confirm path s).bind (fun e => ⟨e, rfl⟩) fun _ => stops_putBack path s

/-- Where paths may share their files, a file is restored as in the workspace that has no other
file. Other paths are left, unless they lead to it. -/
theorem run_restore_view (w : LinkedWorkspace σ) (cwd path : Text) (force : Bool) (s : σ) :
    let j := restore cwd path force
    j.run (w.view {path}).handler s = j.run w.handler s ∧
      j.events (w.view {path}).handler s = j.events w.handler s ∧
      ∀ other, ¬ w.Shares s path other →
        (w.contents (j.run w.handler s).2).file other = (w.contents s).file other := by
  exact w.run_view_singleton (only_restore cwd path force) s

/-- Recording a file in a workspace where paths may share their files is one way to fill a store. -/
theorem Kept.recorded_linked (w : LinkedWorkspace σ) (s : σ) (path pristine patched : Text)
    (hpack : Snapshot.Packable (Path.absolute cwd path) pristine)
    (hkept : Kept cwd (w.contents s).blob) :
    Kept cwd (w.contents ((record cwd path pristine patched).run w.handler s).2).blob := by
  have hrecorded := Kept.recorded (w.view {path}) s path pristine patched hpack hkept
  rwa [(w.run_view_singleton (only_record {path} cwd path pristine patched) s).1] at hrecorded

/-- So is restoring one. -/
theorem Kept.restored_linked (w : LinkedWorkspace σ) (s : σ) (path : Text) (force : Bool)
    (hkept : Kept cwd (w.contents s).blob) :
    Kept cwd (w.contents ((restore cwd path force).run w.handler s).2).blob := by
  have hrestored := Kept.restored (w.view {path}) s path force hkept
  rwa [(run_restore_view w cwd path force s).1] at hrestored

/-- A snapshot in the store gives back a text. -/
theorem AllEntries.exists_holds {abs : Text} (h : AllEntries cwd c.blob)
    (hsome : c.blob (keyOf abs) ≠ none) : ∃ text, c.Holds abs text := by
  obtain ⟨blob, hblob⟩ := Option.ne_none_iff_exists'.1 hsome
  obtain ⟨text, f, hpack, rfl⟩ := h.of_keyOf hblob
  exact ⟨text, hpack, f, hblob⟩

/-- The operations of restoring a file are of some kind. -/
structure Permits (P : WorkOp → Prop) (cwd path : Text) (c : Contents) : Prop where
  fetch : P (.fetch (keyOf (Path.absolute cwd path)))
  file : c.blob (keyOf (Path.absolute cwd path)) ≠ none →
    P (.load path) ∧ (∀ text, P (.store path text)) ∧ P (.drop (keyOf (Path.absolute cwd path)))

/-- What restoring a file comes to, whether it has a snapshot or not. -/
inductive Attempted (c : Contents) (cwd path : Text) (force : Bool) : Goal (Except VaultError Unit)
  | missing {e : VaultError} {past : List WorkEvent}
    (hblob : c.blob (keyOf (Path.absolute cwd path)) = none) :
    Attempted c cwd path force (.error e) past c
  | found {text : Text} {f : Fingerprint} {result : Except VaultError Unit}
    {past : List WorkEvent} {c' : Contents} (hholds : c.Holds (Path.absolute cwd path) text)
    (hrestored : Restored c (Path.absolute cwd path) path text f force result past c') :
    Attempted c cwd path force result past c'

theorem AllEntries.always_restore (h : AllEntries cwd c.blob) (hP : Permits P cwd path c)
    (force : Bool) (past : List WorkEvent) :
    (restore cwd path force).Always (fun _ _ op => P op) (Attempted c cwd path force) past c := by
  by_cases hblob : c.blob (keyOf (Path.absolute cwd path)) = none
  · exact always_restore_of_none hblob hP.fetch fun _ _ => .missing hblob
  · obtain ⟨text, hpack, f, hsnapshot⟩ := h.exists_holds hblob
    -- the snapshot names the path itself, so nothing is dropped but its own key
    obtain ⟨hload, hstore, hdrop⟩ := hP.file hblob
    refine (Vault.always_restore hpack hsnapshot hP.fetch (fun _ => hload) (fun _ => hstore text)
      fun _ _ => hdrop).imp fun _ _ _ hrestored => ?_
    exact .found ⟨hpack, f, hsnapshot⟩ hrestored

namespace Attempted

variable {result : Except VaultError Unit} {past : List WorkEvent}

/-- The contents are left, or the file gets a text and may lose its snapshot. -/
theorem contents_cases (h : Attempted c cwd path force result past c') :
    c' = c ∨ ∃ text, c' = c.write path text ∨
      c' = (c.write path text).drop (keyOf (Path.absolute cwd path)) := by
  cases h with
  | missing hblob => exact .inl rfl
  | found hholds hrestored =>
    cases hrestored with
    | failed _ => exact .inl rfl
    | edited _ _ _ => exact .inl rfl
    | kept _ => exact .inr ⟨_, .inl rfl⟩
    | done _ => exact .inr ⟨_, .inr rfl⟩

/-- Restoring a file leaves the store, or the snapshot of the file is gone. -/
theorem blob_cases (h : Attempted c cwd path force result past c') :
    c'.blob = c.blob ∨ c'.blob = Function.update c.blob (keyOf (Path.absolute cwd path)) none := by
  rcases h.contents_cases with rfl | ⟨text, rfl | rfl⟩
  · exact .inl rfl
  · exact .inl rfl
  · exact .inr rfl

/-- No snapshot comes out of restoring a file. -/
theorem blob_eq_none (h : Attempted c cwd path force result past c') {key : Text}
    (hkey : c.blob key = none) : c'.blob key = none := by
  rcases h.blob_cases with heq | heq
  · rwa [heq]
  · rw [heq, Function.update_apply]
    split
    · rfl
    · exact hkey

theorem allEntries (h : Attempted c cwd path force result past c')
    (hentries : AllEntries cwd c.blob) : AllEntries cwd c'.blob := by
  intro key blob hblob
  refine hentries key blob ?_
  rcases h.blob_cases with heq | heq
  · rwa [heq] at hblob
  · rw [heq, Function.update_apply] at hblob
    split at hblob
    · cases hblob
    · exact hblob

theorem permits (h : Attempted c cwd path force result past c') {other : Text}
    (hP : Permits P cwd other c) : Permits P cwd other c' :=
  ⟨hP.fetch, fun hsome => hP.file fun hnone => hsome (h.blob_eq_none hnone)⟩

/-- Restoring a file touches nothing but the file and its snapshot. -/
theorem agreeOn (h : Attempted c cwd path force result past c') {F : Footprint}
    (hF : F.Apart (.own cwd path true)) : c'.AgreeOn F c := by
  have hfile : ∀ other ∈ F.files, other ≠ path := fun other hother heq =>
    hF.1 other hother heq
  have hkey : ∀ key ∈ F.keys, key ≠ keyOf (Path.absolute cwd path) := fun key hmem heq =>
    hF.2 key hmem ⟨rfl, heq⟩
  have hwrite : ∀ text, (c.write path text).AgreeOn F c := fun text =>
    ⟨fun other hother => Function.update_of_ne (hfile other hother) _ _, fun _ _ => rfl⟩
  rcases h.contents_cases with rfl | ⟨text, rfl | rfl⟩
  · exact .refl _
  · exact hwrite text
  · exact ⟨(hwrite text).1, fun key hmem => Function.update_of_ne (hkey key hmem) _ _⟩

/-- A file that is restored by force is restored, unless something fails. -/
theorem eq_revert (h : Attempted c cwd path true result past c')
    (hworks : ∀ event ∈ past, event.failed = false) : c' = c.revert cwd path := by
  have hfine : ¬ ∃ event ∈ past, event.failed = true := by
    rintro ⟨event, hmem, hfailed⟩
    rw [hworks event hmem] at hfailed
    cases hfailed
  cases h with
  | missing hblob => rw [revert_of_none hblob]
  | found hholds hrestored =>
    rw [revert_of_holds hholds]
    cases hrestored with
    | failed hfailed => exact absurd hfailed hfine
    | edited hforce _ _ => cases hforce
    | kept hfailed => exact absurd hfailed hfine
    | done _ => rfl

end Attempted

/-- What restoring a file in a workspace comes to. -/
theorem AllEntries.attempted_restore (h : AllEntries cwd (w.contents s).blob) (path : Text)
    (force : Bool) :
    Attempted (w.contents s) cwd path force ((restore cwd path force).run w.handler s).1
      ((restore cwd path force).events w.handler s)
      (w.contents ((restore cwd path force).run w.handler s).2) := by
  have hP : Permits (fun _ => True) cwd path (w.contents s) :=
    ⟨trivial, fun _ => ⟨trivial, fun _ => trivial, trivial⟩⟩
  exact (h.always_restore hP force []).run w

/-! ### Restoring one file after the other -/

theorem run_restoreEach_cons (h : Handler workInterface σ) (cwd path : Text) (force : Bool)
    (rest : List Text) (s : σ) :
    (restoreEach cwd force (path :: rest)).run h s =
      ((path, ((restore cwd path force).run h s).1) ::
        ((restoreEach cwd force rest).run h ((restore cwd path force).run h s).2).1,
        ((restoreEach cwd force rest).run h ((restore cwd path force).run h s).2).2) := by
  rw [restoreEach, Job.run_monad_bind, Job.run_monad_bind, Job.run_pure]

/-- Every file is attempted, in the order of the list. -/
theorem map_fst_restoreEach (h : Handler workInterface σ) (cwd : Text) (force : Bool)
    (targets : List Text) (s : σ) :
    ((restoreEach cwd force targets).run h s).1.map Prod.fst = targets := by
  induction targets generalizing s with
  | nil => rfl
  | cons path rest ih => rw [run_restoreEach_cons, List.map_cons, ih]

theorem AllEntries.asks_restoreEach (h : AllEntries cwd c.blob)
    (hP : ∀ t ∈ targets, Permits P cwd t c) : (restoreEach cwd force targets).Asks P c := by
  induction targets generalizing c with
  | nil => trivial
  | cons path rest ih =>
    obtain ⟨hpath, hrest⟩ := List.forall_mem_cons.1 hP
    rw [restoreEach, Job.Asks, Job.always_bind]
    refine (h.always_restore hpath force []).imp fun _ past c' hattempted => ?_
    rw [Job.always_bind]
    have hlater := ih (hattempted.allEntries h) fun t ht => hattempted.permits (hrest t ht)
    exact (Job.always_past_iff.1 hlater).imp fun _ _ _ _ => trivial

/-- What is not restored stays. -/
theorem AllEntries.agreeOn_restoreEach (h : AllEntries cwd (w.contents s).blob) {F : Footprint}
    (hF : ∀ t ∈ targets, F.Apart (.own cwd t true)) :
    (w.contents ((restoreEach cwd force targets).run w.handler s).2).AgreeOn F (w.contents s) := by
  induction targets generalizing s with
  | nil => exact .refl _
  | cons path rest ih =>
    obtain ⟨hpath, hrest⟩ := List.forall_mem_cons.1 hF
    -- what one file leaves is again a store of snapshots under their own keys
    have hattempted := h.attempted_restore path force
    rw [run_restoreEach_cons]
    exact (ih (hattempted.allEntries h) hrest).trans (hattempted.agreeOn hpath)

/-- No snapshot comes out of restoring files. -/
theorem AllEntries.blob_restoreEach_eq_none (h : AllEntries cwd (w.contents s).blob) {key : Text}
    (hkey : (w.contents s).blob key = none) :
    (w.contents ((restoreEach cwd force targets).run w.handler s).2).blob key = none := by
  induction targets generalizing s with
  | nil => exact hkey
  | cons path rest ih =>
    have hattempted := h.attempted_restore path force
    rw [run_restoreEach_cons]
    exact ih (hattempted.allEntries h) (hattempted.blob_eq_none hkey)

/-- In a fair workspace, what becomes of a file that is restored depends on nothing but the file and
its snapshot. -/
theorem AllEntries.agreeOn_restore {S : Set σ} (hw : w.Fair P S) {t : σ} (hs : s ∈ S) (ht : t ∈ S)
    (h : AllEntries cwd (w.contents s).blob) (hP : Permits P cwd path (w.contents s))
    (hagree : (w.contents s).AgreeOn (.own cwd path true) (w.contents t)) :
    (w.contents ((restore cwd path force).run w.handler s).2).AgreeOn (.own cwd path true)
      (w.contents ((restore cwd path force).run w.handler t).2) := by
  have hpermits : Permits (fun op => P op ∧ op.ReadsIn (.own cwd path true) ∧ op ≠ .isCancelled)
      cwd path (w.contents s) := by
    refine ⟨⟨hP.fetch, ⟨rfl, rfl⟩, fun h => by cases h⟩, fun hsome => ?_⟩
    obtain ⟨hload, hstore, hdrop⟩ := hP.file hsome
    exact ⟨⟨hload, rfl, fun h => by cases h⟩,
      fun text => ⟨hstore text, trivial, fun h => by cases h⟩,
      ⟨hdrop, trivial, fun h => by cases h⟩⟩
  have hasks := (h.always_restore hpermits force []).imp fun _ _ _ _ => trivial
  exact (stops_restore cwd path force).agreeOn_run hw hs ht hasks hagree

/-- In a fair workspace a file ends up as if it had been restored alone. -/
theorem AllEntries.agreeOn_alone {S : Set σ} (hw : w.Fair P S) {t : σ} (hs : s ∈ S) (ht : t ∈ S)
    (h : AllEntries cwd (w.contents s).blob) {before after : List Text}
    (hP : ∀ t ∈ before ++ path :: after, Permits P cwd t (w.contents s))
    (hothers : ∀ t ∈ before ++ after, Path.absolute cwd t ≠ Path.absolute cwd path)
    (hagree : (w.contents s).AgreeOn (.own cwd path true) (w.contents t)) :
    (w.contents ((restoreEach cwd force (before ++ path :: after)).run w.handler s).2).AgreeOn
      (.own cwd path true) (w.contents ((restore cwd path force).run w.handler t).2) := by
  have hapart : ∀ t, Path.absolute cwd t ≠ Path.absolute cwd path →
      (Footprint.own cwd path true).Apart (.own cwd t true) := by
    intro t hne
    refine ⟨?_, ?_⟩
    · rintro _ rfl heq
      exact hne (congrArg _ (Eq.symm heq))
    · rintro _ ⟨-, rfl⟩ ⟨-, heq⟩
      exact hne (keyOf_injective heq).symm
  induction before generalizing s with
  | nil =>
    -- the files after this one leave it as it is
    have hattempted := h.attempted_restore path force
    rw [List.nil_append, run_restoreEach_cons]
    refine ((hattempted.allEntries h).agreeOn_restoreEach fun t ht =>
      hapart t (hothers t ht)).trans ?_
    exact h.agreeOn_restore hw hs ht (hP path List.mem_cons_self) hagree
  | cons first before ih =>
    obtain ⟨hfirst, hrest⟩ := List.forall_mem_cons.1 hP
    obtain ⟨hne, hothers⟩ := List.forall_mem_cons.1 hothers
    have hattempted := h.attempted_restore first force
    have hmem : ((restore cwd first force).run w.handler s).2 ∈ S :=
      Job.run_mem hw.mem hs ((h.always_restore hfirst force []).imp fun _ _ _ _ => trivial)
    rw [List.cons_append, run_restoreEach_cons]
    -- the first file makes no difference to what restoring this one finds
    exact ih hmem (hattempted.allEntries h) (fun t ht => hattempted.permits (hrest t ht)) hothers
      ((hattempted.agreeOn (hapart first hne)).trans hagree)

/-! ### Restoring by force -/

theorem AllEntries.blob_revert (h : AllEntries cwd c.blob) (path : Text) :
    (c.revert cwd path).blob = Function.update c.blob (keyOf (Path.absolute cwd path)) none := by
  by_cases hblob : c.blob (keyOf (Path.absolute cwd path)) = none
  · rw [revert_of_none hblob, ← hblob, Function.update_eq_self]
  · obtain ⟨text, hholds⟩ := h.exists_holds hblob
    rw [revert_of_holds hholds]
    rfl

theorem AllEntries.revert (h : AllEntries cwd c.blob) (path : Text) :
    AllEntries cwd (c.revert cwd path).blob := by
  intro key blob hkey
  rw [h.blob_revert, Function.update_apply] at hkey
  split at hkey
  · cases hkey
  · exact h key blob hkey

/-- A path that is not its own absolute path has no snapshot under its own key. -/
theorem AllEntries.absolute_of_blob (h : AllEntries cwd c.blob)
    (hblob : c.blob (keyOf path) ≠ none) :
    Path.absolute cwd path = path := by
  obtain ⟨blob, hfound⟩ := Option.ne_none_iff_exists'.1 hblob
  obtain ⟨abs, -, -, hkey, habs, -, -⟩ := h _ _ hfound
  obtain rfl := keyOf_injective hkey
  exact habs

/-- If nothing fails, restoring by force restores one file after the other. -/
theorem AllEntries.contents_restoreEach (h : AllEntries cwd (w.contents s).blob)
    (hworks : ∀ event ∈ (restoreEach cwd true targets).events w.handler s, event.failed = false) :
    w.contents ((restoreEach cwd true targets).run w.handler s).2 =
      targets.foldl (Contents.revert cwd) (w.contents s) := by
  induction targets generalizing s with
  | nil => rfl
  | cons path rest ih =>
    rw [restoreEach, Job.events_bind, Job.events_bind, Job.events_pure, List.append_nil,
      List.forall_mem_append] at hworks
    have hattempted := h.attempted_restore path true
    rw [run_restoreEach_cons, List.foldl_cons, ← hattempted.eq_revert hworks.1]
    exact ih (hattempted.allEntries h) hworks.2

/-- Files that are restored have the text from their snapshot, other files are left. -/
theorem AllEntries.file_foldl_revert (h : AllEntries cwd c.blob)
    (howns : ∀ t ∈ targets, c.blob (keyOf (Path.absolute cwd t)) ≠ none → Path.absolute cwd t = t)
    (other : Text) :
    (targets.foldl (Contents.revert cwd) c).file other =
      if other ∈ targets then (c.original? other).or (c.file other) else c.file other := by
  induction targets generalizing c with
  | nil => rfl
  | cons path rest ih =>
    obtain ⟨hpath, hrest⟩ := List.forall_mem_cons.1 howns
    have howns' : ∀ t ∈ rest, (c.revert cwd path).blob (keyOf (Path.absolute cwd t)) ≠ none →
        Path.absolute cwd t = t := by
      intro t ht hsome
      refine hrest t ht fun hnone => hsome ?_
      rw [h.blob_revert, Function.update_apply]
      split
      · rfl
      · exact hnone
    -- the path stands for its absolute path, or there is no snapshot for either
    have hsame : c.blob (keyOf (Path.absolute cwd path)) = c.blob (keyOf path) := by
      by_cases hown : Path.absolute cwd path = path
      · rw [hown]
      · rw [not_ne_iff.1 (mt hpath hown), not_ne_iff.1 (mt h.absolute_of_blob hown)]
    rw [List.foldl_cons, ih (h.revert path) howns', file_revert, original?, original?, original?,
      h.blob_revert, hsame, Function.update_apply]
    by_cases heq : other = path
    · subst heq
      by_cases hown : Path.absolute cwd other = other
      · simp [hown]
      · have hnone := not_ne_iff.1 (mt h.absolute_of_blob hown)
        simp [hnone]
    · have hblob : (if keyOf other = keyOf (Path.absolute cwd path) then none
          else c.blob (keyOf other)) = c.blob (keyOf other) := by
        split
        · rename_i hkey
          obtain rfl := keyOf_injective hkey
          exact (not_ne_iff.1 (mt hpath heq)).symm
        · rfl
      rw [hblob]
      simp [heq]

/-- No snapshot is left of files that are restored. -/
theorem AllEntries.blob_foldl_revert (h : AllEntries cwd c.blob) {key : Text}
    (hkey : c.blob key = none ∨ ∃ t ∈ targets, key = keyOf (Path.absolute cwd t)) :
    (targets.foldl (Contents.revert cwd) c).blob key = none := by
  induction targets generalizing c with
  | nil =>
    obtain hnone | ⟨t, ht, -⟩ := hkey
    · exact hnone
    · cases ht
  | cons path rest ih =>
    rw [List.foldl_cons]
    refine ih (h.revert path) ?_
    rw [h.blob_revert, Function.update_apply]
    by_cases hown : key = keyOf (Path.absolute cwd path)
    · exact .inl (if_pos hown)
    · rw [if_neg hown]
      refine hkey.imp_right ?_
      rintro ⟨t, ht, rfl⟩
      rcases List.mem_cons.1 ht with rfl | hrest
      · exact absurd rfl hown
      · exact ⟨t, hrest, rfl⟩

end Vault

/-! ### Sessions that restore -/

omit [Snapshot.Format] in
@[simp] theorem SessionOp.run_perform (h : Handler sessionInterface σ) (op : SessionOp) (s : σ) :
    op.perform.run h s = h op s := rfl

/-- What a session does with the operations of a workspace that has its store in a folder. -/
def Handler.work (h : Handler sessionInterface σ) (folder : Text) : Handler workInterface σ :=
  fun (op : WorkOp) => h (.work folder op)

/-- What a session does with the operations of a disk. -/
def Handler.disk (h : Handler sessionInterface σ) : Handler diskInterface σ :=
  fun (op : DiskOp) => h (.disk op)

omit [Snapshot.Format] in
theorem Job.run_inSession (h : Handler sessionInterface σ) (j : DiskJob α) (s : σ) :
    j.inSession.run h s = j.run h.disk s :=
  Job.run_expand _ _ _ _

omit [Snapshot.Format] in
theorem Job.run_withArchive (h : Handler sessionInterface σ) (folder : Text) (j : WorkJob α)
    (s : σ) : (j.withArchive folder).run h s = j.run (h.work folder) s :=
  Job.run_expand _ _ _ _

namespace Config

variable {c : Config} {cwd : Text} {s : σ}

/-- The files that a session attempts which restores everything. -/
def everything (c : Config) (cwd : Text) (known : List Text) : List Text :=
  known ++ c.targets.filter fun t => !known.contains (Path.absolute cwd t)

omit [Snapshot.Format] in
/-- A session that restores everything lists all files that have a snapshot. -/
theorem run_restoreTargets_of_keys (h : Handler workInterface σ) (hall : c.restoreAll = true)
    {keys : List Text} (hkeys : (h (.keysWith Vault.lead) s).1 = .ok keys) (cwd : Text) :
    (c.restoreTargets cwd).run h s =
      (.ok (c.everything cwd (Text.sort (keys.map Vault.pathOf))),
        (h (.keysWith Vault.lead) s).2) := by
  rw [restoreTargets, hall]
  simp only [Bool.not_true, Bool.false_eq_true, if_false]
  rw [Job.run_monad_bind, Vault.run_paths_of_keys h hkeys]
  rfl

theorem run_undo (h : Handler sessionInterface σ) (harchive : c.archive ≠ []) {s' : σ}
    (hopened : h (.openArchive c.archive) s = (.ok (), s')) (cwd : Text) (force : Bool) :
    (c.undo cwd force).run h s =
      (c.restoreFiles cwd force).run (h.work c.archive) s' := by
  rw [undo, if_neg harchive, Job.run_monad_bind, SessionJob.openArchive, SessionOp.run_perform,
    hopened]
  exact Job.run_withArchive h c.archive _ s'

/-- A session that is prepared opens the store and restores the files. -/
theorem run_restore (h : Handler sessionInterface σ) (hprepared : c.prepared = true)
    (harchive : c.archive ≠ []) {s' : σ}
    (hopened : h (.openArchive c.archive) s = (.ok (), s')) (cwd : Text) (force : Bool) :
    (c.restore cwd force).run h s =
      ((((c.restoreFiles cwd force).run (h.work c.archive) s').1,
        { c with restoring := true }),
        ((c.restoreFiles cwd force).run (h.work c.archive) s').2) := by
  have hready : ({ c with restoring := true } : Config).ready =
      pure (.ok (), { c with restoring := true }) :=
    if_pos hprepared
  have hundo : (({ c with restoring := true } : Config).undo cwd force).run h s =
      (c.restoreFiles cwd force).run (h.work c.archive) s' :=
    run_undo (c := { c with restoring := true }) h harchive hopened cwd force
  rw [restore, hready]
  change (({ c with restoring := true } : Config).undo cwd force >>= fun account =>
    pure (account, { c with restoring := true })).run h s = _
  rw [Job.run_monad_bind, hundo, Job.run_pure]

/-- A session restores the files that it has listed. -/
theorem run_restoreFiles_of_listed (h : Handler workInterface σ) {targets : List Text} {s' : σ}
    (hlisted : (c.restoreTargets cwd).run h s = (.ok targets, s')) (force : Bool) :
    let each := (Vault.restoreEach cwd force targets).run h s'
    ((c.restoreFiles cwd force).run h s).2 = each.2 ∧
      ((c.restoreFiles cwd force).run h s).1.errors = (Account.ofRestored each.1).errors ∧
      (targets ≠ [] → ((c.restoreFiles cwd force).run h s).1 = .ofRestored each.1) ∧
      (c.restoreFiles cwd force).events h s = (c.restoreTargets cwd).events h s ++
        (Vault.restoreEach cwd force targets).events h s' := by
  rw [restoreFiles, Job.run_monad_bind, Job.events_bind, hlisted]
  cases targets with
  | nil => exact ⟨rfl, rfl, fun hne => absurd rfl hne, rfl⟩
  | cons path rest =>
    simp only [Job.run_monad_bind, Job.run_pure, Job.events_bind, Job.events_pure, List.append_nil]
    exact ⟨trivial, trivial, fun _ => trivial, trivial⟩

end Config

end Reroute
