import Reroute.Proofs.Interleaving

/-!
# Paths that lead to the same file

On a disk with links two different paths may lead to one file. Storing a file under one of them then
changes what is found under the other, and a workspace in which every path has a file of its own
says nothing about such a disk.

But a job that keeps to paths of which no two lead to the same file does not notice the links. It
runs as in the workspace that has nothing but those paths, and so whatever holds in every workspace
holds of it. Beyond its own paths it changes only those that lead to one of its files. A job that
keeps to a single path is always such a job.

## Main definitions

* `LinkedWorkspace` — handlers under which paths may share their files
* `LinkedWorkspace.Apart` — paths of which no two share a file
* `LinkedWorkspace.view` — the workspace that has nothing but some paths

## Main results

* `LinkedWorkspace.run_view` — a job that keeps to such paths runs as in the workspace that has them
* `LinkedWorkspace.steady_view` — that workspace is steady if the linked one is
* `LinkedWorkspace.ends_of_view` — jobs that take turns end as in that workspace
-/

namespace Reroute

variable {σ α β : Type}

/-! ### Workspaces with links -/

/-- What an operation may answer and do if a path may share its file with others. A file that was
stored has its text, and paths that do not share it have what they had. -/
def WorkOp.MayShare (shares : Text → Text → Prop) (c c' : Contents) :
    (op : WorkOp) → op.Answer → Prop
  | .store path text, .ok () =>
    c'.file path = some text ∧ (∀ other, ¬ shares path other → c'.file other = c.file other) ∧
      c'.blob = c.blob
  | op, answer => op.May c c' answer

/-- Sharing makes no difference to an operation that stores nothing. -/
theorem WorkOp.MayShare.may {shares : Text → Text → Prop} {c c' : Contents} {op : WorkOp}
    {answer : op.Answer} (h : op.MayShare shares c c' answer)
    (hstore : ∀ path text, op ≠ .store path text) : op.May c c' answer := by
  cases op with
  | store path text => exact absurd rfl (hstore path text)
  | _ => exact h

/-- A workspace in which several paths may lead to one file. An operation may put an end to that, as
when a file takes the place of a link, but no operation links paths. -/
structure LinkedWorkspace (σ : Type) where
  handler : Handler workInterface σ
  contents : σ → Contents
  /-- What is stored under the first path is found under the second one. -/
  Shares : σ → Text → Text → Prop
  shares_handler : ∀ (op : WorkOp) (s : σ) (path other : Text),
    Shares (handler op s).2 path other → Shares s path other
  may : ∀ (op : WorkOp) (s : σ),
    op.MayShare (Shares s) (contents s) (contents (handler op s).2) (handler op s).1

/-- In a workspace without links every path has a file of its own. -/
def Workspace.unlinked (w : Workspace σ) : LinkedWorkspace σ where
  handler := w.handler
  contents := w.contents
  Shares _ := Eq
  shares_handler _ _ _ _ := id
  may op s := by
    have hmay := w.may op s
    cases op with
    | store path text =>
      cases hanswer : (w.handler (.store path text) s).1 with
      | error e => rwa [hanswer] at hmay
      | ok _ =>
        rw [hanswer] at hmay
        rw [WorkOp.MayShare, hmay]
        refine ⟨Function.update_self .., fun other hne => ?_, rfl⟩
        exact Function.update_of_ne (Ne.symm hne) _ _
    | _ => exact hmay

/-- The answer to an operation that is not carried out. -/
def WorkOp.refusal : (op : WorkOp) → op.Answer
  | .isCancelled => false
  | .load _ => .error .missing
  | .store _ _ => .error .missing
  | .fetch _ => .error (.refused [])
  | .keep _ _ => .error (.refused [])
  | .drop _ => .error (.refused [])
  | .keysWith _ => .error (.refused [])

theorem WorkOp.may_refusal (op : WorkOp) (c : Contents) : op.May c c op.refusal := by
  cases op <;> rfl

/-- An operation that stores nothing leaves the files. -/
theorem WorkOp.May.file_eq {c c' : Contents} {op : WorkOp} {answer : op.Answer}
    (h : op.May c c' answer) (hstore : ∀ path text, op ≠ .store path text) : c'.file = c.file := by
  rw [WorkEvent.eq_effect_of_may h]
  cases op with
  | store path text => exact absurd rfl (hstore path text)
  | keep key blob => cases answer <;> rfl
  | drop key => cases answer <;> rfl
  | _ => rfl

theorem Job.Only.asks {P : WorkOp → Prop} {R : α → Prop} {j : WorkJob α} (hj : j.Only P R)
    (c : Contents) : j.Asks P c :=
  (hj.always [] c).imp fun _ _ _ _ => trivial

/-! ### The workspace of some paths -/

open Classical in
/-- The contents as far as some paths go. -/
noncomputable def Contents.restrict (c : Contents) (paths : Set Text) : Contents where
  file path := if path ∈ paths then c.file path else none
  blob := c.blob

theorem Contents.file_restrict {c : Contents} {paths : Set Text} {path : Text} (h : path ∈ paths) :
    (c.restrict paths).file path = c.file path :=
  if_pos h

theorem Contents.file_restrict_of_not_mem {c : Contents} {paths : Set Text} {path : Text}
    (h : path ∉ paths) : (c.restrict paths).file path = none :=
  if_neg h

/-- An operation that stores nothing, as far as some paths go. -/
theorem WorkOp.May.restrict {c c' : Contents} {op : WorkOp} {answer : op.Answer}
    (h : op.May c c' answer) {paths : Set Text} (hop : op.FilesIn paths)
    (hstore : ∀ path text, op ≠ .store path text) :
    op.May (c.restrict paths) (c'.restrict paths) answer := by
  classical
  exact h.refile (fun file path => if path ∈ paths then file path else none) hop
    (fun _ hpath => if_pos hpath) hstore

/-- A file that is stored, as far as some paths go that do not share it. -/
theorem Contents.restrict_of_stored {c c' : Contents} {paths : Set Text} {path text : Text}
    (hpath : path ∈ paths) (hfile : c'.file path = some text) (hblob : c'.blob = c.blob)
    (hothers : ∀ other ∈ paths, other ≠ path → c'.file other = c.file other) :
    c'.restrict paths = (c.restrict paths).write path text := by
  have hfiles : (c'.restrict paths).file = ((c.restrict paths).write path text).file := by
    funext other
    rw [file_write, Function.update_apply]
    by_cases hother : other ∈ paths
    · rw [file_restrict hother, file_restrict hother]
      split
      · rename_i heq
        rw [heq, hfile]
      · rename_i hne
        exact hothers other hother hne
    · have hne : other ≠ path := fun heq => hother (heq ▸ hpath)
      rw [file_restrict_of_not_mem hother, file_restrict_of_not_mem hother, if_neg hne]
  exact Contents.ext hfiles hblob

namespace LinkedWorkspace

variable (w : LinkedWorkspace σ) {paths : Set Text} {s : σ}

/-- No two of some paths lead to the same file. -/
def Apart (s : σ) (paths : Set Text) : Prop :=
  ∀ path ∈ paths, ∀ other ∈ paths, w.Shares s path other → path = other

open Classical in
/-- What the operations do as far as some paths go. Others are refused. -/
noncomputable def viewed (paths : Set Text) : Handler workInterface σ := fun (op : WorkOp) s =>
  if w.Apart s paths ∧ op.FilesIn paths then w.handler op s else (op.refusal, s)

theorem viewed_of_apart (hs : w.Apart s paths) {op : WorkOp} (hop : op.FilesIn paths) :
    w.viewed paths op s = w.handler op s :=
  if_pos ⟨hs, hop⟩

theorem viewed_of_not_filesIn {op : WorkOp} (hop : ¬ op.FilesIn paths) :
    w.viewed paths op s = (op.refusal, s) :=
  if_neg fun hguard => hop hguard.2

/-- A single path has no other to share its file with. -/
theorem apart_singleton (s : σ) (path : Text) : w.Apart s {path} := by
  rintro _ rfl _ rfl _
  rfl

theorem Apart.mono {s s' : σ} (hs : w.Apart s paths)
    (h : ∀ path other, w.Shares s' path other → w.Shares s path other) : w.Apart s' paths :=
  fun path hpath other hother hshares => hs path hpath other hother (h path other hshares)

theorem apart_handler (hs : w.Apart s paths) (op : WorkOp) : w.Apart (w.handler op s).2 paths :=
  hs.mono w (w.shares_handler op s)

/-- Among states in which no two of the paths share a file, an operation is carried out or leaves
the state. -/
theorem viewed_mem {S : Set σ} (paths : Set Text) {op : WorkOp} (hs : s ∈ S ∧ w.Apart s paths)
    (hmem : (w.handler op s).2 ∈ S) :
    (w.viewed paths op s).2 ∈ {s | s ∈ S ∧ w.Apart s paths} := by
  by_cases hop : op.FilesIn paths
  · rw [w.viewed_of_apart hs.2 hop]
    exact ⟨hmem, w.apart_handler hs.2 op⟩
  · rw [w.viewed_of_not_filesIn hop]
    exact hs

theorem viewed_may (paths : Set Text) (op : WorkOp) (s : σ) :
    op.May ((w.contents s).restrict paths) ((w.contents (w.viewed paths op s).2).restrict paths)
      (w.viewed paths op s).1 := by
  rw [viewed]
  split
  · rename_i hguard
    obtain ⟨hs, hop⟩ := hguard
    have hmay := w.may op s
    generalize w.handler op s = answer at hmay ⊢
    obtain ⟨answer, s'⟩ := answer
    cases op with
    | store path text =>
      cases answer with
      | error e => exact congrArg (Contents.restrict · paths) hmay
      | ok _ =>
        -- no other of the paths leads to the file that was stored
        refine Contents.restrict_of_stored hop hmay.1 hmay.2.2 fun other hother hne => ?_
        exact hmay.2.1 other fun hshares => hne (hs path hop other hother hshares).symm
    | _ => exact (hmay.may (by simp)).restrict hop (by simp)
  · exact op.may_refusal _

/-- The workspace that has nothing but some paths. -/
noncomputable def view (paths : Set Text) : Workspace σ where
  handler := w.viewed paths
  contents s := (w.contents s).restrict paths
  may := w.viewed_may paths

theorem file_view {path : Text} (h : path ∈ paths) (s : σ) :
    ((w.view paths).contents s).file path = (w.contents s).file path :=
  Contents.file_restrict h

theorem blob_view (paths : Set Text) (s : σ) :
    ((w.view paths).contents s).blob = (w.contents s).blob := rfl

/-- An operation leaves the paths that do not share the file that it is about. -/
theorem file_handler {op : WorkOp} (hop : op.FilesIn paths) {other : Text}
    (hother : ∀ path ∈ paths, ¬ w.Shares s path other) :
    (w.contents (w.handler op s).2).file other = (w.contents s).file other := by
  have hmay := w.may op s
  generalize w.handler op s = answer at hmay ⊢
  obtain ⟨answer, s'⟩ := answer
  cases op with
  | store path text =>
    cases answer with
    | error e => exact congrArg (·.file other) hmay
    | ok _ => exact hmay.2.1 other (hother path hop)
  | _ => exact congrFun ((hmay.may (by simp)).file_eq (by simp)) other

/-- A job that keeps to paths of which no two share a file runs as in the workspace that has nothing
else. It leaves the paths that do not share a file with one of them. -/
theorem run_view (hs : w.Apart s paths) {j : WorkJob α}
    (hj : j.Asks (WorkOp.FilesIn paths) ((w.contents s).restrict paths)) :
    j.run (w.view paths).handler s = j.run w.handler s ∧
      j.events (w.view paths).handler s = j.events w.handler s ∧
      (∀ path other, w.Shares (j.run w.handler s).2 path other → w.Shares s path other) ∧
      ∀ other, (∀ path ∈ paths, ¬ w.Shares s path other) →
        (w.contents (j.run w.handler s).2).file other = (w.contents s).file other := by
  induction j generalizing s with
  | done a => exact ⟨rfl, rfl, fun _ _ => id, fun _ _ => rfl⟩
  | ask op next ih =>
    -- the first operation keeps to the paths, so the view lets it through
    obtain ⟨hop, hnext⟩ := Job.asks_ask_iff.1 hj
    have hstep : (w.view paths).handler op s = w.handler op s := w.viewed_of_apart hs hop
    have hmay := (w.view paths).may op s
    rw [hstep] at hmay
    obtain ⟨hrun, hevents, hshares, hfile⟩ :=
      ih _ (w.apart_handler hs op) (hnext (w.handler op s).1 _ hmay)
    rw [Job.run_ask, Job.run_ask, Job.events, Job.events, hstep]
    -- links only end, so what shares a file later has shared it from the start
    refine ⟨hrun, congrArg _ hevents, fun path other h => ?_, fun other hother => ?_⟩
    · exact w.shares_handler op s path other (hshares path other h)
    · rw [hfile other fun path hpath h => hother path hpath (w.shares_handler op s path other h),
        w.file_handler hop hother]

/-- A job that keeps to one path runs as in the workspace that has no other, and it leaves the paths
that do not share its file. -/
theorem run_view_singleton {path : Text} {R : α → Prop} {j : WorkJob α}
    (hj : j.Only (WorkOp.FilesIn {path}) R) (s : σ) :
    j.run (w.view {path}).handler s = j.run w.handler s ∧
      j.events (w.view {path}).handler s = j.events w.handler s ∧
      ∀ other, ¬ w.Shares s path other →
        (w.contents (j.run w.handler s).2).file other = (w.contents s).file other := by
  obtain ⟨hrun, hevents, -, hothers⟩ := w.run_view (w.apart_singleton s path)
    (hj.asks ((w.contents s).restrict {path}))
  refine ⟨hrun, hevents, fun other hother => hothers other ?_⟩
  rintro _ rfl
  exact hother

end LinkedWorkspace

/-! ### Steady answers -/

/-- What is looked at through some paths. -/
def Footprint.restrict (F : Footprint) (paths : Set Text) : Footprint := ⟨F.files ∩ paths, F.keys⟩

theorem WorkOp.ReadsIn.restrict {F : Footprint} {paths : Set Text} {op : WorkOp}
    (h : op.ReadsIn F) (hop : op.FilesIn paths) : op.ReadsIn (F.restrict paths) := by
  cases op with
  | load path => exact ⟨h, hop⟩
  | _ => exact h

theorem Contents.AgreeOn.restrict {F : Footprint} {c c' : Contents} (h : c.AgreeOn F c')
    (paths : Set Text) : (c.restrict paths).AgreeOn F (c'.restrict paths) := by
  refine ⟨fun path hpath => ?_, h.2⟩
  simp only [Contents.restrict, h.1 path hpath]

theorem Contents.AgreeOn.of_restrict {F : Footprint} {paths : Set Text} {c c' : Contents}
    (h : (c.restrict paths).AgreeOn F (c'.restrict paths)) :
    c.AgreeOn (F.restrict paths) c' := by
  refine ⟨fun path hpath => ?_, h.2⟩
  have hfile := h.1 path hpath.1
  rwa [file_restrict hpath.2, file_restrict hpath.2] at hfile

/-- Contents that agree as far as some paths go agree on a footprint among them. -/
theorem Contents.AgreeOn.of_restrict_of_subset {F : Footprint} {paths : Set Text} {c c' : Contents}
    (h : (c.restrict paths).AgreeOn F (c'.restrict paths)) (hF : F.files ⊆ paths) :
    c.AgreeOn F c' :=
  ⟨fun path hpath => h.of_restrict.1 path ⟨hpath, hF hpath⟩, h.2⟩

namespace LinkedWorkspace

variable {w : LinkedWorkspace σ} {S : Set σ}

/-- The workspace that has nothing but some paths is steady if the linked one is. -/
theorem steady_view (hw : w.handler.Steady w.contents S) (paths : Set Text) :
    (w.view paths).Steady {s | s ∈ S ∧ w.Apart s paths} where
  mem op _ hs := w.viewed_mem paths hs (hw.mem op _ hs.1)
  answer_eq := by
    rintro F op hreads s ⟨hs, hapart⟩ t ⟨ht, hapart'⟩ hagree
    change (w.viewed paths op s).1 = (w.viewed paths op t).1
    by_cases hop : op.FilesIn paths
    · rw [w.viewed_of_apart hapart hop, w.viewed_of_apart hapart' hop]
      exact hw.answer_eq _ op (hreads.restrict hop) s hs t ht hagree.of_restrict
    · rw [w.viewed_of_not_filesIn hop, w.viewed_of_not_filesIn hop]

end LinkedWorkspace

/-! ### Taking turns -/

namespace Pool

/-- A turn depends on nothing but what the handler does with the operations that come next. -/
theorem Step.congr {h h' : Handler workInterface σ} {pool pool' : Pool σ α}
    (hstep : Step h pool pool')
    (hsame : ∀ (op : WorkOp) next, .ask op next ∈ pool.jobs → h op pool.state = h' op pool.state) :
    Step h' pool pool' := by
  induction hstep with
  | @head s op next jobs =>
    rw [hsame op next List.mem_cons_self]
    exact .head
  | tail _ ih => exact .tail (ih fun op next hmem => hsame op next (List.mem_cons_of_mem _ hmem))

/-- A turn is one operation, and the jobs keep to what they keep to. -/
theorem Step.only {h : Handler workInterface σ} {P : WorkOp → Prop} {R : α → Prop}
    {pool pool' : Pool σ α} (hstep : Step h pool pool') (hjobs : ∀ j ∈ pool.jobs, j.Only P R) :
    (∃ op : WorkOp, P op ∧ pool'.state = (h op pool.state).2) ∧ ∀ j ∈ pool'.jobs, j.Only P R := by
  induction hstep with
  | @head s op next jobs =>
    obtain ⟨hfirst, hrest⟩ := List.forall_mem_cons.1 hjobs
    exact ⟨⟨op, hfirst.1, rfl⟩, List.forall_mem_cons.2 ⟨hfirst.2 _, hrest⟩⟩
  | tail _ ih =>
    obtain ⟨hfirst, hrest⟩ := List.forall_mem_cons.1 hjobs
    exact (ih hrest).imp_right fun hlater => List.forall_mem_cons.2 ⟨hfirst, hlater⟩

end Pool

namespace LinkedWorkspace

variable (w : LinkedWorkspace σ) {paths : Set Text}

/-- Jobs that keep to paths of which no two share a file take turns as in the workspace that has
nothing else, and they leave the paths that do not share a file with one of them. -/
theorem ends_of_view {Q : List α → σ → Prop} {R : α → Prop} {pool : Pool σ α}
    (hs : w.Apart pool.state paths) (hjobs : ∀ j ∈ pool.jobs, j.Only (WorkOp.FilesIn paths) R)
    (hends : Pool.Ends (w.view paths).handler Q pool) :
    Pool.Ends w.handler (fun outcomes s' => Q outcomes s' ∧ ∀ other,
      (∀ path ∈ paths, ¬ w.Shares pool.state path other) →
        (w.contents s').file other = (w.contents pool.state).file other) pool := by
  induction hends with
  | done outcomes hdone hQ => exact .done outcomes hdone ⟨hQ, fun _ _ => rfl⟩
  | @turn pool hbusy _ ih =>
    have hsame : ∀ (op : WorkOp) next, .ask op next ∈ pool.jobs →
        (w.view paths).handler op pool.state = w.handler op pool.state :=
      fun op next hmem => w.viewed_of_apart hs (hjobs _ hmem).1
    -- the view and the workspace offer the same turns
    refine .turn (hbusy.imp fun _ hstep => hstep.congr hsame) fun pool' hstep => ?_
    obtain ⟨⟨op, hop, hstate⟩, hjobs'⟩ := hstep.only hjobs
    have hs' : w.Apart pool'.state paths := hstate ▸ w.apart_handler hs op
    refine (ih pool' (hstep.congr fun op next hmem => (hsame op next hmem).symm) hs' hjobs').imp
      fun outcomes s' hmeets => ⟨hmeets.1, fun other hother => ?_⟩
    have hlater : ∀ path ∈ paths, ¬ w.Shares pool'.state path other := fun path hpath hshares =>
      hother path hpath (w.shares_handler op pool.state path other (hstate ▸ hshares))
    rw [hmeets.2 other hlater, hstate, w.file_handler hop hother]

end LinkedWorkspace

end Reroute
