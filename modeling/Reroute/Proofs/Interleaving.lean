import Mathlib.Data.List.Forall2
import Mathlib.Data.Set.Insert
import Mathlib.Logic.Relation
import Reroute.Proofs.Workspace

/-!
# Jobs that take turns

Jobs that share a workspace take turns in any order, one operation at a time. If each of them keeps
to files and keys that no other one uses, and the answers of the workspace depend on nothing but
what an operation reads, then the order makes no difference: each job ends as if it were alone.

The argument follows one job at a time. Next to every job stands its run alone; a turn of the job
takes both on by the same answer, and a turn of another job touches nothing that it will look at.

## Main definitions

* `Footprint` — files and keys that a job keeps to
* `Handler.Steady` — answers depend on nothing but what an operation reads
* `Pool`, `Pool.Step` — jobs that share a state, and a turn of one of them
* `Pool.Ends` — whatever the turns, the jobs come to an end, and then a condition holds
* `Pool.Separate` — the jobs have ended as if each had been alone

## Main results

* `Job.run_congr` — a job depends on nothing but what it reads
* `Pool.acc_shrinks` — no sequence of turns goes on forever
* `Pool.ends_separate` — jobs with disjoint footprints end as if each had been alone
* `Pool.Separate.unique` — which leaves one result only
-/

namespace Reroute

/-! ### Footprints -/

/-- Files and keys of a workspace. -/
structure Footprint where
  files : Set Text
  keys : Set Text

/-- Nothing is in both footprints. -/
def Footprint.Apart (F F' : Footprint) : Prop :=
  (∀ path ∈ F.files, path ∉ F'.files) ∧ ∀ key ∈ F.keys, key ∉ F'.keys

theorem Footprint.Apart.symm {F F' : Footprint} (h : F.Apart F') : F'.Apart F :=
  ⟨fun path hpath hpath' => h.1 path hpath' hpath, fun key hkey hkey' => h.2 key hkey' hkey⟩

/-- The contents are the same as far as a footprint goes. -/
def Contents.AgreeOn (F : Footprint) (c c' : Contents) : Prop :=
  (∀ path ∈ F.files, c.file path = c'.file path) ∧ ∀ key ∈ F.keys, c.blob key = c'.blob key

namespace Contents.AgreeOn

variable {F : Footprint} {c c' c'' : Contents}

theorem refl (c : Contents) : c.AgreeOn F c := ⟨fun _ _ => rfl, fun _ _ => rfl⟩

theorem symm (h : c.AgreeOn F c') : c'.AgreeOn F c :=
  ⟨fun path hpath => (h.1 path hpath).symm, fun key hkey => (h.2 key hkey).symm⟩

theorem trans (h : c.AgreeOn F c') (h' : c'.AgreeOn F c'') : c.AgreeOn F c'' :=
  ⟨fun path hpath => (h.1 path hpath).trans (h'.1 path hpath),
    fun key hkey => (h.2 key hkey).trans (h'.2 key hkey)⟩

end Contents.AgreeOn

namespace WorkOp

/-- What the operation looks at is in the footprint. No footprint is large enough for a listing. -/
def ReadsIn (F : Footprint) : WorkOp → Prop
  | .load path => path ∈ F.files
  | .fetch key => key ∈ F.keys
  | .keysWith _ => False
  | _ => True

/-- What the operation changes is in the footprint. -/
def WritesIn (F : Footprint) : WorkOp → Prop
  | .store path _ => path ∈ F.files
  | .keep key _ => key ∈ F.keys
  | .drop key => key ∈ F.keys
  | _ => True

/-- What the operation looks at and changes is in the footprint. -/
def Within (F : Footprint) (op : WorkOp) : Prop := op.ReadsIn F ∧ op.WritesIn F

end WorkOp

namespace WorkEvent

/-- What an operation with this answer does to the contents. -/
def effect (c : Contents) : WorkEvent → Contents
  | ⟨.store path text, .ok ()⟩ => c.write path text
  | ⟨.keep key blob, .ok ()⟩ => c.keep key blob
  | ⟨.drop key, .ok ()⟩ => c.drop key
  | _ => c

/-- What an operation does is in its answer. -/
theorem eq_effect_of_may {c c' : Contents} {op : WorkOp} {answer : op.Answer}
    (h : op.May c c' answer) : c' = effect c ⟨op, answer⟩ := by
  cases op with
  | isCancelled => exact h
  | load path =>
    cases answer with
    | error e => exact h
    | ok text => exact h.1
  | fetch key =>
    cases answer with
    | error e => exact h
    | ok blob => exact h.1
  | keysWith lead =>
    cases answer with
    | error e => exact h
    | ok keys => exact h.1
  | store path text =>
    cases answer with
    | error e => exact h
    | ok _ => exact h
  | keep key blob =>
    cases answer with
    | error e => exact h
    | ok _ => exact h
  | drop key =>
    cases answer with
    | error e => exact h
    | ok _ => exact h

private theorem update_congr {f g : Text → Option Text} {A : Set Text} (key : Text)
    (value : Option Text) (h : ∀ x ∈ A, f x = g x) :
    ∀ x ∈ A, Function.update f key value x = Function.update g key value x := by
  intro x hx
  rw [Function.update_apply, Function.update_apply, h x hx]

/-- The same effect on contents that agree. -/
theorem effect_congr {F : Footprint} {c c' : Contents} (event : WorkEvent)
    (h : c.AgreeOn F c') : (event.effect c).AgreeOn F (event.effect c') := by
  unfold effect
  split
  · exact ⟨update_congr _ _ h.1, h.2⟩
  · exact ⟨h.1, update_congr _ _ h.2⟩
  · exact ⟨h.1, update_congr _ _ h.2⟩
  · exact h

private theorem update_of_apart {f : Text → Option Text} {A B : Set Text} {key : Text}
    (value : Option Text) (hkey : key ∈ B) (h : ∀ x ∈ A, x ∉ B) :
    ∀ x ∈ A, Function.update f key value x = f x := by
  intro x hx
  have hne : x ≠ key := fun heq => h x hx (heq ▸ hkey)
  rw [Function.update_of_ne hne]

/-- An effect elsewhere. -/
theorem effect_agreeOn {F F' : Footprint} (c : Contents) (event : WorkEvent)
    (hop : event.1.WritesIn F') (h : F.Apart F') : (event.effect c).AgreeOn F c := by
  unfold effect
  split
  · exact ⟨update_of_apart _ hop h.1, fun _ _ => rfl⟩
  · exact ⟨fun _ _ => rfl, update_of_apart _ hop h.2⟩
  · exact ⟨fun _ _ => rfl, update_of_apart _ hop h.2⟩
  · exact .refl c

end WorkEvent

/-! ### Steady answers -/

variable {σ α : Type}

/-- Among some states, which no operation leads out of, an answer depends on nothing but what the
operation reads. So whether an operation fails depends on what is asked for, not on when. -/
structure Handler.Steady (h : Handler workInterface σ) (contents : σ → Contents) (S : Set σ) : Prop
    where
  mem : ∀ (op : WorkOp), ∀ s ∈ S, (h op s).2 ∈ S
  answer_eq : ∀ (F : Footprint) (op : WorkOp), op.ReadsIn F → ∀ s ∈ S, ∀ t ∈ S,
    (contents s).AgreeOn F (contents t) → (h op s).1 = (h op t).1

/-- The answers of a workspace are steady. -/
abbrev Workspace.Steady (w : Workspace σ) (S : Set σ) : Prop := w.handler.Steady w.contents S

namespace Workspace

variable {w : Workspace σ} {S : Set σ} {F F' : Footprint} {op : WorkOp} {s t : σ}

/-- An operation takes states that agree to states that agree. -/
theorem Steady.agreeOn (hw : w.Steady S) (hop : op.ReadsIn F) (hs : s ∈ S) (ht : t ∈ S)
    (h : (w.contents s).AgreeOn F (w.contents t)) :
    (w.contents (w.handler op s).2).AgreeOn F (w.contents (w.handler op t).2) := by
  rw [WorkEvent.eq_effect_of_may (w.may op s), WorkEvent.eq_effect_of_may (w.may op t),
    hw.answer_eq F op hop s hs t ht h]
  exact WorkEvent.effect_congr _ h

/-- An operation elsewhere changes nothing in a footprint. -/
theorem agreeOn_of_apart (w : Workspace σ) (hop : op.WritesIn F') (h : F.Apart F') (s : σ) :
    (w.contents (w.handler op s).2).AgreeOn F (w.contents s) := by
  rw [WorkEvent.eq_effect_of_may (w.may op s)]
  exact WorkEvent.effect_agreeOn _ _ hop h

end Workspace

namespace Memory

private theorem faults_guarded {m : Memory} (op : WorkOp) {answer : α × Memory}
    (h : answer.2.faults = m.faults) : (m.guarded op answer).2.faults = m.faults := by
  rw [guarded]
  split
  · rfl
  · exact h

private theorem fst_guarded {m m' : Memory} (op : WorkOp) {answer answer' : α × Memory}
    (hfaults : m'.faults = m.faults) (h : answer.1 = answer'.1) :
    (m.guarded op answer).1 = (m'.guarded op answer').1 := by
  rw [guarded, guarded, hfaults]
  split
  · rfl
  · exact congrArg Except.ok h

/-- The workspace in memory is steady as long as its faults do not change: loading a file may not be
what makes the user give up. -/
theorem steady {f : Faults} (hf : f.cancelOnLoad = false) :
    perform.Steady contents {m | m.faults = f} where
  mem := by
    rintro op m rfl
    cases op with
    | isCancelled => rfl
    | load path =>
      simp only [perform, hf, Bool.false_eq_true, if_false]
      split
      · rfl
      · split <;> rfl
    | store path text =>
      simp only [perform]
      split <;> rfl
    | fetch key => exact faults_guarded _ rfl
    | keep key blob => exact faults_guarded _ rfl
    | drop key => exact faults_guarded _ rfl
    | keysWith lead => exact faults_guarded _ rfl
  answer_eq := by
    rintro F op hop m rfl m' hfaults h
    replace hfaults : m'.faults = m.faults := hfaults
    cases op with
    | isCancelled => exact congrArg Faults.cancelled hfaults.symm
    | load path =>
      have hfile : m.files.find? path = m'.files.find? path := h.1 path hop
      simp only [perform, hf, hfaults, hfile, Bool.false_eq_true, if_false]
      split
      · rfl
      · split <;> rfl
    | store path text =>
      simp only [perform, hfaults]
      split <;> rfl
    | fetch key => exact fst_guarded _ hfaults (h.2 key hop)
    | keep key blob => exact fst_guarded _ hfaults rfl
    | drop key => exact fst_guarded _ hfaults rfl
    | keysWith lead => exact hop.elim

end Memory

namespace Job

/-- Whatever answers come, the operations of the job meet a condition. -/
def Asks (P : WorkOp → Prop) (j : WorkJob α) (c : Contents) : Prop :=
  j.Always (fun _ _ op => P op) (fun _ _ _ => True) [] c

/-- The events before make no difference to the operations that a job asks for. -/
theorem always_past_iff {P : WorkOp → Prop} {j : WorkJob α} {past past' : List WorkEvent}
    {c : Contents} : j.Always (fun _ _ op => P op) (fun _ _ _ => True) past c ↔
      j.Always (fun _ _ op => P op) (fun _ _ _ => True) past' c := by
  induction j generalizing past past' c with
  | done a => rfl
  | ask op next ih =>
    refine and_congr_right fun _ => forall_congr' fun answer => forall_congr' fun c' => ?_
    exact imp_congr_right fun _ => ih answer

theorem asks_ask_iff {P : WorkOp → Prop} {op : WorkOp} {next : op.Answer → WorkJob α}
    {c : Contents} : Asks P (.ask (I := workInterface) op next) c ↔
      P op ∧ ∀ answer c', op.May c c' answer → (next answer).Asks P c' := by
  refine and_congr_right fun _ => forall_congr' fun answer => forall_congr' fun c' => ?_
  exact imp_congr_right fun _ => always_past_iff

theorem Asks.mono {P Q : WorkOp → Prop} {j : WorkJob α} {c : Contents} (h : j.Asks P c)
    (hPQ : ∀ op, P op → Q op) : j.Asks Q c := by
  induction j generalizing c with
  | done a => trivial
  | ask op next ih =>
    obtain ⟨hop, hnext⟩ := asks_ask_iff.1 h
    exact asks_ask_iff.2 ⟨hPQ op hop, fun answer c' hmay => ih answer (hnext answer c' hmay)⟩

/-- A job depends on nothing but what it reads. -/
theorem run_congr {w : Workspace σ} {S : Set σ} (hw : w.Steady S) {F : Footprint} {j : WorkJob α}
    {s t : σ} (hs : s ∈ S) (ht : t ∈ S) (hj : j.Asks (WorkOp.ReadsIn F) (w.contents s))
    (h : (w.contents s).AgreeOn F (w.contents t)) :
    (j.run w.handler s).1 = (j.run w.handler t).1 ∧
      (w.contents (j.run w.handler s).2).AgreeOn F (w.contents (j.run w.handler t).2) := by
  induction j generalizing s t with
  | done a => exact ⟨rfl, h⟩
  | ask op next ih =>
    obtain ⟨hop, hnext⟩ := asks_ask_iff.1 hj
    -- both runs get the same answer, so they go on with the same job
    have hanswer := hw.answer_eq F op hop s hs t ht h
    have hlater := ih _ (hw.mem op s hs) (hw.mem op t ht) (hnext _ _ (w.may op s))
      (hw.agreeOn hop hs ht h)
    rw [run_ask, run_ask]
    rwa [hanswer] at hlater ⊢

end Job

/-! ### Pools -/

/-- Jobs that share a state. -/
structure Pool (σ α : Type) where
  state : σ
  jobs : List (WorkJob α)

namespace Pool

/-- One of the jobs takes its turn: it asks for one operation. -/
inductive Step (h : Handler workInterface σ) : Pool σ α → Pool σ α → Prop
  | head {s : σ} {op : WorkOp} {next : op.Answer → WorkJob α} {jobs : List (WorkJob α)} :
    Step h ⟨s, .ask op next :: jobs⟩ ⟨(h op s).2, next (h op s).1 :: jobs⟩
  | tail {s s' : σ} {j : WorkJob α} {jobs jobs' : List (WorkJob α)}
    (hstep : Step h ⟨s, jobs⟩ ⟨s', jobs'⟩) : Step h ⟨s, j :: jobs⟩ ⟨s', j :: jobs'⟩

/-- Whatever the turns, the jobs come to an end, and then their results and the state meet a
condition. -/
inductive Ends (h : Handler workInterface σ) (Q : List α → σ → Prop) : Pool σ α → Prop
  | done {pool : Pool σ α} (outcomes : List α) (hdone : pool.jobs = outcomes.map .done)
    (hQ : Q outcomes pool.state) : Ends h Q pool
  | turn {pool : Pool σ α} (hbusy : ∃ pool', Step h pool pool')
    (hnext : ∀ pool', Step h pool pool' → Ends h Q pool') : Ends h Q pool

variable {h : Handler workInterface σ} {Q : List α → σ → Prop}

/-- Jobs that are done take no turns. -/
theorem not_step_done {s : σ} {pool : Pool σ α} :
    ∀ {outcomes : List α}, ¬Step h ⟨s, outcomes.map .done⟩ pool
  | [], hstep => nomatch hstep
  | _ :: _, .tail hstep => not_step_done hstep

/-- Some job can take a turn unless all are done. -/
theorem exists_step_or_done (s : σ) (jobs : List (WorkJob α)) :
    (∃ outcomes : List α, jobs = outcomes.map .done) ∨ ∃ pool, Step h ⟨s, jobs⟩ pool := by
  induction jobs with
  | nil => exact .inl ⟨[], rfl⟩
  | cons j jobs ih =>
    cases j with
    | ask op next => exact .inr ⟨_, .head⟩
    | done a =>
      rcases ih with ⟨outcomes, rfl⟩ | ⟨pool, hstep⟩
      · exact .inl ⟨a :: outcomes, rfl⟩
      · exact .inr ⟨_, .tail hstep⟩

/-- One of the jobs has gone on, by whatever answer. -/
inductive Shrinks : List (WorkJob α) → List (WorkJob α) → Prop
  | head {op : WorkOp} {next : op.Answer → WorkJob α} {answer : op.Answer}
    {jobs : List (WorkJob α)} : Shrinks (next answer :: jobs) (.ask op next :: jobs)
  | tail {j : WorkJob α} {jobs jobs' : List (WorkJob α)} (hless : Shrinks jobs' jobs) :
    Shrinks (j :: jobs') (j :: jobs)

theorem Step.shrinks {pool pool' : Pool σ α} (hstep : Step h pool pool') :
    Shrinks pool'.jobs pool.jobs := by
  induction hstep with
  | head => exact .head
  | tail _ ih => exact .tail ih

/-- Jobs cannot take turns forever. -/
theorem acc_shrinks (jobs : List (WorkJob α)) : Acc Shrinks jobs := by
  induction jobs with
  | nil => exact ⟨_, nofun⟩
  | cons j jobs ih =>
    -- the other jobs may go on too, so the induction on the job is for all of them
    induction j generalizing jobs with
    | done a =>
      induction ih with
      | intro jobs _ ih =>
        refine ⟨_, ?_⟩
        rintro _ (_ | hless)
        exact ih _ hless
    | ask op next ihNext =>
      induction ih with
      | intro jobs hjobs ih =>
        refine ⟨_, ?_⟩
        rintro _ (_ | hless)
        · exact ihNext _ jobs ⟨_, hjobs⟩
        · exact ih _ hless

/-- What every turn preserves holds when the jobs are done. -/
theorem ends_of_invariant {P : Pool σ α → Prop}
    (hstep : ∀ pool pool', P pool → Step h pool pool' → P pool')
    (hdone : ∀ s outcomes, P ⟨s, outcomes.map .done⟩ → Q outcomes s) {pool : Pool σ α}
    (hpool : P pool) : Ends h Q pool := by
  obtain ⟨s, jobs⟩ := pool
  induction acc_shrinks jobs generalizing s with
  | intro jobs _ ih =>
    rcases exists_step_or_done s jobs with ⟨outcomes, rfl⟩ | hbusy
    · exact .done outcomes rfl (hdone s outcomes hpool)
    · refine .turn hbusy fun pool' hturn => ?_
      exact ih _ hturn.shrinks _ (hstep _ _ hpool hturn)

theorem Ends.imp {Q' : List α → σ → Prop} {pool : Pool σ α} (hends : Ends h Q pool)
    (hQ : ∀ outcomes s, Q outcomes s → Q' outcomes s) : Ends h Q' pool := by
  induction hends with
  | done outcomes hdone hmeets => exact .done outcomes hdone (hQ _ _ hmeets)
  | turn hbusy _ ih => exact .turn hbusy ih

/-- What holds at every end holds at an end that was reached. -/
theorem Ends.of_reaches {pool : Pool σ α} {s : σ} {outcomes : List α} (hends : Ends h Q pool)
    (hreach : Relation.ReflTransGen (Step h) pool ⟨s, outcomes.map .done⟩) : Q outcomes s := by
  induction hends with
  | @done pool outcomes' hdone hmeets =>
    obtain ⟨state, jobs⟩ := pool
    subst hdone
    rcases hreach.cases_head with heq | ⟨pool', hstep, _⟩
    · obtain ⟨rfl, hsame⟩ := Pool.mk.inj heq
      have hinj : Function.Injective (Job.done : α → WorkJob α) := fun _ _ => Job.done.inj
      rwa [hinj.list_map hsame] at hmeets
    · exact absurd hstep not_step_done
  | turn hbusy _ ih =>
    rcases hreach.cases_head with rfl | ⟨pool', hstep, hrest⟩
    · obtain ⟨_, hstep⟩ := hbusy
      exact absurd hstep not_step_done
    · exact ih pool' hstep hrest

/-! ### One after the other -/

theorem reaches_tail {s s' : σ} {j : WorkJob α} {jobs jobs' : List (WorkJob α)}
    (hreach : Relation.ReflTransGen (Step h) ⟨s, jobs⟩ ⟨s', jobs'⟩) :
    Relation.ReflTransGen (Step h) ⟨s, j :: jobs⟩ ⟨s', j :: jobs'⟩ := by
  let behind (pool : Pool σ α) : Pool σ α := ⟨pool.state, j :: pool.jobs⟩
  exact hreach.lift behind fun _ _ hstep => .tail hstep

/-- The first job may take turns until it is done. -/
theorem reaches_head (s : σ) (j : WorkJob α) (jobs : List (WorkJob α)) :
    Relation.ReflTransGen (Step h) ⟨s, j :: jobs⟩ ⟨(j.run h s).2, .done (j.run h s).1 :: jobs⟩ := by
  induction j generalizing s with
  | done a => exact .refl
  | ask op next ih => exact .head .head (ih _ _)

/-! ### Jobs with disjoint footprints -/

section Separate

variable {w : Workspace σ} {S : Set σ}

/-- A job with the footprint that it keeps to. -/
abbrev Task (α : Type) := Footprint × WorkJob α

/-- The jobs have ended as if each had been alone, and what is in no footprint is as it was. -/
structure Separate (w : Workspace σ) (s : σ) (tasks : List (Task α)) (outcomes : List α)
    (s' : σ) : Prop where
  outcomes_eq : outcomes = tasks.map fun task => (task.2.run w.handler s).1
  agreeOn : ∀ task ∈ tasks,
    (w.contents s').AgreeOn task.1 (w.contents (task.2.run w.handler s).2)
  unchanged : ∀ F : Footprint, (∀ task ∈ tasks, F.Apart task.1) →
    (w.contents s').AgreeOn F (w.contents s)

/-- There is only one way to end as if each job had been alone. -/
theorem Separate.unique {s s₁ s₂ : σ} {tasks : List (Task α)} {outcomes₁ outcomes₂ : List α}
    (h₁ : Separate w s tasks outcomes₁ s₁) (h₂ : Separate w s tasks outcomes₂ s₂) :
    outcomes₁ = outcomes₂ ∧ w.contents s₁ = w.contents s₂ := by
  refine ⟨h₁.outcomes_eq.trans h₂.outcomes_eq.symm, ?_⟩
  have htask : ∀ task ∈ tasks, (w.contents s₁).AgreeOn task.1 (w.contents s₂) :=
    fun task hmem => (h₁.agreeOn task hmem).trans (h₂.agreeOn task hmem).symm
  have helse : ∀ F : Footprint, (∀ task ∈ tasks, F.Apart task.1) →
      (w.contents s₁).AgreeOn F (w.contents s₂) :=
    fun F hF => (h₁.unchanged F hF).trans (h₂.unchanged F hF).symm
  -- a file is in one of the footprints, or it is a footprint apart from all of them
  have hfile : (w.contents s₁).file = (w.contents s₂).file := by
    funext path
    by_cases hpath : ∃ task ∈ tasks, path ∈ task.1.files
    · obtain ⟨task, hmem, hin⟩ := hpath
      exact (htask task hmem).1 path hin
    · refine (helse ⟨{path}, ∅⟩ fun task hmem => ⟨?_, nofun⟩).1 path rfl
      rintro _ rfl hin
      exact hpath ⟨task, hmem, hin⟩
  have hblob : (w.contents s₁).blob = (w.contents s₂).blob := by
    funext key
    by_cases hkey : ∃ task ∈ tasks, key ∈ task.1.keys
    · obtain ⟨task, hmem, hin⟩ := hkey
      exact (htask task hmem).2 key hin
    · refine (helse ⟨∅, {key}⟩ fun task hmem => ⟨nofun, ?_⟩).2 key rfl
      rintro _ rfl hin
      exact hkey ⟨task, hmem, hin⟩
  exact Contents.ext hfile hblob

/-- What is left of a task is also left of it in a run alone, and the two states agree on the
footprint. -/
def Follows (w : Workspace σ) (S : Set σ) (start s : σ) (task : Task α) (j : WorkJob α) : Prop :=
  ∃ t ∈ S, j.run w.handler t = task.2.run w.handler start ∧
    j.Asks (WorkOp.Within task.1) (w.contents t) ∧ (w.contents s).AgreeOn task.1 (w.contents t)

/-- A turn of the task itself. -/
theorem Follows.turn (hw : w.Steady S) {start s : σ} {task : Task α} {op : WorkOp}
    {next : op.Answer → WorkJob α} (hs : s ∈ S)
    (hfollows : Follows w S start s task (.ask op next)) :
    op.WritesIn task.1 ∧
      Follows w S start (w.handler op s).2 task (next (w.handler op s).1) := by
  obtain ⟨t, ht, hrun, hasks, hagree⟩ := hfollows
  obtain ⟨hop, hnext⟩ := Job.asks_ask_iff.1 hasks
  have hanswer := hw.answer_eq task.1 op hop.1 s hs t ht hagree
  refine ⟨hop.2, (w.handler op t).2, hw.mem op t ht, ?_, ?_, hw.agreeOn hop.1 hs ht hagree⟩
  · rw [hanswer]
    exact hrun
  · rw [hanswer]
    exact hnext _ _ (w.may op t)

/-- A turn of another task. -/
theorem Follows.of_apart {start s : σ} {task : Task α} {j : WorkJob α} {F : Footprint}
    {op : WorkOp} (hfollows : Follows w S start s task j) (hop : op.WritesIn F)
    (hapart : task.1.Apart F) : Follows w S start (w.handler op s).2 task j := by
  obtain ⟨t, ht, hrun, hasks, hagree⟩ := hfollows
  exact ⟨t, ht, hrun, hasks, (w.agreeOn_of_apart hop hapart s).trans hagree⟩

/-- A turn leaves all tasks following their runs alone, and it changes nothing outside the footprint
of one of them. -/
theorem Step.follows (hw : w.Steady S) {start : σ} {tasks : List (Task α)}
    (hapart : tasks.Pairwise fun a b => a.1.Apart b.1) {pool pool' : Pool σ α}
    (hmem : pool.state ∈ S) (hpool : List.Forall₂ (Follows w S start pool.state) tasks pool.jobs)
    (hstep : Step w.handler pool pool') :
    List.Forall₂ (Follows w S start pool'.state) tasks pool'.jobs ∧
      ∃ op, pool'.state = (w.handler op pool.state).2 ∧ ∃ task ∈ tasks, op.WritesIn task.1 := by
  induction hstep generalizing tasks with
  | @head s op next jobs =>
    -- the first task goes on along its run, and the others do not notice
    obtain ⟨task, rest, hfirst, hrest, rfl⟩ := List.forall₂_cons_right_iff.1 hpool
    obtain ⟨hothers, -⟩ := List.pairwise_cons.1 hapart
    obtain ⟨hop, hturn⟩ := hfirst.turn hw hmem
    refine ⟨.cons hturn ?_, op, rfl, task, List.mem_cons_self, hop⟩
    refine ((List.forall₂_and_left _ _).2 ⟨hothers, hrest⟩).imp ?_
    exact fun _ _ hother => hother.2.of_apart hop hother.1.symm
  | @tail s s' j jobs jobs' hstep ih =>
    -- one of the others goes on, and the first task does not notice
    obtain ⟨task, rest, hfirst, hrest, rfl⟩ := List.forall₂_cons_right_iff.1 hpool
    obtain ⟨hothers, hpairs⟩ := List.pairwise_cons.1 hapart
    obtain ⟨hlater, op, hstate, other, hother, hop⟩ := ih hpairs hmem hrest
    refine ⟨.cons ?_ hlater, op, hstate, other, List.mem_cons_of_mem _ hother, hop⟩
    have hkeeps := hfirst.of_apart hop (hothers other hother)
    exact hstate ▸ hkeeps

/-- Tasks that are done have the results of their runs alone. -/
theorem outcomes_eq_of_follows {start s : σ} {tasks : List (Task α)} {outcomes : List α}
    (hpool : List.Forall₂ (Follows w S start s) tasks (outcomes.map .done)) :
    outcomes = (tasks.map fun task => (task.2.run w.handler start).1) ∧
      ∀ task ∈ tasks,
        (w.contents s).AgreeOn task.1 (w.contents (task.2.run w.handler start).2) := by
  rw [List.forall₂_map_right_iff] at hpool
  induction hpool with
  | nil => exact ⟨rfl, nofun⟩
  | cons hfirst _ ih =>
    obtain ⟨t, _, hrun, _, hagree⟩ := hfirst
    refine ⟨?_, List.forall_mem_cons.2 ⟨?_, ih.2⟩⟩
    · rw [List.map_cons, ← ih.1, ← hrun, Job.run_done]
    · rwa [← hrun]

/-- Jobs with disjoint footprints end as if each had been alone, whatever the turns. -/
theorem ends_separate (hw : w.Steady S) {s : σ} (hs : s ∈ S) {tasks : List (Task α)}
    (hapart : tasks.Pairwise fun a b => a.1.Apart b.1)
    (hasks : ∀ task ∈ tasks, task.2.Asks (WorkOp.Within task.1) (w.contents s)) :
    Ends w.handler (Separate w s tasks) ⟨s, tasks.map Prod.snd⟩ := by
  -- the invariant has a clause for what is in no footprint, which no task speaks of
  let Along (pool : Pool σ α) : Prop := pool.state ∈ S ∧
    List.Forall₂ (Follows w S s pool.state) tasks pool.jobs ∧
      ∀ F : Footprint, (∀ task ∈ tasks, F.Apart task.1) →
        (w.contents pool.state).AgreeOn F (w.contents s)
  have hstart : List.Forall₂ (Follows w S s s) tasks (tasks.map Prod.snd) := by
    rw [List.forall₂_map_right_iff, List.forall₂_same]
    exact fun task hmem => ⟨s, hs, rfl, hasks task hmem, .refl _⟩
  refine ends_of_invariant (P := Along) ?_ ?_ ⟨hs, hstart, fun _ _ => .refl _⟩
  · rintro pool pool' ⟨hmem, hpool, hrest⟩ hstep
    obtain ⟨hpool', op, hstate, task, htask, hop⟩ := hstep.follows hw hapart hmem hpool
    refine ⟨hstate ▸ hw.mem op _ hmem, hpool', fun F hF => ?_⟩
    rw [hstate]
    exact (w.agreeOn_of_apart hop (hF task htask) _).trans (hrest F hF)
  · rintro s' outcomes ⟨_, hpool, hrest⟩
    obtain ⟨houtcomes, hagree⟩ := outcomes_eq_of_follows hpool
    exact ⟨houtcomes, hagree, hrest⟩

end Separate

end Pool

end Reroute
