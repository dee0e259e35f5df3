import Mathlib.Logic.Function.Basic
import Reroute.Workspace

/-!
# Workspaces and what jobs do in them

Of a workspace only its contents matter: which text each file has and which blob stands under each
key. An operation either does to the contents what its name says, or it fails and leaves them as
they are; which of the two is not in the hands of a job. A workspace is any handler that keeps to
this, whatever it is made of. The workspace in memory is one, with any faults.

Jobs are reasoned about with a guard and a goal: whatever answers come, every operation that the job
asks for meets the guard, and its result meets the goal. Both may speak of the contents at that
moment and of the answers that came before.

## Main definitions

* `Contents` — the files and the blobs of a workspace
* `WorkOp.May` — what an operation may answer and do
* `Workspace` — handlers that keep to it
* `Job.events` — the operations of a run with their answers
* `Job.Always` — a job meets a guard and a goal, whatever answers come
* `Job.Only` — the same for answers that no workspace gives

## Main results

* `Memory.workspace` — the workspace in memory
* `Job.always_bind` — a job after another
* `Job.Always.run` — what always holds, holds of every run in a workspace
-/

namespace Reroute

/-- What a workspace holds. -/
@[ext] structure Contents where
  /-- The texts of the source files. -/
  file : Text → Option Text
  /-- The blobs of the store. -/
  blob : Text → Option Text

namespace Contents

variable (c : Contents) (path text key blob : Text)

/-- The contents with a text in a file. -/
def write : Contents := { c with file := Function.update c.file path (some text) }

/-- The contents with a blob under a key. -/
def keep : Contents := { c with blob := Function.update c.blob key (some blob) }

/-- The contents without the blob of a key. -/
def drop : Contents := { c with blob := Function.update c.blob key none }

@[simp] theorem file_write :
    (c.write path text).file = Function.update c.file path (some text) :=
  rfl

@[simp] theorem blob_write : (c.write path text).blob = c.blob := rfl

@[simp] theorem file_keep : (c.keep key blob).file = c.file := rfl

@[simp] theorem blob_keep : (c.keep key blob).blob = Function.update c.blob key (some blob) := rfl

@[simp] theorem file_drop : (c.drop key).file = c.file := rfl

@[simp] theorem blob_drop : (c.drop key).blob = Function.update c.blob key none := rfl

end Contents

/-- What an operation may answer, and how it leaves the contents `c'` when it found `c`: it does its
work, or it fails and leaves them as they are. -/
def WorkOp.May (c c' : Contents) : (op : WorkOp) → op.Answer → Prop
  | .isCancelled, _ => c' = c
  | .load path, .ok text => c' = c ∧ c.file path = some text
  | .load _, .error _ => c' = c
  | .store path text, .ok () => c' = c.write path text
  | .store _ _, .error _ => c' = c
  | .fetch key, .ok blob => c' = c ∧ c.blob key = blob
  | .fetch _, .error _ => c' = c
  | .keep key blob, .ok () => c' = c.keep key blob
  | .keep _ _, .error _ => c' = c
  | .drop key, .ok () => c' = c.drop key
  | .drop _, .error _ => c' = c
  | .keysWith lead, .ok keys => c' = c ∧ ∀ key, key ∈ keys ↔ lead <+: key ∧ (c.blob key).isSome
  | .keysWith _, .error _ => c' = c

/-- A workspace: what the operations do on a state, and what the state holds. -/
structure Workspace (σ : Type) where
  handler : Handler workInterface σ
  contents : σ → Contents
  may : ∀ (op : WorkOp) (s : σ),
    op.May (contents s) (contents (handler op s).2) (handler op s).1

/-! ### The workspace in memory -/

/-- The keys that are listed have the lead and a blob. -/
theorem Store.mem_keysWith_iff (s : Store) (lead key : Text) :
    key ∈ s.keysWith lead ↔ lead <+: key ∧ (s.find? key).isSome := by
  rw [Store.keysWith, Text.sort, List.mem_mergeSort, List.mem_filter, Keyed.mem_keys_iff,
    Text.startsWith, List.isPrefixOf_iff_prefix, and_comm]

namespace Memory

/-- What a workspace in memory holds. -/
def contents (m : Memory) : Contents := ⟨m.files.find?, m.store.find?⟩

theorem find?_insert_eq_update (m : Keyed Text Text) (key value : Text) :
    (m.insert key value).find? = Function.update m.find? key (some value) := by
  funext other
  rw [Keyed.find?_insert, Function.update_apply]

theorem find?_erase_eq_update (m : Keyed Text Text) (key : Text) :
    (m.erase key).find? = Function.update m.find? key none := by
  funext other
  rw [Keyed.find?_erase, Function.update_apply]

/-- The store answers an operation, or it refuses and nothing happens. -/
private theorem guarded_cases {α : Type} (m : Memory) (op : WorkOp) (answer : α × Memory) :
    (∃ e, m.guarded op answer = (.error e, m)) ∨
      m.guarded op answer = (.ok answer.1, answer.2) := by
  rw [guarded]
  split
  · exact .inl ⟨_, rfl⟩
  · exact .inr rfl

/-- A file is loaded or not; either way only the wish to stop may have changed. -/
private theorem load_cases (m : Memory) (path : Text) :
    ∃ m' : Memory, m'.contents = m.contents ∧
      ((∃ e, perform (.load path) m = (.error e, m')) ∨
        ∃ text, m.files.find? path = some text ∧ perform (.load path) m = (.ok text, m')) := by
  refine ⟨if m.faults.cancelOnLoad then { m with faults.cancelled := true } else m, ?_, ?_⟩
  · split <;> rfl
  · by_cases hfail : m.faults.failLoad = true
    · refine .inl ⟨.refused "load", ?_⟩
      by_cases hcancel : m.faults.cancelOnLoad = true <;> simp [perform, hcancel, hfail]
    · cases hfile : m.files.find? path with
      | none =>
        refine .inl ⟨.missing, ?_⟩
        by_cases hcancel : m.faults.cancelOnLoad = true <;> simp [perform, hcancel, hfail, hfile]
      | some text =>
        refine .inr ⟨text, rfl, ?_⟩
        by_cases hcancel : m.faults.cancelOnLoad = true <;> simp [perform, hcancel, hfail, hfile]

theorem perform_may (op : WorkOp) (m : Memory) :
    op.May m.contents (perform op m).2.contents (perform op m).1 := by
  cases op with
  | isCancelled => rfl
  | load path =>
    obtain ⟨m', hsame, ⟨e, h⟩ | ⟨text, hfile, h⟩⟩ := load_cases m path
    · rw [h]
      exact hsame
    · rw [h]
      exact ⟨hsame, hfile⟩
  | store path text =>
    rw [perform]
    split
    · rfl
    · rw [WorkOp.May, Contents.write]
      simp only [contents, find?_insert_eq_update]
  | fetch key =>
    obtain ⟨e, h⟩ | h := guarded_cases m (.fetch key) (m.store.find? key, m)
    · rw [perform, h]
      rfl
    · rw [perform, h]
      exact ⟨rfl, rfl⟩
  | keep key blob =>
    obtain ⟨e, h⟩ | h :=
      guarded_cases m (.keep key blob) ((), { m with store := m.store.insert key blob })
    · rw [perform, h]
      rfl
    · rw [perform, h, WorkOp.May, Contents.keep]
      simp only [contents, find?_insert_eq_update]
  | drop key =>
    obtain ⟨e, h⟩ | h := guarded_cases m (.drop key) ((), { m with store := m.store.erase key })
    · rw [perform, h]
      rfl
    · rw [perform, h, WorkOp.May, Contents.drop]
      simp only [contents, find?_erase_eq_update]
  | keysWith lead =>
    obtain ⟨e, h⟩ | h := guarded_cases m (.keysWith lead) (m.store.keysWith lead, m)
    · rw [perform, h]
      rfl
    · rw [perform, h]
      exact ⟨rfl, m.store.mem_keysWith_iff lead⟩

/-- The workspace in memory, with whatever faults are laid into it. -/
def workspace : Workspace Memory := ⟨perform, contents, perform_may⟩

end Memory

/-! ### Runs -/

@[simp] theorem WorkOp.run_perform {σ : Type} (h : Handler workInterface σ) (op : WorkOp) (s : σ) :
    op.perform.run h s = h op s := rfl

/-- An operation with the answer that came. -/
abbrev WorkEvent := (op : WorkOp) × op.Answer

namespace WorkEvent

/-- Whether the operation failed. -/
def failed : WorkEvent → Bool
  | ⟨.load _, .error _⟩ | ⟨.store _ _, .error _⟩ | ⟨.fetch _, .error _⟩ | ⟨.keep _ _, .error _⟩
  | ⟨.drop _, .error _⟩ | ⟨.keysWith _, .error _⟩ => true
  | _ => false

/-- Whether the event keeps a text that was loaded from being stored: the work is to be given up, or
an operation other than loading failed. -/
def hinders : WorkEvent → Bool
  | ⟨.isCancelled, stop⟩ => stop
  | ⟨.load _, _⟩ => false
  | event => event.failed

/-- Whether a text was stored in a file. -/
def stores (path : Text) : WorkEvent → Bool
  | ⟨.store target _, .ok ()⟩ => target = path
  | _ => false

end WorkEvent

namespace Job

variable {σ α β : Type}

/-- The operations of a run with their answers. -/
def events (h : Handler workInterface σ) : WorkJob α → σ → List WorkEvent
  | done _, _ => []
  | ask op next, s => ⟨op, (h op s).1⟩ :: (next (h op s).1).events h (h op s).2

@[simp] theorem events_pure (h : Handler workInterface σ) (a : α) (s : σ) :
    (pure a : WorkJob α).events h s = [] := rfl

/-- The events of a job after another. -/
theorem events_bind (h : Handler workInterface σ) (j : WorkJob β) (f : β → WorkJob α) (s : σ) :
    (j >>= f).events h s =
      j.events h s ++ (f (j.run h s).1).events h (j.run h s).2 := by
  change (j.bind f).events h s = _
  induction j generalizing s with
  | done b => rfl
  | ask op next ih => exact congrArg _ (ih _ _)

/-- What a job may not do without: a condition on an operation, by the events before it and the
contents that it finds. -/
abbrev Guard := List WorkEvent → Contents → WorkOp → Prop

/-- What a job achieves: a condition on its result, the events and the contents it leaves. -/
abbrev Goal (α : Type) := α → List WorkEvent → Contents → Prop

/-- Whatever answers come, every operation meets the guard and the result meets the goal. -/
def Always (G : Guard) (Q : Goal α) : WorkJob α → List WorkEvent → Contents → Prop
  | done a, past, c => Q a past c
  | ask op next, past, c => G past c op ∧
    ∀ answer c', WorkOp.May c c' op answer → (next answer).Always G Q (past ++ [⟨op, answer⟩]) c'

variable {G : Guard} {Q : Goal α} {past : List WorkEvent} {c : Contents}

theorem always_bind {j : WorkJob β} {f : β → WorkJob α} :
    (j >>= f).Always G Q past c ↔
      j.Always G (fun b past' c' => (f b).Always G Q past' c') past c := by
  change (j.bind f).Always G Q past c ↔ _
  induction j generalizing past c with
  | done b => rfl
  | ask op next ih =>
    refine and_congr_right fun _ => ?_
    refine forall_congr' fun answer => forall_congr' fun c' => imp_congr_right fun _ => ?_
    exact ih answer

/-- A weaker goal is met too. -/
theorem Always.imp {Q' : Goal α} {j : WorkJob α} (h : j.Always G Q past c)
    (hQ : ∀ a past' c', Q a past' c' → Q' a past' c') : j.Always G Q' past c := by
  induction j generalizing past c with
  | done a => exact hQ a past c h
  | ask op next ih => exact ⟨h.1, fun answer c' hmay => ih answer (h.2 answer c' hmay)⟩

/-- What a job does is told by its own events, whatever came before them. -/
theorem Always.after {tail : List WorkEvent} {j : WorkJob α}
    (h : j.Always (fun tail' => G (past ++ tail')) Q tail c) :
    j.Always G (fun a events c' => ∃ tail', events = past ++ tail' ∧ Q a tail' c') (past ++ tail)
      c := by
  induction j generalizing tail c with
  | done a => exact ⟨tail, rfl, h⟩
  | ask op next ih =>
    refine ⟨h.1, fun answer c' hmay => ?_⟩
    rw [List.append_assoc]
    exact ih answer (h.2 answer c' hmay)

/-- What always holds, holds of every run in a workspace. -/
theorem Always.run (w : Workspace σ) {j : WorkJob α} {s : σ}
    (h : j.Always G Q past (w.contents s)) :
    Q (j.run w.handler s).1 (past ++ j.events w.handler s) (w.contents (j.run w.handler s).2) := by
  induction j generalizing past s with
  | done a => rwa [events, List.append_nil]
  | ask op next ih =>
    have hnext := ih _ (h.2 _ _ (w.may op s))
    rwa [List.append_assoc] at hnext

/-! ### The operations one by one -/

/-- An operation that is there for its effect has had it, or has failed. -/
private theorem forall_effect {ε : Type} {M P : Except ε Unit → Contents → Prop}
    {c done : Contents} (herror : ∀ e c', M (.error e) c' ↔ c' = c)
    (hok : ∀ c', M (.ok ()) c' ↔ c' = done) :
    (∀ answer c', M answer c' → P answer c') ↔ (∀ e, P (.error e) c) ∧ P (.ok ()) done := by
  constructor
  · intro h
    exact ⟨fun e => h _ _ ((herror e c).2 rfl), h _ _ ((hok done).2 rfl)⟩
  · rintro ⟨hfailed, hdone⟩ (e | ⟨⟩) c' hM
    · rw [(herror e c').1 hM]
      exact hfailed e
    · rw [(hok c').1 hM]
      exact hdone

theorem always_isCancelled {Q : Goal Bool} :
    WorkOp.isCancelled.perform.Always G Q past c ↔
      G past c .isCancelled ∧ ∀ b, Q b (past ++ [⟨.isCancelled, b⟩]) c := by
  refine and_congr_right fun _ => forall_congr' fun b => ?_
  exact ⟨fun h => h c rfl, fun h c' hc => by cases hc; exact h⟩

theorem always_load {Q : Goal (Except SourceError Text)} {path : Text} :
    (WorkOp.load path).perform.Always G Q past c ↔
      G past c (.load path) ∧ (∀ e, Q (.error e) (past ++ [⟨.load path, .error e⟩]) c) ∧
        ∀ text, c.file path = some text → Q (.ok text) (past ++ [⟨.load path, .ok text⟩]) c := by
  refine and_congr_right fun _ => ⟨fun h => ⟨fun e => h (.error e) c rfl, fun text hfile =>
    h (.ok text) c ⟨rfl, hfile⟩⟩, ?_⟩
  rintro ⟨herror, hok⟩ (e | text) c' hmay
  · cases hmay
    exact herror e
  · obtain ⟨rfl, hfile⟩ := hmay
    exact hok text hfile

theorem always_store {Q : Goal (Except SourceError Unit)} {path text : Text} :
    (WorkOp.store path text).perform.Always G Q past c ↔
      G past c (.store path text) ∧
        (∀ e, Q (.error e) (past ++ [⟨.store path text, .error e⟩]) c) ∧
        Q (.ok ()) (past ++ [⟨.store path text, .ok ()⟩]) (c.write path text) :=
  and_congr_right fun _ => forall_effect (fun _ _ => Iff.rfl) fun _ => Iff.rfl

theorem always_fetch {Q : Goal (Except StoreError (Option Text))} {key : Text} :
    (WorkOp.fetch key).perform.Always G Q past c ↔
      G past c (.fetch key) ∧ (∀ e, Q (.error e) (past ++ [⟨.fetch key, .error e⟩]) c) ∧
        Q (.ok (c.blob key)) (past ++ [⟨.fetch key, .ok (c.blob key)⟩]) c := by
  refine and_congr_right fun _ => ⟨fun h => ⟨fun e => h (.error e) c rfl,
    h (.ok (c.blob key)) c ⟨rfl, rfl⟩⟩, ?_⟩
  rintro ⟨herror, hok⟩ (e | blob) c' hmay
  · cases hmay
    exact herror e
  · obtain ⟨rfl, rfl⟩ := hmay
    exact hok

theorem always_keep {Q : Goal (Except StoreError Unit)} {key blob : Text} :
    (WorkOp.keep key blob).perform.Always G Q past c ↔
      G past c (.keep key blob) ∧
        (∀ e, Q (.error e) (past ++ [⟨.keep key blob, .error e⟩]) c) ∧
        Q (.ok ()) (past ++ [⟨.keep key blob, .ok ()⟩]) (c.keep key blob) :=
  and_congr_right fun _ => forall_effect (fun _ _ => Iff.rfl) fun _ => Iff.rfl

theorem always_drop {Q : Goal (Except StoreError Unit)} {key : Text} :
    (WorkOp.drop key).perform.Always G Q past c ↔
      G past c (.drop key) ∧ (∀ e, Q (.error e) (past ++ [⟨.drop key, .error e⟩]) c) ∧
        Q (.ok ()) (past ++ [⟨.drop key, .ok ()⟩]) (c.drop key) :=
  and_congr_right fun _ => forall_effect (fun _ _ => Iff.rfl) fun _ => Iff.rfl

end Job

/-! ### The files of a job -/

/-- The files that an operation is about are among some paths. -/
def WorkOp.FilesIn (paths : Set Text) : WorkOp → Prop
  | .load path | .store path _ => path ∈ paths
  | _ => True

theorem WorkOp.FilesIn.mono {paths paths' : Set Text} {op : WorkOp} (h : op.FilesIn paths)
    (hsubset : paths ⊆ paths') : op.FilesIn paths' := by
  cases op with
  | load path => exact hsubset h
  | store path text => exact hsubset h
  | _ => trivial

/-- Whatever other files there are, an operation that stores none of them does the same, as long as
it finds the file that it is about. -/
theorem WorkOp.May.refile {c c' : Contents} {op : WorkOp} {answer : op.Answer}
    (h : op.May c c' answer) (g : (Text → Option Text) → Text → Option Text) {paths : Set Text}
    (hop : op.FilesIn paths) (hg : ∀ path ∈ paths, g c.file path = c.file path)
    (hstore : ∀ path text, op ≠ .store path text) :
    op.May { c with file := g c.file } { c' with file := g c'.file } answer := by
  have hkept : ∀ {c₁ c₂ : Contents}, c₁ = c₂ →
      ({ c₁ with file := g c₁.file } : Contents) = { c₂ with file := g c₂.file } := by
    rintro c₁ _ rfl
    rfl
  cases op with
  | isCancelled => exact hkept h
  | load path =>
    cases answer with
    | error e => exact hkept h
    | ok text => exact ⟨hkept h.1, (hg path hop).trans h.2⟩
  | store path text => exact absurd rfl (hstore path text)
  | fetch key =>
    cases answer with
    | error e => exact hkept h
    | ok blob => exact ⟨hkept h.1, h.2⟩
  | keep key blob =>
    cases answer with
    | error e => exact hkept h
    | ok _ => exact hkept h
  | drop key =>
    cases answer with
    | error e => exact hkept h
    | ok _ => exact hkept h
  | keysWith lead =>
    cases answer with
    | error e => exact hkept h
    | ok keys => exact ⟨hkept h.1, h.2⟩

namespace Job

variable {α β : Type} {P : WorkOp → Prop} {Q : β → Prop} {R : α → Prop} {j : WorkJob β}

/-- Whatever answers come, whether or not a workspace gives them, the operations of the job meet a
condition, and so does its result. -/
def Only (P : WorkOp → Prop) (R : α → Prop) : WorkJob α → Prop
  | done a => R a
  | ask op next => P op ∧ ∀ answer, (next answer).Only P R

theorem only_perform {op : WorkOp} (h : P op) : op.perform.Only P fun _ => True :=
  ⟨h, fun _ => trivial⟩

theorem Only.bind {f : β → WorkJob α} (hj : j.Only P Q) (hf : ∀ b, Q b → (f b).Only P R) :
    (j >>= f).Only P R := by
  change (j.bind f).Only P R
  induction j with
  | done b => exact hf b hj
  | ask op next ih => exact ⟨hj.1, fun answer => ih answer (hj.2 answer)⟩

theorem Only.imp {j : WorkJob α} {P' : WorkOp → Prop} {R' : α → Prop} (hj : j.Only P R)
    (hP : ∀ op, P op → P' op) (hR : ∀ a, R a → R' a) : j.Only P' R' := by
  induction j with
  | done a => exact hR a hj
  | ask op next ih => exact ⟨hP op hj.1, fun answer => ih answer (hj.2 answer)⟩

theorem Only.always {j : WorkJob α} (hj : j.Only P R) (past : List WorkEvent) (c : Contents) :
    j.Always (fun _ _ op => P op) (fun a _ _ => R a) past c := by
  induction j generalizing past c with
  | done a => exact hj
  | ask op next ih => exact ⟨hj.1, fun answer c' _ => ih answer (hj.2 answer) _ c'⟩

/-- How a job goes on matters only for the results that it can have. -/
theorem Only.bind_congr {f g : β → WorkJob α} (hj : j.Only P Q) (h : ∀ b, Q b → f b = g b) :
    j >>= f = j >>= g := by
  change j.bind f = j.bind g
  induction j with
  | done b => exact h b hj
  | ask op next ih => exact congrArg (ask op) (funext fun answer => ih answer (hj.2 answer))

end Job

end Reroute
