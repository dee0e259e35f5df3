/-!
# Jobs

A job is a piece of work that asks the outside for one thing at a time and goes on with the answer:
a finite tree of operations with a branch for every answer. What an operation does is not part of
the job. A handler says so, on a state of its own; the same job runs on files in memory, on a model
of a disk with faults, or on a real disk.

## Main definitions

* `Interface` — the operations that a job may ask for, and their answers
* `Job` — jobs over an interface, a monad
* `Job.run` — a job carried out by a handler
* `Job.expand` — a job over one interface as a job over another

## Main results

* `Job.run_bind` — a job after another starts on the state that the first has left
* `Job.run_expand` — expanding a job and running it is running it with the expanded handler
-/

namespace Reroute

/-- Operations on the outside, with the answers to each. -/
structure Interface where
  Op : Type
  Answer : Op → Type

/-- A job with a result in `α`. -/
inductive Job (I : Interface) (α : Type) where
  /-- The job is done. -/
  | done (result : α)
  /-- The job asks for an operation and goes on with the answer. -/
  | ask (op : I.Op) (next : I.Answer op → Job I α)

/-- What the operations of an interface do on a state. -/
def Handler (I : Interface) (σ : Type) := (op : I.Op) → σ → I.Answer op × σ

namespace Job

variable {I J : Interface} {σ α β : Type}

/-- The job of one operation. -/
def perform (op : I.Op) : Job I (I.Answer op) := ask op done

/-- A job that goes on with another. -/
def bind : Job I α → (α → Job I β) → Job I β
  | done a, f => f a
  | ask op next, f => ask op fun answer => (next answer).bind f

instance : Monad (Job I) where
  pure := done
  bind := bind

/-- A job carried out by a handler: its result and the state it leaves. -/
def run (h : Handler I σ) : Job I α → σ → α × σ
  | done a, s => (a, s)
  | ask op next, s => (next (h op s).1).run h (h op s).2

/-- A job in which every operation is itself a job over another interface. -/
def expand (f : (op : I.Op) → Job J (I.Answer op)) : Job I α → Job J α
  | done a => done a
  | ask op next => (f op).bind fun answer => (next answer).expand f

theorem bind_assoc {γ : Type} (j : Job I α) (f : α → Job I β) (g : β → Job I γ) :
    j >>= f >>= g = j >>= fun a => f a >>= g := by
  change (j.bind f).bind g = j.bind fun a => (f a).bind g
  induction j with
  | done a => rfl
  | ask op next ih => exact congrArg (ask op) (funext ih)

@[simp] theorem run_done (h : Handler I σ) (a : α) (s : σ) : run h (done a) s = (a, s) := rfl

@[simp] theorem run_pure (h : Handler I σ) (a : α) (s : σ) :
    run h (pure a : Job I α) s = (a, s) := rfl

@[simp] theorem run_ask (h : Handler I σ) (op : I.Op) (next : I.Answer op → Job I α) (s : σ) :
    run h (ask op next) s = (next (h op s).1).run h (h op s).2 := rfl

@[simp] theorem run_perform (h : Handler I σ) (op : I.Op) (s : σ) :
    run h (perform op) s = h op s := rfl

/-- A job after another starts on the state that the first has left. -/
theorem run_bind (h : Handler I σ) (j : Job I α) (f : α → Job I β) (s : σ) :
    run h (j.bind f) s = (f (j.run h s).1).run h (j.run h s).2 := by
  induction j generalizing s with
  | done a => rfl
  | ask op next ih => exact ih _ _

@[simp] theorem run_monad_bind (h : Handler I σ) (j : Job I α) (f : α → Job I β) (s : σ) :
    run h (j >>= f) s = (f (j.run h s).1).run h (j.run h s).2 := run_bind h j f s

/-- Expanding a job and running it is running it with the expanded handler. -/
theorem run_expand (f : (op : I.Op) → Job J (I.Answer op)) (h : Handler J σ) (j : Job I α) (s : σ) :
    run h (j.expand f) s = run (fun op => (f op).run h) j s := by
  induction j generalizing s with
  | done a => rfl
  | ask op next ih =>
    rw [expand, run_bind]
    exact ih _ _

end Job

end Reroute
