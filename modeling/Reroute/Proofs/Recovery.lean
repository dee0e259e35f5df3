import Mathlib.Logic.Relation
import Reroute.Proofs.Patching

/-!
# Originals are never lost

A workspace is used for a long time: files are patched and restored, edited and removed by others,
operations fail, and work is broken off between any two operations. All through this the text of a
patched file from before its first patch can be had from its snapshot. It is there before a patched
text is stored, and it stays what it is until a restore that has already put it back drops it.

## Main definitions

* `Task` — a patch or a restore
* `Scene`, `Scene.Step` — a workspace with the call that is under way, and what may happen next
* `Contents.original?` — the text that the snapshot of a path gives back
* `Task.guard` — what the operations of a task keep to

## Main results

* `Task.always_job` — every task keeps to its guard
* `Scene.Sound.step` — all snapshots stay readable
* `Scene.Sound.holds_or_drops` — a step keeps an original, or a restore drops it
* `Scene.original?_safe` — what holds all through a run
* `Call.reaches_advance` — calls in a workspace are such runs
-/

namespace Reroute

open Job (Guard)

open Snapshot (ofPristine Packable)

open Vault (keyOf renewal?)

/-! ### Runs -/

/-- What is done in a workspace. -/
inductive Task where
  | patch (p : Profile) (m : Mode) (path : Text)
  | restore (path : Text) (force : Bool)

section Format

variable [Snapshot.Format]

/-- The job of a task. Patches take snapshots. -/
def Task.job (cwd : Text) : Task → WorkJob Unit
  | patch p m path => do
    let _ ← p.patchFile cwd { m with snapshots := true } path
    return ()
  | restore path force => do
    let _ ← Vault.restore cwd path force
    return ()

/-- A task that is under way: what has happened, and what is left of its job. -/
structure Call where
  task : Task
  past : List WorkEvent
  rest : WorkJob Unit

/-- A workspace at some moment. -/
structure Scene where
  contents : Contents
  call? : Option Call

/-- All files can be packed into snapshots. -/
def Contents.FilesPackable (cwd : Text) (c : Contents) : Prop :=
  ∀ path text, c.file path = some text → Packable (Path.absolute cwd path) text

namespace Scene

/-- What may happen next. A call that is under way is broken off when another one starts or when
somebody else edits or removes a file. -/
inductive Step (cwd : Text) : Scene → Scene → Prop
  | start (s : Scene) (task : Task) :
    Step cwd s ⟨s.contents, some ⟨task, [], task.job cwd⟩⟩
  | operate {c c' : Contents} {task : Task} {past : List WorkEvent} {op : WorkOp}
    {next : op.Answer → WorkJob Unit} {answer : op.Answer} (hmay : op.May c c' answer) :
    Step cwd ⟨c, some ⟨task, past, .ask op next⟩⟩
      ⟨c', some ⟨task, past ++ [⟨op, answer⟩], next answer⟩⟩
  | edit (s : Scene) (path : Text) (text? : Option Text) :
    Step cwd s ⟨{ s.contents with file := Function.update s.contents.file path text? }, none⟩

/-- What may come of a scene, as long as all files can be packed. -/
def Reaches (cwd : Text) : Scene → Scene → Prop :=
  Relation.ReflTransGen fun s s' => s.contents.FilesPackable cwd ∧ Step cwd s s'

/-- The call of the scene is about to perform an operation. -/
def Asks (s : Scene) (task : Task) (past : List WorkEvent) (op : WorkOp) : Prop :=
  ∃ next, s.call? = some ⟨task, past, .ask op next⟩

end Scene

/-! ### Snapshots that give back their text -/

namespace Contents

variable {c c' : Contents} {abs text other : Text}

/-- The text that the snapshot of an absolute path gives back. -/
def original? (c : Contents) (abs : Text) : Option Text :=
  (c.blob (keyOf abs)).bind fun blob => (Snapshot.decode? blob).bind Snapshot.text?

/-- There is a snapshot of an absolute path that gives back a text. -/
def Holds (c : Contents) (abs text : Text) : Prop :=
  Packable abs text ∧
    ∃ f, c.blob (keyOf abs) = some (ofPristine abs text f).encode

/-- Every snapshot gives back a text. -/
def Orderly (c : Contents) : Prop :=
  ∀ abs, c.blob (keyOf abs) = none ∨ ∃ text, c.Holds abs text

theorem Holds.original?_eq (h : c.Holds abs text) : c.original? abs = some text := by
  obtain ⟨hpack, f, hblob⟩ := h
  rw [original?, hblob, Option.bind_some, hpack.blob_read, Option.bind_some]
  exact hpack.frame_read

theorem Holds.unique (h : c.Holds abs text) (h' : c.Holds abs other) : text = other :=
  Option.some.inj (h.original?_eq.symm.trans h'.original?_eq)

theorem Holds.blob_ne_none (h : c.Holds abs text) : c.blob (keyOf abs) ≠ none := by
  obtain ⟨-, f, hblob⟩ := h
  simp [hblob]

theorem Holds.congr (h : c.Holds abs text) (hblob : c'.blob (keyOf abs) = c.blob (keyOf abs)) :
    c'.Holds abs text :=
  ⟨h.1, h.2.imp fun _ hf => hblob.trans hf⟩

theorem Orderly.holds_of_original? (h : c.Orderly) (htext : c.original? abs = some text) :
    c.Holds abs text := by
  rcases h abs with hnone | ⟨other, hother⟩
  · rw [original?, hnone] at htext
    cases htext
  · rwa [Option.some.inj (htext.symm.trans hother.original?_eq)]

theorem holds_keep (hpack : Packable abs text) (f : Fingerprint) :
    (c.keep (keyOf abs) (ofPristine abs text f).encode).Holds abs text :=
  ⟨hpack, f, by simp⟩

omit [Snapshot.Format] in
theorem blob_keep_of_ne (h : other ≠ abs) (blob : Text) :
    (c.keep (keyOf abs) blob).blob (keyOf other) = c.blob (keyOf other) := by
  rw [blob_keep, Function.update_of_ne fun hkey => h (Vault.keyOf_injective hkey)]

omit [Snapshot.Format] in
theorem blob_drop_of_ne (h : other ≠ abs) :
    (c.drop (keyOf abs)).blob (keyOf other) = c.blob (keyOf other) := by
  rw [blob_drop, Function.update_of_ne fun hkey => h (Vault.keyOf_injective hkey)]

end Contents

omit [Snapshot.Format] in
/-- An operation leaves all blobs as they are, or it keeps or drops one. -/
theorem WorkOp.May.blob_cases {c c' : Contents} {op : WorkOp} {answer : op.Answer}
    (h : op.May c c' answer) :
    c'.blob = c.blob ∨ (∃ key blob, op = .keep key blob ∧ c' = c.keep key blob) ∨
      ∃ key, op = .drop key ∧ c' = c.drop key := by
  cases op with
  | isCancelled => exact .inl (congrArg _ h)
  | load path =>
    cases answer with
    | error e => exact .inl (congrArg _ h)
    | ok text => exact .inl (congrArg _ h.1)
  | store path text =>
    cases answer with
    | error e => exact .inl (congrArg _ h)
    | ok u =>
      obtain rfl : c' = c.write path text := h
      exact .inl rfl
  | fetch key =>
    cases answer with
    | error e => exact .inl (congrArg _ h)
    | ok blob => exact .inl (congrArg _ h.1)
  | keep key blob =>
    cases answer with
    | error e => exact .inl (congrArg _ h)
    | ok u => exact .inr (.inl ⟨key, blob, rfl, h⟩)
  | drop key =>
    cases answer with
    | error e => exact .inl (congrArg _ h)
    | ok u => exact .inr (.inr ⟨key, rfl, h⟩)
  | keysWith lead =>
    cases answer with
    | error e => exact .inl (congrArg _ h)
    | ok keys => exact .inl (congrArg _ h.1)

/-! ### What tasks keep to -/

/-- What the operations of a task keep to. A patch stores its text only with a snapshot in place,
and a snapshot that it keeps has the text that the one before had, or the one that was loaded. A
restore drops a snapshot only after it has put its text back. -/
def Task.guard (cwd : Text) : Task → Guard
  | patch _ _ path, _, c, .store target _ =>
    target = path ∧ ∃ text, c.Holds (Path.absolute cwd path) text
  | patch _ _ path, past, c, .keep key blob =>
    ∃ text f, Packable (Path.absolute cwd path) text ∧ key = keyOf (Path.absolute cwd path) ∧
      blob = (ofPristine (Path.absolute cwd path) text f).encode ∧
      (c.Holds (Path.absolute cwd path) text ∨
        c.blob key = none ∧ ⟨.load path, .ok text⟩ ∈ past)
  | patch _ _ _, _, _, .drop _ => False
  | restore _ _, _, _, .keep _ _ => False
  | restore path _, past, c, .drop key =>
    key = keyOf (Path.absolute cwd path) ∧ ∃ text, c.Holds (Path.absolute cwd path) text ∧
      c.file path = some text ∧ ⟨.store path text, .ok ()⟩ ∈ past
  | _, _, _, _ => True

section Guard

variable {cwd path before after : Text} {c : Contents}

/-- The snapshot that recording a file keeps has the text of the one before, or that of the file. -/
theorem Contents.Orderly.exists_ofPristine_of_renewal? (h : c.Orderly) (hpack : c.FilesPackable cwd)
    (hfile : c.file path = some before) {s : Snapshot}
    (hs : renewal? (Path.absolute cwd path) before after
      (c.blob (keyOf (Path.absolute cwd path))) = some s) :
    ∃ text, Packable (Path.absolute cwd path) text ∧
      s = ofPristine (Path.absolute cwd path) text (.ofText after) ∧
      (c.Holds (Path.absolute cwd path) text ∨
        c.blob (keyOf (Path.absolute cwd path)) = none ∧ text = before) := by
  rcases h (Path.absolute cwd path) with hnone | ⟨text, hholds⟩
  · rw [hnone, renewal?, Snapshot.take_eq] at hs
    exact ⟨before, hpack path before hfile, (Option.some.inj hs).symm, .inr ⟨hnone, rfl⟩⟩
  · obtain ⟨hpackable, f, hblob⟩ := hholds
    rw [hblob, Vault.renewal?_ofPristine hpackable] at hs
    exact ⟨text, hpackable, (Option.some.inj hs).symm, .inl ⟨hpackable, f, hblob⟩⟩

/-- Every task keeps to its guard. -/
theorem Task.always_job (h : c.Orderly) (hpack : c.FilesPackable cwd) (task : Task) :
    (task.job cwd).Always (task.guard cwd) (fun _ _ _ => True) [] c := by
  cases task with
  | patch p m path =>
    refine Job.always_bind.2 ((Profile.always_patchFile ?_).imp fun _ _ _ _ => trivial)
    refine ⟨fun _ => trivial, fun _ => trivial, fun _ _ => trivial, ?_, ?_⟩
    · intro _ past before after s hfile hloaded hs
      obtain ⟨text, hpackable, rfl, hheld⟩ := h.exists_ofPristine_of_renewal? hpack hfile hs
      refine ⟨text, _, hpackable, rfl, rfl, hheld.imp_right fun ⟨hnone, htext⟩ => ⟨hnone, ?_⟩⟩
      rwa [htext]
    · -- the text is stored with the snapshot just kept in place
      intro past before after c' hfile _ hrecorded
      cases hrecorded with
      | kept hs =>
        obtain ⟨text, hpackable, rfl, -⟩ := h.exists_ofPristine_of_renewal? hpack hfile hs
        exact ⟨rfl, text, Contents.holds_keep hpackable _⟩
  | restore path force =>
    refine Job.always_bind.2 ?_
    rcases h (Path.absolute cwd path) with hnone | ⟨text, hholds⟩
    · exact Vault.always_restore_of_none hnone trivial fun _ _ => trivial
    · obtain ⟨f, hblob⟩ := hholds.2
      refine (Vault.always_restore hholds.1 hblob trivial (fun _ => trivial) (fun _ => trivial)
        ?_).imp fun _ _ _ _ => trivial
      intro past hstored
      exact ⟨rfl, text, hholds.congr rfl, by simp, hstored⟩

end Guard

namespace Scene

variable {cwd abs text : Text} {s s' start : Scene}

/-! ### Steps -/

/-- A patch that has loaded a text is about to keep a snapshot of it. -/
def Takes (cwd abs text : Text) (s : Scene) : Prop :=
  ∃ p m path past blob, s.Asks (.patch p m path) past (.keep (keyOf abs) blob) ∧
    Path.absolute cwd path = abs ∧ ⟨.load path, .ok text⟩ ∈ past

/-- A restore that has put a text back is about to drop its snapshot. -/
def Drops (cwd abs text : Text) (s : Scene) : Prop :=
  ∃ path force past, s.Asks (.restore path force) past (.drop (keyOf abs)) ∧
    Path.absolute cwd path = abs ∧ s.contents.file path = some text ∧
    ⟨.store path text, .ok ()⟩ ∈ past

/-- All snapshots give back their texts, and the call under way keeps to its guard. -/
structure Sound (cwd : Text) (s : Scene) : Prop where
  orderly : s.contents.Orderly
  guarded : ∀ call, s.call? = some call →
    call.rest.Always (call.task.guard cwd) (fun _ _ _ => True) call.past s.contents

theorem Sound.guard {task : Task} {past : List WorkEvent} {op : WorkOp} (h : s.Sound cwd)
    (hasks : s.Asks task past op) : task.guard cwd past s.contents op := by
  obtain ⟨next, hcall⟩ := hasks
  exact (h.guarded _ hcall).1

/-- What a step does to the snapshot of a path. -/
inductive Effect (cwd abs : Text) (s : Scene) (c' : Contents) : Prop
  | same (hblob : c'.blob (keyOf abs) = s.contents.blob (keyOf abs))
  | kept (text : Text) (hkept : c'.Holds abs text)
    (hfrom : s.contents.Holds abs text ∨
      s.contents.blob (keyOf abs) = none ∧ s.Takes cwd abs text)
  | dropped (text : Text) (hnone : c'.blob (keyOf abs) = none)
    (hheld : s.contents.Holds abs text) (hback : s.Drops cwd abs text)

theorem Sound.effect (h : s.Sound cwd) (hstep : Step cwd s s') (abs : Text) :
    Effect cwd abs s s'.contents := by
  cases hstep with
  | start task => exact .same rfl
  | edit path text? => exact .same rfl
  | @operate c c' task past op next answer hmay =>
    have hasks : Asks ⟨c, some ⟨task, past, .ask op next⟩⟩ task past op := ⟨next, rfl⟩
    have hguard := h.guard hasks
    -- only patches keep and only restores drop, and each only the snapshot of its own path
    rcases hmay.blob_cases with hsame | ⟨key, blob, rfl, rfl⟩ | ⟨key, rfl, rfl⟩
    · exact .same (by rw [hsame])
    · cases task with
      | patch p m path =>
        obtain ⟨text, f, hpack, rfl, rfl, hfrom⟩ := hguard
        by_cases hother : abs = Path.absolute cwd path
        · subst hother
          refine .kept text (Contents.holds_keep hpack f) (hfrom.imp_right fun ⟨hnone, hload⟩ => ?_)
          exact ⟨hnone, p, m, path, past, _, hasks, rfl, hload⟩
        · exact .same (Contents.blob_keep_of_ne hother _)
      | restore path force => exact hguard.elim
    · cases task with
      | patch p m path => exact hguard.elim
      | restore path force =>
        obtain ⟨rfl, text, hheld, hfile, hstored⟩ := hguard
        by_cases hother : abs = Path.absolute cwd path
        · subst hother
          refine .dropped text (by simp) hheld ?_
          exact ⟨path, force, past, hasks, rfl, hfile, hstored⟩
        · exact .same (Contents.blob_drop_of_ne hother)

/-- All snapshots stay readable. -/
theorem Sound.orderly_step (h : s.Sound cwd) (hstep : Step cwd s s') : s'.contents.Orderly := by
  intro abs
  cases h.effect hstep abs with
  | same hblob =>
    rw [hblob]
    exact (h.orderly abs).imp_right fun ⟨text, hheld⟩ => ⟨text, hheld.congr hblob⟩
  | kept text hkept _ => exact .inr ⟨text, hkept⟩
  | dropped _ hnone _ _ => exact .inl hnone

/-- Calls keep to their guards: those that start, because every task does, and those under way,
because an operation does only what it may. -/
theorem Sound.step (h : s.Sound cwd) (hpack : s.contents.FilesPackable cwd)
    (hstep : Step cwd s s') : s'.Sound cwd := by
  refine ⟨h.orderly_step hstep, fun call hcall => ?_⟩
  cases hstep with
  | start task =>
    cases hcall
    exact Task.always_job h.orderly hpack _
  | edit path text? => cases hcall
  | operate hmay =>
    cases hcall
    exact (h.guarded _ rfl).2 _ _ hmay

/-- A step keeps what a snapshot gives back, or the snapshot is dropped by a restore that has put
the text back. -/
theorem Sound.holds_or_drops (h : s.Sound cwd) (hstep : Step cwd s s')
    (hheld : s.contents.Holds abs text) :
    s'.contents.Holds abs text ∨
      s'.contents.blob (keyOf abs) = none ∧ s.Drops cwd abs text := by
  cases h.effect hstep abs with
  | same hblob => exact .inl (hheld.congr hblob)
  | kept other hkept hfrom =>
    rcases hfrom with hheld' | ⟨hnone, -⟩
    · rw [hheld.unique hheld']
      exact .inl hkept
    · exact absurd hnone hheld.blob_ne_none
  | dropped other hnone hheld' hback =>
    rw [hheld.unique hheld']
    exact .inr ⟨hnone, hback⟩

/-- A snapshot comes from a patch, with the text that was loaded. -/
theorem Sound.takes (h : s.Sound cwd) (hstep : Step cwd s s')
    (hnone : s.contents.blob (keyOf abs) = none) (hheld : s'.contents.Holds abs text) :
    s.Takes cwd abs text := by
  cases h.effect hstep abs with
  | same hblob => exact absurd (hblob.trans hnone) hheld.blob_ne_none
  | kept other hkept hfrom =>
    rw [hheld.unique hkept]
    rcases hfrom with hheld' | ⟨-, htakes⟩
    · exact absurd hnone hheld'.blob_ne_none
    · exact htakes
  | dropped _ hgone _ _ => exact absurd hgone hheld.blob_ne_none

/-! ### Runs from an empty vault -/

theorem Sound.reaches (h : s.Sound cwd) (hreach : Reaches cwd s s') : s'.Sound cwd := by
  induction hreach with
  | refl => exact h
  | tail _ hstep ih => exact ih.step hstep.1 hstep.2

/-- Without snapshots and calls there is nothing to go wrong yet. -/
theorem sound_of_empty (hempty : ∀ abs, s.contents.blob (keyOf abs) = none)
    (hidle : s.call? = none) : s.Sound cwd :=
  ⟨fun abs => .inl (hempty abs), fun call hcall => by cases hidle.symm.trans hcall⟩

/-- What may come of a scene while the snapshot of a path gives back a text. -/
def ReachesHolding (cwd abs text : Text) : Scene → Scene → Prop :=
  Relation.ReflTransGen fun s s' =>
    (s.contents.FilesPackable cwd ∧ Step cwd s s') ∧ s'.contents.original? abs = some text

/-- What a snapshot gives back stays the same, up to a restore that drops it. -/
theorem Sound.reachesHolding_or_drops (h : s.Sound cwd) (hheld : s.contents.Holds abs text)
    (hreach : Reaches cwd s s') :
    ReachesHolding cwd abs text s s' ∨
      ∃ s₁ s₂, ReachesHolding cwd abs text s s₁ ∧ s₁.Drops cwd abs text ∧ Step cwd s₁ s₂ ∧
        s₂.contents.blob (keyOf abs) = none ∧ Reaches cwd s₂ s' := by
  -- from the front, so that the first drop ends the run while the text is held
  induction hreach using Relation.ReflTransGen.head_induction_on with
  | refl => exact .inl .refl
  | @head s s₁ hstep hrest ih =>
    rcases h.holds_or_drops hstep.2 hheld with hnext | ⟨hnone, hdrops⟩
    · have hhead := And.intro hstep hnext.original?_eq
      rcases ih (h.step hstep.1 hstep.2) hnext with hall | ⟨s₂, s₃, hto, hend⟩
      · exact .inl (.head hhead hall)
      · exact .inr ⟨s₂, s₃, .head hhead hto, hend⟩
    · exact .inr ⟨s, s₁, .refl, hdrops, hstep.2, hnone, hrest⟩

/-- All through a run that starts without snapshots, whatever fails and wherever calls are broken
off: a patched text is stored only where the snapshot of the path gives back a text; every snapshot
gives back a text, which is the one that a patch loaded before it took the snapshot; and it gives
back this text until it is dropped, by a restore that has put the text back. -/
theorem original?_safe (hempty : ∀ abs, start.contents.blob (keyOf abs) = none)
    (hidle : start.call? = none) (hreach : Reaches cwd start s) :
    (∀ p m path past target text, s.Asks (.patch p m path) past (.store target text) →
      target = path ∧ (s.contents.original? (Path.absolute cwd path)).isSome) ∧
    (∀ abs, (s.contents.blob (keyOf abs)).isSome → (s.contents.original? abs).isSome) ∧
    (∀ abs text s', s.contents.blob (keyOf abs) = none → Step cwd s s' →
      s'.contents.original? abs = some text → s.Takes cwd abs text) ∧
    ∀ abs text s', s.contents.original? abs = some text → Reaches cwd s s' →
      ReachesHolding cwd abs text s s' ∨
        ∃ s₁ s₂, ReachesHolding cwd abs text s s₁ ∧ s₁.Drops cwd abs text ∧ Step cwd s₁ s₂ ∧
          s₂.contents.blob (keyOf abs) = none ∧ Reaches cwd s₂ s' := by
  have hsound : s.Sound cwd := (sound_of_empty hempty hidle).reaches hreach
  refine ⟨?_, ?_, ?_, ?_⟩
  · intro p m path past target text hasks
    obtain ⟨htarget, original, hheld⟩ := hsound.guard hasks
    exact ⟨htarget, by rw [hheld.original?_eq]; rfl⟩
  · intro abs hsome
    rcases hsound.orderly abs with hnone | ⟨text, hheld⟩
    · simp [hnone] at hsome
    · rw [hheld.original?_eq]
      rfl
  · intro abs text s' hnone hstep htext
    exact hsound.takes hstep hnone ((hsound.orderly_step hstep).holds_of_original? htext)
  · intro abs text s' htext hrest
    exact hsound.reachesHolding_or_drops (hsound.orderly.holds_of_original? htext) hrest

end Scene

/-! ### Calls in a workspace -/

namespace Call

variable {σ : Type} (w : Workspace σ)

/-- A call in a workspace after so many operations. -/
def advance : Nat → σ → Call → σ × Call
  | 0, s, call => (s, call)
  | _ + 1, s, ⟨task, past, .done a⟩ => (s, ⟨task, past, .done a⟩)
  | n + 1, s, ⟨task, past, .ask op next⟩ =>
    let (answer, s') := w.handler op s
    advance n s' ⟨task, past ++ [⟨op, answer⟩], next answer⟩

/-- Calls in a workspace are runs. -/
theorem reaches_advance {cwd : Text} (n : Nat) (s : σ) (call : Call)
    (hpack : ∀ k < n, (w.contents (call.advance w k s).1).FilesPackable cwd) :
    Scene.Reaches cwd ⟨w.contents s, some call⟩
      ⟨w.contents (call.advance w n s).1, some (call.advance w n s).2⟩ := by
  induction n generalizing s call with
  | zero => exact .refl
  | succ n ih =>
    obtain ⟨task, past, rest⟩ := call
    cases rest with
    | done a => exact .refl
    | ask op next =>
      let call : Call := ⟨task, past ++ [⟨op, (w.handler op s).1⟩], next (w.handler op s).1⟩
      have hrest := ih (w.handler op s).2 call fun k hk => hpack (k + 1) (by omega)
      exact .head ⟨hpack 0 (by omega), .operate (w.may op s)⟩ hrest

end Call

end Format

/-- Files in memory that are short can be packed. -/
theorem Memory.filesPackable_of_length_lt {cwd : Text} {m : Memory}
    (h : ∀ e ∈ m.files.entries,
      (Path.absolute cwd e.1).length < Nat.pow 2 32 ∧ e.2.length < Nat.pow 2 29) :
    m.contents.FilesPackable cwd := by
  intro path text hfile
  obtain ⟨e, hfind, rfl⟩ := Option.map_eq_some_iff.1 hfile
  obtain rfl : e.1 = path := by simpa using List.find?_some hfind
  obtain ⟨hpath, htext⟩ := h e (List.mem_of_find?_eq_some hfind)
  exact Snapshot.packable_of_length_lt hpath htext

/-- A file is patched in memory. From then on its snapshot gives back what the file held, until a
restore has put it back. -/
theorem Scene.original?_of_patch :
    let p : Profile := { Profile.standard with
      helper := ⟨"log", "fn log", "\nfn log();"⟩, routes := Profile.standard.routes.take 1 }
    let task : Task := .patch p ⟨false, false, false, true⟩ "a.rs"
    let w := Memory.workspace
    let m : Memory := ⟨Keyed.empty.insert "a.rs" "use std::sync::Arc;", Keyed.empty, .none, 0⟩
    let done := Call.advance w 6 m ⟨task, [], task.job "/work"⟩
    let s : Scene := ⟨w.contents done.1, some done.2⟩
    let abs := Path.absolute "/work" "a.rs"
    let text : Text := "use std::sync::Arc;"
    Reaches "/work" ⟨w.contents m, none⟩ s ∧ s.contents.file "a.rs" ≠ some text ∧
      s.contents.original? abs = some text ∧
      ∀ s', Reaches "/work" s s' → ReachesHolding "/work" abs text s s' ∨
        ∃ s₁ s₂, ReachesHolding "/work" abs text s s₁ ∧ s₁.Drops "/work" abs text ∧
          Step "/work" s₁ s₂ ∧ s₂.contents.blob (keyOf abs) = none ∧ Reaches "/work" s₂ s' := by
  intro p task w m
  have hshort : ∀ k ∈ List.range 6,
      ∀ e ∈ (Call.advance w k m ⟨task, [], task.job "/work"⟩).1.files.entries,
        (Path.absolute "/work" e.1).length < Nat.pow 2 32 ∧ e.2.length < Nat.pow 2 29 := by
    decide +kernel
  have hpack : ∀ k < 6, Contents.FilesPackable "/work"
      (w.contents (Call.advance w k m ⟨task, [], task.job "/work"⟩).1) :=
    fun k hk => Memory.filesPackable_of_length_lt (hshort k (List.mem_range.2 hk))
  have hfile : (w.contents (Call.advance w 6 m ⟨task, [], task.job "/work"⟩).1).file "a.rs" ≠
      some ("use std::sync::Arc;" : Text) := by
    decide +kernel
  have htext : (w.contents (Call.advance w 6 m ⟨task, [], task.job "/work"⟩).1).original?
      (Path.absolute "/work" "a.rs") = some ("use std::sync::Arc;" : Text) := by
    decide +kernel
  have hreach : Reaches "/work" ⟨w.contents m, none⟩ ⟨w.contents _, some _⟩ :=
    .head ⟨hpack 0 (by decide), .start _ task⟩ (Call.reaches_advance w 6 m _ hpack)
  have hsafe := original?_safe (fun _ => rfl) rfl hreach
  exact ⟨hreach, hfile, htext, fun s' => hsafe.2.2.2 _ _ s' htext⟩

end Reroute
