import Reroute.Disk.Files
import Reroute.Proofs.Disk.Basic

/-!
# Replacing a file as a whole

A file is replaced by way of a temporary file beside it. On a disk that may fail at any step, the
file ends up with its new text and with the permission bits that it had, or everything is as it was
before. Nothing else on the disk is touched either way, and no temporary file stays behind.

A disk may fail at will, and a write that fails may have written a part of its text. What it may not
do is to leave a file that is to be removed, or to say that a file is missing that is there.

## Main definitions

* `DiskOp.May` — what a disk that may fail answers and does
* `Disk.Faulty` — handlers that keep to it
* `Disk.full` — a disk without room for long texts
* `Files.Replaced` — what replacing a file comes to

## Main results

* `Files.replaced_store` — a file is replaced, or nothing has happened
* `Files.store_atomic` — what can be seen of this on the disk
* `Files.run_store_eq_ok_iff` — when a disk without faults replaces a file
-/

namespace Reroute

/-- The answer of a disk that refuses an operation. -/
def DiskOp.refusal (e : DiskError) : (op : DiskOp) → op.Answer
  | .workingDirectory => .error e
  | .stat _ => .error e
  | .read _ => .error e
  | .createTemp _ => .error e
  | .append _ _ => .error e
  | .sync _ => .error e
  | .close _ => .error e
  | .chmod _ _ => .error e
  | .rename _ _ => .error e
  | .remove _ => .error e
  | .mkdir _ => .error e

/-- The error of an operation that was refused. -/
def DiskOp.error? : (op : DiskOp) → op.Answer → Option DiskError
  | .workingDirectory, .error e | .stat _, .error e | .read _, .error e | .createTemp _, .error e
  | .append _ _, .error e | .sync _, .error e | .close _, .error e | .chmod _ _, .error e
  | .rename _ _, .error e | .remove _, .error e | .mkdir _, .error e => some e
  | _, _ => none

@[simp] theorem DiskOp.run_perform {σ : Type} (h : Handler diskInterface σ) (op : DiskOp) (s : σ) :
    op.perform.run h s = h op s := rfl

namespace Job

variable {σ α β : Type} (h : Handler diskInterface σ)

/-- The operations of a run that were refused, with their errors. -/
def refusals : DiskJob α → σ → List (DiskOp × DiskError)
  | done _, _ => []
  | ask op next, s =>
    ((DiskOp.error? op (h op s).1).map (Prod.mk (α := DiskOp) op)).toList ++
      (next (h op s).1).refusals (h op s).2

/-- What a job is refused after an operation comes behind what becomes of the operation. -/
theorem refusals_perform_bind (op : DiskOp) (f : op.Answer → DiskJob α) (s : σ) :
    refusals h (op.perform >>= f) s =
      ((op.error? (h op s).1).map (Prod.mk op)).toList ++
        refusals h (f (h op s).1) (h op s).2 := rfl

end Job

/-- An operation is carried out, or it is refused and has no effect. -/
def Disk.Tries (d : Disk) (op : DiskOp) (answer : op.Answer × Disk) : Prop :=
  answer = Disk.perform op d ∨ ∃ e, answer = (op.refusal e, d)

/-- What a disk that may fail answers to an operation and how it leaves itself. A temporary file
gets any number that is not taken, and a write that fails may leave a part of its text. Files can
always be removed, and nothing is said to be missing that is there. -/
def DiskOp.May (d : Disk) : (op : DiskOp) → op.Answer × Disk → Prop
  | .workingDirectory, answer => d.Tries .workingDirectory answer
  | .stat path, answer =>
    answer = Disk.perform (.stat path) d ∨
      ∃ e : DiskError, (e.fault = .notFound → d.isTaken path = false) ∧ answer = (.error e, d)
  | .read path, answer => d.Tries (.read path) answer
  | .createTemp folder, answer =>
    (∃ e, answer = (.error e, d)) ∨
      ∃ number, d.isTaken (Disk.tempPath folder number) = false ∧
        answer = d.create (Disk.tempPath folder number)
  | .append path more, answer =>
    d.Tries (.append path more) answer ∨
      ∃ e, ∃ part, part <+: more ∧ answer = (.error e, (Disk.perform (.append path part) d).2)
  | .sync path, answer => d.Tries (.sync path) answer
  | .close path, answer => d.Tries (.close path) answer
  | .chmod path mode, answer => d.Tries (.chmod path mode) answer
  | .rename source target, answer => d.Tries (.rename source target) answer
  | .remove path, answer => answer = Disk.perform (.remove path) d
  | .mkdir path, answer => d.Tries (.mkdir path) answer

namespace Disk

variable {d d' : Disk} {place goal : List Text} {node : Node} {temp path : Text}

/-- A disk on which operations may fail. -/
def Faulty (h : Handler diskInterface Disk) : Prop := ∀ (op : DiskOp) (d : Disk), op.May d (h op d)

/-- What an operation does on a disk without faults is what it may do. -/
theorem may_perform (op : DiskOp) (d : Disk) : op.May d (perform op d) := by
  cases op with
  | workingDirectory => exact .inl rfl
  | stat path => exact .inl rfl
  | read path => exact .inl rfl
  | createTemp folder =>
    obtain ⟨number, hpath, hfree, -⟩ := d.exists_freshTemp folder
    exact .inr ⟨number, hfree, by rw [perform, hpath]⟩
  | append path more => exact .inl (.inl rfl)
  | sync path => exact .inl rfl
  | close path => exact .inl rfl
  | chmod path mode => exact .inl rfl
  | rename source target => exact .inl rfl
  | remove path => rfl
  | mkdir path => exact .inl rfl

theorem faulty_perform : Faulty perform := may_perform

/-- A disk with room for texts up to a length. Of a longer text only the front part is written. -/
def full (room : Nat) : Handler diskInterface Disk
  | .append path more, d =>
    if more.length ≤ room then perform (.append path more) d
    else (.error ⟨"write", [path], .other "no space left on device"⟩,
      (perform (.append path (more.take room)) d).2)
  | op, d => perform op d

theorem faulty_full (room : Nat) : Faulty (full room) := by
  intro op d
  cases op with
  | append path more =>
    rw [full]
    split
    · exact may_perform (.append path more) d
    · exact .inr ⟨_, more.take room, List.take_prefix room more, rfl⟩
  | _ => exact may_perform _ d

/-- The permission bits that the file at a path keeps when it is replaced, or gets when it is
new. -/
def modeOf (d : Disk) (path : Text) : Nat :=
  match d.find path with
  | .ok (_, node) => node.mode
  | .error _ => Node.usualMode

theorem modeOf_of_not_taken (h : d.isTaken path = false) : d.modeOf path = Node.usualMode := by
  rw [isTaken] at h
  rw [modeOf]
  cases hfind : d.find path with
  | error e => rfl
  | ok found =>
    rw [hfind] at h
    cases h

/-- A place where a path leads to nothing, so that a file can be made there. -/
structure Free (d : Disk) (path : Text) (place : List Text) : Prop where
  follow : d.follow path = .ok place
  node : d.node? place = none

namespace Free

theorem ne_nil (h : d.Free temp place) : place ≠ [] := by
  rintro rfl
  cases h.node

theorem sameFolders {mode : Nat} {text : Text} (h : d.Free temp place)
    (hrevises : d.Revises place (.file mode text) d') : d.SameFolders d' :=
  .of_revises hrevises (by rw [h.node]; simp)

/-- A file that was made at a free place is found there. -/
theorem find {mode : Nat} {text : Text} (h : d.Free temp place)
    (hrevises : d.Revises place (.file mode text) d') :
    d'.find temp = .ok (place, .file mode text) := by
  refine find_eq_ok_iff.2 ⟨(h.sameFolders hrevises).follow_eq_ok_iff.2 h.follow, ?_⟩
  rw [hrevises.node, Function.update_self]

end Free

/-- A path that is not taken is free, if it leads anywhere. -/
theorem free_of_not_taken (htaken : d.isTaken path = false) (h : d.follow path = .ok place) :
    d.Free path place := by
  refine ⟨h, ?_⟩
  cases hnode : d.node? place with
  | none => rfl
  | some node =>
    rw [isTaken_eq_true_iff.2 ⟨place, node, h, hnode⟩] at htaken
    cases htaken

theorem create_of_free (h : d.Free path place) :
    d.create path = (.ok path, d.set place (.file 0o600 [])) := by
  simp only [create, h.follow, h.node]

/-- A temporary file is made at a free place, or nothing happens. -/
theorem createTemp_cases {folder : Text} {answer : Except DiskError Text × Disk}
    (h : (DiskOp.createTemp folder).May d answer) :
    (∃ e, answer = (.error e, d)) ∨
      ∃ temp place, d.Free temp place ∧ answer = (.ok temp, d.set place (.file 0o600 [])) := by
  rcases h with hfailed | ⟨number, htaken, rfl⟩
  · exact .inl hfailed
  · cases hfollow : d.follow (tempPath folder number) with
    | error e => exact .inl ⟨_, by simp only [create, hfollow]; rfl⟩
    | ok place =>
      have hfree := free_of_not_taken htaken hfollow
      exact .inr ⟨_, place, hfree, create_of_free hfree⟩

theorem Revises.again (h : d.Revises place node d') (hne : place ≠ []) (node' : Node) :
    d.Revises place node' (d'.set place node') := by
  have hset := d'.revises_set hne node'
  refine ⟨hset.cwd.trans h.cwd, hset.links.trans h.links, ?_⟩
  rw [hset.node, h.node, Function.update_idem]

/-- A temporary file is changed. -/
theorem Free.modify {mode : Nat} {text action : Text} {change : Nat → Text → Node}
    (h : d.Free temp place) (hrevises : d.Revises place (.file mode text) d') :
    d'.modify action temp change = (.ok (), d'.set place (change mode text)) := by
  simp only [Disk.modify, h.find hrevises]

/-- A temporary file is taken away. -/
theorem Free.remove {mode : Nat} {text : Text} (h : d.Free temp place)
    (hrevises : d.Revises place (.file mode text) d') :
    ∃ d'', perform (.remove temp) d' = (.ok (), d'') ∧ d.Same d'' := by
  refine ⟨d'.unset place, by simp only [perform, h.find hrevises], hrevises.cwd, hrevises.links, ?_⟩
  rw [node?_unset h.ne_nil, hrevises.node, Function.update_idem, ← h.node,
    Function.update_eq_self]

/-- A temporary file is moved to its goal, in place of the file that is there. -/
theorem Free.move {mode : Nat} {text : Text} (h : d.Free temp place)
    (hrevises : d.Revises place (.file mode text) d') (hfollow : d.follow path = .ok goal)
    (hgoal : d.node? goal ≠ some .folder) :
    ∃ d'', d'.move temp path = (.ok (), d'') ∧ d.Revises goal (.file mode text) d'' := by
  have hfolders := h.sameFolders hrevises
  have hgoal' : d'.node? goal ≠ some .folder := fun hfolder =>
    hgoal ((hfolders.folder_iff goal).1 hfolder)
  refine ⟨(d'.unset place).set goal (.file mode text), ?_, hrevises.cwd, hrevises.links, ?_⟩
  · simp only [Disk.move, h.find hrevises, hfolders.follow_eq_ok_iff.2 hfollow]
  · -- without the temporary file the disk is the one from before
    rw [(revises_set _ (ne_nil_of_node? hgoal) _).node, node?_unset h.ne_nil, hrevises.node,
      Function.update_idem, ← h.node, Function.update_eq_self]

/-- A temporary file is moved only to a goal that a file can take. -/
theorem Free.move_cases {mode : Nat} {text : Text} (h : d.Free temp place)
    (hrevises : d.Revises place (.file mode text) d') (path : Text) :
    (∃ e, d'.move temp path = (.error e, d')) ∨
      ∃ d'' goal, d'.move temp path = (.ok (), d'') ∧ d.follow path = .ok goal ∧
        d.node? goal ≠ some .folder ∧ d.Revises goal (.file mode text) d'' := by
  have hfolders := h.sameFolders hrevises
  cases hfollow : d'.follow path with
  | error e =>
    exact .inl ⟨_, by simp only [Disk.move, h.find hrevises, hfollow]; rfl⟩
  | ok goal =>
    by_cases hgoal : d'.node? goal = some .folder
    · exact .inl ⟨_, by simp only [Disk.move, h.find hrevises, hfollow, hgoal]; rfl⟩
    · have hfollow' := hfolders.follow_eq_ok_iff.1 hfollow
      have hgoal' : d.node? goal ≠ some .folder := fun hfolder =>
        hgoal ((hfolders.folder_iff goal).2 hfolder)
      obtain ⟨d'', hmove, hd''⟩ := h.move hrevises hfollow' hgoal'
      exact .inr ⟨d'', goal, hmove, hfollow', hgoal', hd''⟩

/-- A step that changes a temporary file, on a disk that may refuse it. -/
theorem Free.modify_cases {mode : Nat} {text action : Text} {change : Nat → Text → Node}
    {answer : Except DiskError Unit × Disk} (h : d.Free temp place)
    (hrevises : d.Revises place (.file mode text) d')
    (hanswer : answer = d'.modify action temp change ∨ ∃ e, answer = (.error e, d')) :
    (∃ e, answer = (.error e, d')) ∨
      ∃ d'', answer = (.ok (), d'') ∧ d.Revises place (change mode text) d'' := by
  rcases hanswer with rfl | hrefused
  · exact .inr ⟨_, h.modify hrevises, hrevises.again h.ne_nil _⟩
  · exact .inl hrefused

/-- A write that fails leaves the temporary file with some text. -/
theorem Free.append_cases {mode : Nat} {text more : Text} {answer : Except DiskError Unit × Disk}
    (h : d.Free temp place) (hrevises : d.Revises place (.file mode text) d')
    (hanswer : (DiskOp.append temp more).May d' answer) :
    (∃ e d'' left, answer = (.error e, d'') ∧ d.Revises place (.file mode left) d'') ∨
      ∃ d'', answer = (.ok (), d'') ∧ d.Revises place (.file mode (text ++ more)) d'' := by
  rcases hanswer with htries | ⟨e, part, -, rfl⟩
  · rcases h.modify_cases hrevises htries with ⟨e, rfl⟩ | hwritten
    · exact .inl ⟨e, d', text, rfl, hrevises⟩
    · exact .inr hwritten
  · refine .inl ⟨e, _, text ++ part, rfl, ?_⟩
    rw [perform, h.modify hrevises]
    exact hrevises.again h.ne_nil _

end Disk

namespace Files

open Disk

variable {h : Handler diskInterface Disk} {d d' : Disk} {place : List Text} {temp path text : Text}
  {mode : Nat}

/-- What replacing a file comes to: everything is as it was, or the file has the text and the
permission bits. -/
inductive Replaced (d : Disk) (path text : Text) (mode : Nat) :
    Except SourceError Unit → Disk → Prop
  | failed {d' : Disk} (e : SourceError) (hsame : d.Same d') :
    Replaced d path text mode (.error e) d'
  | done {d' : Disk} {place : List Text} (hfollow : d.follow path = .ok place)
    (hplace : d.node? place ≠ some .folder)
    (hrevises : d.Revises place (.file mode text) d') :
    Replaced d path text mode (.ok ()) d'

/-- Reading a file leaves the disk. -/
theorem run_load :
    (load path).run perform d = ((d.readFile path).mapError (.unreadable path), d) := by
  rw [load, Job.run_monad_bind, DiskOp.run_perform, perform]
  cases d.readFile path <;> rfl

/-- A file is read, or that fails. -/
theorem run_load_cases (hh : Faulty h) (d : Disk) (path : Text) :
    (∃ e, (load path).run h d = (.error e, d)) ∨
      ∃ text, (load path).run h d = (.ok text, d) ∧ d.readFile path = .ok text := by
  rw [load, Job.run_monad_bind, DiskOp.run_perform]
  rcases hh (.read path) d with hread | ⟨e, hread⟩
  · rw [hread, perform]
    cases d.readFile path with
    | error e => exact .inl ⟨_, rfl⟩
    | ok text => exact .inr ⟨text, rfl, rfl⟩
  · rw [hread]
    exact .inl ⟨_, rfl⟩

section Temp

variable (hh : Faulty h) (htemp : d.Free temp place)

include hh htemp

/-- A temporary file is taken away, and nothing has happened. -/
theorem replaced_abandon {m : Nat} {t : Text} (hrevises : d.Revises place (.file m t) d')
    (e : SourceError) :
    Replaced d path text mode ((abandon temp e).run h d').1 ((abandon temp e).run h d').2 := by
  obtain ⟨d'', hremove, hsame⟩ := htemp.remove hrevises
  have hanswer : h (.remove temp) d' = perform (.remove temp) d' := hh (.remove temp) d'
  rw [abandon, Job.run_monad_bind, DiskOp.run_perform, hanswer, hremove]
  exact .failed e hsame

theorem replaced_closeAndAbandon {m : Nat} {t : Text} (hrevises : d.Revises place (.file m t) d')
    (e : SourceError) :
    Replaced d path text mode ((closeAndAbandon temp e).run h d').1
      ((closeAndAbandon temp e).run h d').2 := by
  rw [closeAndAbandon, Job.run_monad_bind, DiskOp.run_perform]
  rcases htemp.modify_cases hrevises (hh (.close temp) d') with
    ⟨_, hclose⟩ | ⟨_, hclose, hclosed⟩
  · rw [hclose]
    exact replaced_abandon hh htemp hrevises e
  · rw [hclose]
    exact replaced_abandon hh htemp hclosed e

/-- A file that is written gets its permission bits and its name, or it is taken away. -/
theorem replaced_publish {m : Nat} (hrevises : d.Revises place (.file m text) d') :
    Replaced d path text mode ((publish temp path mode).run h d').1
      ((publish temp path mode).run h d').2 := by
  rw [publish, Job.run_monad_bind, DiskOp.run_perform]
  rcases htemp.modify_cases hrevises (hh (.chmod temp mode) d') with
    ⟨e, hchmod⟩ | ⟨d₁, hchmod, hd₁⟩
  · rw [hchmod]
    exact replaced_abandon hh htemp hrevises _
  · rw [hchmod]
    simp only
    rw [Job.run_monad_bind, DiskOp.run_perform]
    -- the disk may refuse to rename, and the goal may be a folder
    rcases hh (.rename temp path) d₁ with hrename | ⟨e, hrename⟩
    · rcases htemp.move_cases hd₁ path with ⟨e, hmove⟩ | ⟨d₂, goal, hmove, hfollow, hgoal, hd₂⟩
      · rw [hrename, perform, hmove]
        exact replaced_abandon hh htemp hd₁ _
      · rw [hrename, perform, hmove]
        exact .done hfollow hgoal hd₂
    · rw [hrename]
      exact replaced_abandon hh htemp hd₁ _

end Temp

/-- A file is replaced by way of a temporary file, or nothing has happened. -/
theorem replaced_replace (hh : Faulty h) :
    Replaced d path text mode ((replace path text mode).run h d).1
      ((replace path text mode).run h d).2 := by
  rw [replace, Job.run_monad_bind, DiskOp.run_perform]
  rcases createTemp_cases (hh (.createTemp (Path.folder path)) d) with
    ⟨e, hfailed⟩ | ⟨temp, place, htemp, hmade⟩
  · rw [hfailed]
    exact .failed _ (.refl d)
  · rw [hmade]
    have hempty := d.revises_set htemp.ne_nil (.file 0o600 [])
    simp only
    -- from here on the temporary file is there, and every way out takes it away
    rw [Job.run_monad_bind, DiskOp.run_perform]
    rcases htemp.append_cases hempty (hh (.append temp text) _) with
      ⟨e, d₁, left, happend, hleft⟩ | ⟨d₁, happend, hwritten⟩
    · rw [happend]
      exact replaced_closeAndAbandon hh htemp hleft _
    · rw [happend]
      simp only
      rw [Job.run_monad_bind, DiskOp.run_perform]
      rcases htemp.modify_cases hwritten (hh (.sync temp) _) with
        ⟨e, hsync⟩ | ⟨d₂, hsync, hsynced⟩
      · rw [hsync]
        exact replaced_closeAndAbandon hh htemp hwritten _
      · rw [hsync]
        simp only
        rw [Job.run_monad_bind, DiskOp.run_perform]
        rcases htemp.modify_cases hsynced (hh (.close temp) _) with
          ⟨e, hclose⟩ | ⟨d₃, hclose, hclosed⟩
        · rw [hclose]
          exact replaced_abandon hh htemp hsynced _
        · rw [hclose]
          exact replaced_publish hh htemp hclosed

/-- A file is replaced and keeps its permission bits, or nothing has happened. -/
theorem replaced_store (hh : Faulty h) (d : Disk) (path text : Text) :
    Replaced d path text (d.modeOf path) ((store path text).run h d).1
      ((store path text).run h d).2 := by
  rw [store, Job.run_monad_bind, DiskOp.run_perform]
  -- a file that is missing is no reason to stop, any other trouble is
  rcases hh (.stat path) d with hstat | ⟨e, he, hstat⟩
  · rw [hstat, perform, modeOf]
    cases d.find path with
    | error e =>
      simp only [refuse]
      split
      · exact replaced_replace hh
      · exact .failed _ (.refl d)
    | ok found =>
      obtain ⟨place, node⟩ := found
      cases node with
      | file mode old => exact replaced_replace hh
      | folder => exact replaced_replace hh
  · rw [hstat]
    simp only
    split
    · rename_i hmissing
      rw [modeOf_of_not_taken (he hmissing)]
      exact replaced_replace hh
    · exact .failed _ (.refl d)

/-- What is not a folder is missing or a file: the permission bits are the usual ones or those of
the file. -/
theorem modeOf_cases (hfollow : d.follow path = .ok place) (hplace : d.node? place ≠ some .folder) :
    d.node? place = none ∧ d.modeOf path = 0o644 ∨
      ∃ old, d.node? place = some (.file (d.modeOf path) old) := by
  cases hnode : d.node? place with
  | none =>
    refine .inl ⟨rfl, ?_⟩
    rw [modeOf, find, hfollow]
    simp only [hnode]
    rfl
  | some node =>
    cases node with
    | folder => exact absurd hnode hplace
    | file mode old =>
      rw [modeOf, find_eq_ok_iff.2 ⟨hfollow, hnode⟩]
      exact .inr ⟨old, rfl⟩

theorem run_load_of_same (hsame : d.Same d') (path : Text) :
    ((load path).run perform d').1 = ((load path).run perform d).1 := by
  rw [run_load, run_load, readFile, readFile, hsame.find_eq]

/-! ### When a file is stored -/

section Refusals

variable {σ : Type} (h : Handler diskInterface σ) (s : σ)

/-- The refusals that do not keep a file from being stored: it need not be there to be looked at. -/
def Harmless (path : Text) (r : DiskOp × DiskError) : Prop :=
  r.1 = .stat path ∧ r.2.fault = .notFound

variable {other : Text}

/-- A file that is written gets its name if nothing is refused. -/
theorem run_publish_eq_ok_iff :
    ((publish temp path mode).run h s).1 = .ok () ↔
      ∀ r ∈ Job.refusals h (publish temp path mode) s, Harmless other r := by
  rw [publish, Job.run_monad_bind, DiskOp.run_perform, Job.refusals_perform_bind]
  rcases h (.chmod temp mode) s with ⟨e | ⟨⟩, s₁⟩
  · exact iff_of_false (by rintro ⟨⟩) fun hall => nomatch (hall _ (.head _)).1
  · change ((_ : DiskJob _).run h s₁).1 = _ ↔ ∀ r ∈ Job.refusals h _ s₁, _
    rw [Job.run_monad_bind, DiskOp.run_perform, Job.refusals_perform_bind]
    rcases h (.rename temp path) s₁ with ⟨e | ⟨⟩, s₂⟩
    · exact iff_of_false (by rintro ⟨⟩) fun hall => nomatch (hall _ (.head _)).1
    · exact iff_of_true rfl (by rintro r ⟨⟩)

/-- A file is replaced if nothing is refused. -/
theorem run_replace_eq_ok_iff :
    ((replace path text mode).run h s).1 = .ok () ↔
      ∀ r ∈ Job.refusals h (replace path text mode) s, Harmless other r := by
  rw [replace, Job.run_monad_bind, DiskOp.run_perform, Job.refusals_perform_bind]
  rcases h (.createTemp (Path.folder path)) s with ⟨e | temp, s₁⟩
  · exact iff_of_false (by rintro ⟨⟩) fun hall => nomatch (hall _ (.head _)).1
  · change ((_ : DiskJob _).run h s₁).1 = _ ↔ ∀ r ∈ Job.refusals h _ s₁, _
    rw [Job.run_monad_bind, DiskOp.run_perform, Job.refusals_perform_bind]
    rcases h (.append temp text) s₁ with ⟨e | ⟨⟩, s₂⟩
    · exact iff_of_false (by rintro ⟨⟩) fun hall => nomatch (hall _ (.head _)).1
    · change ((_ : DiskJob _).run h s₂).1 = _ ↔ ∀ r ∈ Job.refusals h _ s₂, _
      rw [Job.run_monad_bind, DiskOp.run_perform, Job.refusals_perform_bind]
      rcases h (.sync temp) s₂ with ⟨e | ⟨⟩, s₃⟩
      · exact iff_of_false (by rintro ⟨⟩) fun hall => nomatch (hall _ (.head _)).1
      · change ((_ : DiskJob _).run h s₃).1 = _ ↔ ∀ r ∈ Job.refusals h _ s₃, _
        rw [Job.run_monad_bind, DiskOp.run_perform, Job.refusals_perform_bind]
        rcases h (.close temp) s₃ with ⟨e | ⟨⟩, s₄⟩
        · exact iff_of_false (by rintro ⟨⟩) fun hall => nomatch (hall _ (.head _)).1
        · exact run_publish_eq_ok_iff h s₄

/-- A file is stored if nothing is refused, but that a new file is not there to be looked at. -/
theorem run_store_eq_ok_iff_harmless (path text : Text) :
    ((store path text).run h s).1 = .ok () ↔
      ∀ r ∈ Job.refusals h (store path text) s, Harmless path r := by
  rw [store, Job.run_monad_bind, DiskOp.run_perform, Job.refusals_perform_bind]
  rcases h (.stat path) s with ⟨e | info, s₁⟩
  · change ((if e.fault = .notFound then replace path text Node.usualMode
        else pure (.error (.disk e))).run h s₁).1 = _ ↔
      ∀ r ∈ (.stat path, e) :: Job.refusals h (if e.fault = .notFound then _ else _) s₁, _
    rw [List.forall_mem_cons]
    by_cases hfault : e.fault = .notFound
    · rw [if_pos hfault, and_iff_right ⟨rfl, hfault⟩]
      exact run_replace_eq_ok_iff h s₁
    · rw [if_neg hfault]
      exact iff_of_false (by rintro ⟨⟩) fun hall => hfault hall.1.2
  · exact run_replace_eq_ok_iff h s₁

end Refusals

/-- Storing a file is atomic, whatever step fails. If it succeeds, the file has the text and the
permission bits that it had before, or the usual ones if it is new, and everything else is as it
was. If it fails, everything is as it was, and so every file is loaded as before. No temporary file
stays behind that was not there already, unless the file that was stored is itself called so. It
succeeds if no step is refused, but that a new file is not there to be looked at. -/
theorem store_atomic (hh : Faulty h) (d : Disk) (path text : Text) :
    let answer := ((store path text).run h d).1
    let d' := ((store path text).run h d).2
    ((answer = .ok () ∧ ∃ place mode, d.follow path = .ok place ∧
        d'.find path = .ok (place, .file mode text) ∧
        (d.node? place = none ∧ mode = 0o644 ∨ ∃ old, d.node? place = some (.file mode old)) ∧
        ∀ other, other ≠ place → d'.node? other = d.node? other) ∨
      ((∃ e, answer = .error e) ∧ d'.node? = d.node? ∧
        ∀ other, ((load other).run perform d').1 = ((load other).run perform d).1)) ∧
    (∀ other, (∃ name ∈ other.getLast?, tempLead <+: name) → d.node? other = none →
      d'.node? other = none ∨ answer = .ok () ∧ d.follow path = .ok other) ∧
    (answer = .ok () ↔ ∀ r ∈ Job.refusals h (store path text) d, Harmless path r) := by
  have hreplaced := replaced_store hh d path text
  have hok := run_store_eq_ok_iff_harmless h d path text
  refine (and_assoc).1 ⟨?_, hok⟩
  generalize (store path text).run h d = outcome at hreplaced ⊢
  obtain ⟨answer, d'⟩ := outcome
  cases hreplaced with
  | failed e hsame =>
    refine ⟨.inr ⟨⟨e, rfl⟩, hsame.node, run_load_of_same hsame⟩, fun other _ hnone => .inl ?_⟩
    rw [hsame.node, hnone]
  | @done _ place hfollow hplace hrevises =>
    have hrest : ∀ other, other ≠ place → d'.node? other = d.node? other := by
      intro other hne
      rw [hrevises.node, Function.update_of_ne hne]
    refine ⟨.inl ⟨rfl, place, d.modeOf path, hfollow, ?_, modeOf_cases hfollow hplace, hrest⟩,
      fun other _ hnone => ?_⟩
    · have hfolders := SameFolders.of_revises hrevises hplace
      refine find_eq_ok_iff.2 ⟨hfolders.follow_eq_ok_iff.2 hfollow, ?_⟩
      rw [hrevises.node, Function.update_self]
    · by_cases heq : other = place
      · exact .inr ⟨rfl, heq ▸ hfollow⟩
      · exact .inl ((hrest other heq).trans hnone)

/-- A disk that runs full in the middle of a text, and one that just has room for it. -/
theorem store_atomic_full :
    let d := (Disk.fresh "/work").put "a.rs" 0o640 "old"
    let run := (store "a.rs" "newer").run (full 2) d
    let run' := (store "b.rs" "newer").run (full 5) d
    Faulty (full 2) ∧ (∃ e, run.1 = .error e) ∧ run.2.node? = d.node? ∧
      (∀ other, ((load other).run perform run.2).1 = ((load other).run perform d).1) ∧
      Faulty (full 5) ∧ run'.1 = .ok () ∧
        (Job.refusals (full 5) (store "b.rs" "newer") d).map Prod.fst = [.stat "b.rs"] := by
  have hfails : ((store "a.rs" "newer").run (full 2)
      ((Disk.fresh "/work").put "a.rs" 0o640 "old")).1 ≠ .ok () := by decide +kernel
  have hnew : Job.refusals (full 5) (store "b.rs" "newer")
      ((Disk.fresh "/work").put "a.rs" 0o640 "old") =
        [(.stat "b.rs", ⟨"stat", ["b.rs"], .notFound⟩)] := by decide +kernel
  have hdone := (store_atomic (faulty_full 5) ((Disk.fresh "/work").put "a.rs" 0o640 "old") "b.rs"
    "newer").2.2
  rw [hnew, List.forall_mem_singleton] at hdone
  refine ⟨faulty_full 2, ?_⟩
  rcases (store_atomic (faulty_full 2) ((Disk.fresh "/work").put "a.rs" 0o640 "old") "a.rs"
    "newer").1 with ⟨hok, -⟩ | ⟨he, hnode, hload⟩
  · exact absurd hok hfails
  · exact ⟨he, hnode, hload, faulty_full 5, hdone.2 ⟨rfl, rfl⟩, by rw [hnew]; rfl⟩

/-! ### Without faults -/

/-- A temporary file that can be made, and a goal that a file can take, are all that is needed. -/
private theorem run_replace_of_free {goal : List Text}
    (htemp : d.Free (d.freshTemp (Path.folder path)) place) (hfollow : d.follow path = .ok goal)
    (hgoal : d.node? goal ≠ some .folder) :
    ((replace path text mode).run perform d).1 = .ok () := by
  rw [replace, Job.run_monad_bind, DiskOp.run_perform, perform, create_of_free htemp]
  -- the steps only ever change the temporary file, so the goal stays free to take
  generalize d.freshTemp (Path.folder path) = temp at htemp
  have hempty := d.revises_set htemp.ne_nil (.file 0o600 [])
  simp only
  rw [Job.run_monad_bind, DiskOp.run_perform, perform, htemp.modify hempty]
  have hwritten := hempty.again htemp.ne_nil (.file 0o600 ([] ++ text))
  simp only
  rw [Job.run_monad_bind, DiskOp.run_perform, perform, htemp.modify hwritten]
  have hsynced := hwritten.again htemp.ne_nil (.file 0o600 ([] ++ text))
  simp only
  rw [Job.run_monad_bind, DiskOp.run_perform, perform, htemp.modify hsynced]
  have hclosed := hsynced.again htemp.ne_nil (.file 0o600 ([] ++ text))
  simp only
  rw [publish, Job.run_monad_bind, DiskOp.run_perform, perform, htemp.modify hclosed]
  have hchanged := hclosed.again htemp.ne_nil (.file mode ([] ++ text))
  obtain ⟨d', hmove, -⟩ := htemp.move hchanged hfollow hgoal
  simp only
  rw [Job.run_monad_bind, DiskOp.run_perform, perform, hmove]
  rfl

/-- Storing a file is replacing it, unless the path leads nowhere. -/
private theorem run_store_cases (d : Disk) (path text : Text) :
    (store path text).run perform d = (replace path text (d.modeOf path)).run perform d ∨
      (∃ e, ((store path text).run perform d).1 = .error e) ∧
        ∀ place, d.follow path ≠ .ok place := by
  rw [store, Job.run_monad_bind, DiskOp.run_perform, perform, modeOf]
  cases hfind : d.find path with
  | ok found =>
    obtain ⟨place, node⟩ := found
    cases node with
    | file mode old => exact .inl rfl
    | folder => exact .inl rfl
  | error e =>
    simp only [refuse]
    split
    · exact .inl rfl
    · rename_i hfault
      refine .inr ⟨⟨_, rfl⟩, fun place hfollow => hfault ?_⟩
      rw [find, hfollow] at hfind
      simp only at hfind
      split at hfind
      · exact (Except.error.inj hfind).symm
      · cases hfind

/-- A disk without faults replaces a file whenever the path leads to a place without a folder and
there is room for a temporary file. -/
theorem run_store_eq_ok_iff (d : Disk) (path text : Text) :
    ((store path text).run perform d).1 = .ok () ↔
      (∃ place, d.follow path = .ok place ∧ d.node? place ≠ some .folder) ∧
        ∃ place, d.follow (d.freshTemp (Path.folder path)) = .ok place := by
  constructor
  · intro hok
    have hreplaced := replaced_store faulty_perform d path text
    rw [hok] at hreplaced
    cases hreplaced with
    | done hfollow hplace _ =>
      refine ⟨⟨_, hfollow, hplace⟩, ?_⟩
      -- without room for a temporary file, replacing would have failed at once
      rcases run_store_cases d path text with heq | ⟨⟨e, herror⟩, -⟩
      · cases htemp : d.follow (d.freshTemp (Path.folder path)) with
        | ok place => exact ⟨place, rfl⟩
        | error e =>
          rw [heq, replace, Job.run_monad_bind, DiskOp.run_perform, perform, create, htemp] at hok
          cases hok
      · rw [hok] at herror
        cases herror
  · rintro ⟨⟨goal, hfollow, hgoal⟩, place, htemp⟩
    rcases run_store_cases d path text with heq | ⟨-, hnowhere⟩
    · rw [heq]
      obtain ⟨number, hpath, htaken, -⟩ := d.exists_freshTemp (Path.folder path)
      rw [← hpath] at htaken
      exact run_replace_of_free (free_of_not_taken htaken htemp) hfollow hgoal
    · exact absurd hfollow (hnowhere goal)

end Files

end Reroute
