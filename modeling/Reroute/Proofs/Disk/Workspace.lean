import Reroute.Proofs.Disk.Files
import Reroute.Proofs.Restoring

/-!
# Disks as workspaces

Source files lie on a disk, which may fail and may have linked folders; the blobs are in a store, of
which nothing is known but that it keeps to the law of a workspace. Together they are a workspace in
which paths share their files: two paths do if they lead to the same place. So patching and
restoring a file on such a disk is what it is in any workspace, and what is proved of workspaces
holds of files on disks as long as their paths lead to different places.

Nothing but files is ever put on the disk. So the folders stay, and with them where every path
leads. On a disk without faults, other files have no say in whether a file can be loaded or stored,
unless one of them has the name of a temporary file.

## Main definitions

* `Disk.textOf` — the text of the file that a path leads to
* `Disk.operate` — the operations on a workspace, with the files on a disk
* `Disk.linked` — the workspace of a disk and a store
* `Disk.session` — the operations of a session on them
* `Disk.Alters` — disks that differ in the texts of some files

## Main results

* `Disk.patched_patchFile`, `Disk.restored_restore` — a file on a disk is patched and restored as in
  a workspace that has no other file
* `Disk.fair` — a disk without faults is fair to the files that are restored
-/

namespace Reroute

variable {τ : Type}

namespace WorkEvent

theorem failed_load_congr {path : Text} {a b : Except SourceError Text}
    (h : ∀ text, a = .ok text ↔ b = .ok text) :
    failed ⟨.load path, a⟩ = failed ⟨.load path, b⟩ := by
  cases a with
  | ok text => rw [(h text).1 rfl]
  | error e =>
    cases b with
    | ok text => cases (h text).2 rfl
    | error e' => rfl

theorem failed_store_congr {path text : Text} {a b : Except SourceError Unit}
    (h : a = .ok () ↔ b = .ok ()) :
    failed ⟨.store path text, a⟩ = failed ⟨.store path text, b⟩ := by
  cases a <;> cases b <;> simp_all [failed]

end WorkEvent

/-- What a store may do does not depend on the files that are there besides. -/
theorem WorkOp.May.withFiles {c c' : Contents} {op : WorkOp} {answer : op.Answer}
    (h : op.May c c' answer) (hop : op.FilesIn ∅) (file : Text → Option Text) :
    op.May { c with file } { c' with file } answer := by
  refine h.refile (fun _ => file) hop (fun _ => False.elim) ?_
  rintro path text rfl
  exact hop

namespace Disk

variable {d d' d'' : Disk} {place : List Text} {path other text : Text}

/-! ### The files of a disk -/

/-- The text of the file that a path leads to. -/
def textOf (d : Disk) (path : Text) : Option Text :=
  match d.find path with
  | .ok (_, .file _ text) => some text
  | _ => none

theorem textOf_eq_some_iff :
    d.textOf path = some text ↔
      ∃ place mode, d.follow path = .ok place ∧ d.node? place = some (.file mode text) := by
  simp only [← find_eq_ok_iff, textOf]
  constructor
  · intro h
    split at h
    · rename_i place mode found hfind
      cases h
      exact ⟨place, mode, hfind⟩
    · cases h
  · rintro ⟨place, mode, hfind⟩
    rw [hfind]

/-- Two paths lead to the same place. -/
def Meets (d : Disk) (path other : Text) : Prop :=
  ∃ place, d.follow path = .ok place ∧ d.follow other = .ok place

theorem Same.sameFolders (h : d.Same d') : d.SameFolders d' :=
  ⟨h.cwd, h.links, fun place => by rw [h.node]⟩

theorem SameFolders.meets_iff (h : d.SameFolders d') :
    d'.Meets path other ↔ d.Meets path other := by
  simp only [Meets, h.follow_eq_ok_iff]

/-- Without links, clean paths that lead to the same place are the same. -/
theorem Meets.eq_of_isClean (h : d.Meets path other) (hlinks : d.links.entries = [])
    (hpath : Path.IsClean path) (hother : Path.IsClean other) : path = other := by
  obtain ⟨place, hplace, hplace'⟩ := h
  rw [← hpath.ofComponents_components] at hplace
  rw [← hother.ofComponents_components] at hplace'
  -- a clean path leads to the place of its components, so the components are the same
  refine hpath.eq_of_components hother ?_
  rw [← follow_ofComponents hlinks hpath.proper hplace,
    ← follow_ofComponents hlinks hother.proper hplace']

theorem textOf_of_same (h : d.Same d') : d'.textOf = d.textOf := by
  funext path
  rw [textOf, textOf, h.find_eq]

/-- A file that is put at a place is found under the paths that lead there. -/
theorem textOf_of_revises {mode : Nat} (hfollow : d.follow path = .ok place)
    (hplace : d.node? place ≠ some .folder) (h : d.Revises place (.file mode text) d') :
    d'.textOf path = some text ∧
      ∀ other, ¬ d.Meets path other → d'.textOf other = d.textOf other := by
  have hfolders := SameFolders.of_revises h hplace
  refine ⟨textOf_eq_some_iff.2 ⟨place, mode, hfolders.follow_eq_ok_iff.2 hfollow, ?_⟩, ?_⟩
  · rw [h.node, Function.update_self]
  · intro other hother
    refine Option.ext fun found => ?_
    simp only [textOf_eq_some_iff, hfolders.follow_eq_ok_iff]
    refine exists_congr fun goal => exists_congr fun _ => and_congr_right fun hgoal => ?_
    -- a path that leads to the place itself would meet the first one
    have hne : goal ≠ place := by
      rintro rfl
      exact hother ⟨goal, hfollow, hgoal⟩
    rw [h.node, Function.update_of_ne hne]

/-! ### The workspace of a disk and a store -/

variable {h : Handler diskInterface Disk}

/-- A file is loaded with its text, or that fails. -/
theorem run_load_cases (hh : Faulty h) (d : Disk) (path : Text) :
    (∃ e, (Files.load path).run h d = (.error e, d)) ∨
      ∃ text, (Files.load path).run h d = (.ok text, d) ∧ d.textOf path = some text := by
  refine (Files.run_load_cases hh d path).imp_right ?_
  rintro ⟨text, hrun, hread⟩
  obtain ⟨place, mode, hfollow, hnode, -⟩ := readFile_eq_ok_iff.1 hread
  exact ⟨text, hrun, textOf_eq_some_iff.2 ⟨place, mode, hfollow, hnode⟩⟩

/-- Loading a file leaves the disk. -/
theorem snd_run_load (hh : Faulty h) (d : Disk) (path : Text) :
    ((Files.load path).run h d).2 = d := by
  rcases run_load_cases hh d path with ⟨e, hrun⟩ | ⟨text, hrun, -⟩ <;> rw [hrun]

/-- The operations on a workspace whose files lie on a disk and whose blobs are in a store. -/
def operate (h : Handler diskInterface Disk) (v : Handler workInterface τ) :
    Handler workInterface (Disk × τ)
  | .load path, (d, t) => (((Files.load path).run h d).1, ((Files.load path).run h d).2, t)
  | .store path text, (d, t) =>
    (((Files.store path text).run h d).1, ((Files.store path text).run h d).2, t)
  | op, (d, t) => ((v op t).1, d, (v op t).2)

/-- The files of a disk and the blobs of a store. -/
def contents (blobs : τ → Contents) (s : Disk × τ) : Contents := ⟨s.1.textOf, (blobs s.2).blob⟩

/-- No operation changes where paths lead. -/
theorem sameFolders_operate (hh : Faulty h) (v : Handler workInterface τ) (op : WorkOp)
    (s : Disk × τ) : s.1.SameFolders (operate h v op s).2.1 := by
  obtain ⟨d, t⟩ := s
  cases op with
  | load path =>
    rw [operate, snd_run_load hh]
    exact (Same.refl d).sameFolders
  | store path text =>
    have hreplaced := Files.replaced_store hh d path text
    rw [operate]
    generalize (Files.store path text).run h d = outcome at hreplaced ⊢
    obtain ⟨answer, d'⟩ := outcome
    cases hreplaced with
    | failed e hsame => exact hsame.sameFolders
    | done hfollow hplace hrevises => exact .of_revises hrevises hplace
  | _ => exact (Same.refl d).sameFolders

theorem operate_may (hh : Faulty h) (v : Workspace τ) (op : WorkOp) (s : Disk × τ) :
    op.MayShare s.1.Meets (contents v.contents s)
      (contents v.contents (operate h v.handler op s).2) (operate h v.handler op s).1 := by
  obtain ⟨d, t⟩ := s
  cases op with
  | load path =>
    rw [operate]
    rcases run_load_cases hh d path with ⟨e, hrun⟩ | ⟨text, hrun, htext⟩
    · rw [hrun]
      rfl
    · rw [hrun]
      exact ⟨rfl, htext⟩
  | store path text =>
    have hreplaced := Files.replaced_store hh d path text
    rw [operate]
    generalize (Files.store path text).run h d = outcome at hreplaced ⊢
    obtain ⟨answer, d'⟩ := outcome
    cases hreplaced with
    | failed e hsame => exact congrArg (Contents.mk · _) (textOf_of_same hsame)
    | done hfollow hplace hrevises =>
      obtain ⟨hstored, hothers⟩ := textOf_of_revises hfollow hplace hrevises
      exact ⟨hstored, hothers, rfl⟩
  | isCancelled => exact (v.may .isCancelled t).withFiles trivial d.textOf
  | fetch key => exact (v.may (.fetch key) t).withFiles trivial d.textOf
  | keep key blob => exact (v.may (.keep key blob) t).withFiles trivial d.textOf
  | drop key => exact (v.may (.drop key) t).withFiles trivial d.textOf
  | keysWith lead => exact (v.may (.keysWith lead) t).withFiles trivial d.textOf

/-- The workspace of a disk that may fail and a store. Two paths share a file if they lead to the
same place. -/
def linked (hh : Faulty h) (v : Workspace τ) : LinkedWorkspace (Disk × τ) where
  handler := operate h v.handler
  contents := contents v.contents
  Shares s := s.1.Meets
  shares_handler op s _ _ := (sameFolders_operate hh v.handler op s).meets_iff.1
  may := operate_may hh v

theorem file_linked (hh : Faulty h) (v : Workspace τ) (s : Disk × τ) (path : Text) :
    ((linked hh v).contents s).file path = s.1.textOf path :=
  rfl

/-- The operations of a session on a disk, with a store that is open from the start. -/
def session (h : Handler diskInterface Disk) (v : Handler workInterface τ) :
    Handler sessionInterface (Disk × τ)
  | .disk op, (d, t) => ((h op d).1, (h op d).2, t)
  | .openArchive _, s => (.ok (), s)
  | .work _ op, s => operate h v op s

/-! ### Patching and restoring on a disk -/

section Format

variable [Snapshot.Format] (hh : Faulty h) (v : Workspace τ) (cwd path : Text) (s : Disk × τ)

include hh

/-- On a disk that may fail, a file is patched as in a workspace that has no other file. Other paths
are left, unless they lead to the same place. -/
theorem patched_patchFile (p : Profile) (m : Mode) :
    let after := (p.patchFile cwd m path).run (operate h v.handler) s
    Profile.Patched p cwd path m ((contents v.contents s).restrict {path}) after.1
        ((p.patchFile cwd m path).events (operate h v.handler) s)
        ((contents v.contents after.2).restrict {path}) ∧
      ∀ other, ¬ s.1.Meets path other → after.2.1.textOf other = s.1.textOf other := by
  intro after
  obtain ⟨hrun, hevents, hothers⟩ := Profile.run_patchFile_view (linked hh v) p cwd m path s
  have hpatched := Profile.patched_patchFile ((linked hh v).view {path}) p cwd path m s
  rw [hrun, hevents] at hpatched
  exact ⟨hpatched, hothers⟩

/-- On a disk that may fail, a file is restored as in a workspace that has no other file. Other
paths are left, unless they lead to the same place. -/
theorem restored_restore (force : Bool) {pristine : Text} {f : Fingerprint}
    (hpack : Snapshot.Packable (Path.absolute cwd path) pristine)
    (hblob : (v.contents s.2).blob (Vault.keyOf (Path.absolute cwd path)) =
      some (Snapshot.ofPristine (Path.absolute cwd path) pristine f).encode) :
    let after := (Vault.restore cwd path force).run (operate h v.handler) s
    Vault.Restored ((contents v.contents s).restrict {path}) (Path.absolute cwd path) path pristine
        f force after.1 ((Vault.restore cwd path force).events (operate h v.handler) s)
        ((contents v.contents after.2).restrict {path}) ∧
      ∀ other, ¬ s.1.Meets path other → after.2.1.textOf other = s.1.textOf other := by
  intro after
  obtain ⟨hrun, hevents, hothers⟩ := Vault.run_restore_view (linked hh v) cwd path force s
  have hrestored := Vault.restored_restore ((linked hh v).view {path}) force hpack hblob
  rw [hrun, hevents] at hrestored
  exact ⟨hrestored, hothers⟩

end Format

/-- Two paths of a batch lead to one file: whichever comes first reports the change, and the other
finds nothing left to do. -/
theorem attemptFiles_of_meeting_paths :
    let p : Profile := { Profile.standard with
      helper := ⟨"log", "fn log", "\nfn log();"⟩, routes := [⟨"read_file", "read", "p", "\"s\""⟩] }
    let d := ((fresh "/work").put "/dir/a.rs" 0o644 "use std::sync::Arc;").putLink "/dirlink" "/dir"
    let s : Disk × Memory := (d, ⟨Keyed.empty, Keyed.empty, .none, 0⟩)
    let changed := fun paths =>
      ((p.attemptFiles "/work" ⟨false, false, false, false⟩ paths).run
        (operate perform Memory.perform) s).1.map fun outcomes =>
          outcomes.map fun o => o.report?.map Report.changed
    changed ["/dir/a.rs", "/dirlink/a.rs"] = some [some true, some false] ∧
      changed ["/dirlink/a.rs", "/dir/a.rs"] = some [some true, some false] := by
  decide +kernel

/-! ### What stays on a disk -/

/-- The permission bits of the file at a place, or those of a new file. -/
def modeAt (d : Disk) (place : List Text) : Nat :=
  match d.node? place with
  | some (.file mode _) => mode
  | _ => Node.usualMode

theorem modeOf_eq_modeAt (hfollow : d.follow path = .ok place)
    (hplace : d.node? place ≠ some .folder) : d.modeOf path = d.modeAt place := by
  rw [modeOf, modeAt, find, hfollow]
  cases hnode : d.node? place with
  | none => simp only [hnode]
  | some node =>
    cases node with
    | folder => exact absurd hnode hplace
    | file mode text => simp only [hnode, Node.mode]

theorem readFile_eq_ok_iff_textOf :
    d.readFile path = .ok text ↔ d.textOf path = some text ∧
      ∃ place, d.follow path = .ok place ∧ isReadable (d.modeAt place) = true := by
  rw [readFile_eq_ok_iff, textOf_eq_some_iff]
  constructor
  · rintro ⟨place, mode, hfollow, hnode, hmode⟩
    refine ⟨⟨place, mode, hfollow, hnode⟩, place, hfollow, ?_⟩
    rwa [modeAt, hnode]
  · rintro ⟨⟨place, mode, hfollow, hnode⟩, goal, hgoal, hmode⟩
    obtain rfl : place = goal := Except.ok.inj (hfollow.symm.trans hgoal)
    rw [modeAt, hnode] at hmode
    exact ⟨place, mode, hfollow, hnode, hmode⟩

/-- A disk that differs from another in the texts of files at some places. The permission bits stay,
and what was there before was no folder. -/
structure Alters (touched : Set (List Text)) (d d' : Disk) : Prop where
  cwd : d'.cwd = d.cwd
  links : d'.links = d.links
  node : ∀ place, d'.node? place = d.node? place ∨ place ∈ touched ∧
    d.node? place ≠ some .folder ∧ ∃ text, d'.node? place = some (.file (d.modeAt place) text)

namespace Alters

variable {touched : Set (List Text)}

theorem of_same (h : d.Same d') : d.Alters touched d' :=
  ⟨h.cwd, h.links, fun place => .inl (by rw [h.node])⟩

theorem of_revises (htouched : place ∈ touched) (hfollow : d.follow path = .ok place)
    (hplace : d.node? place ≠ some .folder)
    (h : d.Revises place (.file (d.modeOf path) text) d') : d.Alters touched d' := by
  refine ⟨h.cwd, h.links, fun other => ?_⟩
  rw [h.node, modeOf_eq_modeAt hfollow hplace, Function.update_apply]
  split
  · rename_i heq
    subst heq
    exact .inr ⟨htouched, hplace, text, rfl⟩
  · exact .inl rfl

theorem modeAt_eq (h : d.Alters touched d') (place : List Text) :
    d'.modeAt place = d.modeAt place := by
  rcases h.node place with heq | ⟨-, -, text, heq⟩
  · rw [modeAt, heq, ← modeAt]
  · rw [modeAt, heq]

theorem trans (h : d.Alters touched d') (h' : d'.Alters touched d'') : d.Alters touched d'' := by
  refine ⟨h'.cwd.trans h.cwd, h'.links.trans h.links, fun place => ?_⟩
  rcases h'.node place with heq | ⟨htouched, hplace, text, heq⟩
  · rw [heq]
    exact h.node place
  · rw [heq, h.modeAt_eq]
    refine .inr ⟨htouched, ?_, text, rfl⟩
    rcases h.node place with heq' | ⟨-, hplace', -⟩
    · rwa [← heq']
    · exact hplace'

theorem sameFolders (h : d.Alters touched d') : d.SameFolders d' := by
  refine ⟨h.cwd, h.links, fun place => ?_⟩
  rcases h.node place with heq | ⟨-, hplace, text, heq⟩
  · rw [heq]
  · exact iff_of_false (by rw [heq]; simp) hplace

/-- Files that do not have the names of temporary files make no difference to temporary files. -/
theorem freshTemp_eq (h : d.Alters touched d')
    (htemp : ∀ place ∈ touched, d.node? place = none →
      ∀ number, place.getLast? ≠ some (tempName number)) (folder : Text) :
    d'.freshTemp folder = d.freshTemp folder := by
  refine freshTemp_congr fun number => ?_
  rw [Bool.eq_iff_iff, isTaken_eq_true_iff, isTaken_eq_true_iff]
  refine exists_congr fun place => ?_
  simp only [exists_and_left]
  rw [h.sameFolders.follow_eq_ok_iff]
  refine and_congr_right fun hfollow => ?_
  rcases h.node place with heq | ⟨htouched, -, text, heq⟩
  · rw [heq]
  · rw [heq]
    refine iff_of_true ⟨_, rfl⟩ ?_
    cases hnode : d.node? place with
    | some node => exact ⟨node, rfl⟩
    -- a new file could only be taken for a temporary one by its name
    | none => exact absurd (getLast?_of_follow_tempPath hfollow) (htemp place htouched hnode number)

end Alters

/-! ### Fairness -/

/-- The places that some paths lead to. -/
def placesOf (d : Disk) (paths : Set Text) : Set (List Text) :=
  {place | ∃ path ∈ paths, d.follow path = .ok place}

private theorem mapError_eq_ok_iff {ε δ α : Type} {f : ε → δ} {answer : Except ε α} {a : α} :
    answer.mapError f = .ok a ↔ answer = .ok a := by
  cases answer <;> simp [Except.mapError]

section Fair

variable {start : Disk} {paths : Set Text} {v : Workspace τ} {T : Set τ} {s : Disk × τ}

/-- The states that restoring some files may lead to: nothing but those files was altered on the
disk. -/
def outcomes (start : Disk) (paths : Set Text) (T : Set τ) : Set (Disk × τ) :=
  {s | start.Alters (start.placesOf paths) s.1 ∧ s.2 ∈ T}

theorem operate_mem_outcomes (hv : v.Fair (WorkOp.Restores ∅) T) {op : WorkOp}
    (hop : op.Restores paths) (hs : s ∈ outcomes start paths T) :
    (operate perform v.handler op s).2 ∈ outcomes start paths T := by
  obtain ⟨d, t⟩ := s
  obtain ⟨halters, ht⟩ := hs
  cases op with
  | load path =>
    rw [operate, snd_run_load faulty_perform]
    exact ⟨halters, ht⟩
  | store path text =>
    have hreplaced := Files.replaced_store faulty_perform d path text
    rw [operate]
    generalize (Files.store path text).run perform d = outcome at hreplaced ⊢
    obtain ⟨answer, d'⟩ := outcome
    cases hreplaced with
    | failed e hsame => exact ⟨halters.trans (.of_same hsame), ht⟩
    | @done _ place hfollow hplace hrevises =>
      have hplaces : place ∈ start.placesOf paths :=
        ⟨path, hop, halters.sameFolders.follow_eq_ok_iff.1 hfollow⟩
      exact ⟨halters.trans (.of_revises hplaces hfollow hplace hrevises), ht⟩
  | fetch key => exact ⟨halters, hv.mem (.fetch key) trivial t ht⟩
  | drop key => exact ⟨halters, hv.mem (.drop key) trivial t ht⟩
  | isCancelled => exact hop.elim
  | keep key blob => exact hop.elim
  | keysWith lead => exact hop.elim

/-- A disk without faults is fair to the files that are restored, as long as none that is missing
has the name of a temporary file, and the store is fair. -/
theorem fair (hv : v.Fair (WorkOp.Restores ∅) T)
    (htemp : ∀ place ∈ start.placesOf paths, start.node? place = none →
      ∀ number, place.getLast? ≠ some (tempName number)) :
    (operate perform v.handler).Fair (contents v.contents) (WorkOp.Restores paths)
      (outcomes start paths T) := by
  refine ⟨fun op hop s hs => operate_mem_outcomes hv hop hs, ?_⟩
  rintro F op hop hreads ⟨d, t⟩ ⟨hd, ht⟩ ⟨d', t'⟩ ⟨hd', ht'⟩ hagree
  -- both disks come from the same one, and neither has other folders
  have hfolders : d.SameFolders d' := hd.sameFolders.symm.trans hd'.sameFolders
  have hblobs : (v.contents t).AgreeOn ⟨∅, F.keys⟩ (v.contents t') :=
    ⟨fun _ => False.elim, hagree.2⟩
  cases op with
  | load path =>
    have htext : d.textOf path = d'.textOf path := hagree.1 path hreads
    rw [operate, operate, Files.run_load, Files.run_load]
    refine WorkEvent.failed_load_congr fun text => ?_
    rw [mapError_eq_ok_iff, mapError_eq_ok_iff, readFile_eq_ok_iff_textOf,
      readFile_eq_ok_iff_textOf, htext]
    refine and_congr_right fun _ => exists_congr fun place => ?_
    rw [hfolders.follow_eq_ok_iff, hd.modeAt_eq, hd'.modeAt_eq]
  | store path text =>
    rw [operate, operate]
    refine WorkEvent.failed_store_congr ?_
    rw [Files.run_store_eq_ok_iff, Files.run_store_eq_ok_iff, hd.freshTemp_eq htemp,
      hd'.freshTemp_eq htemp]
    -- the text of the file that is replaced plays no part
    refine and_congr (exists_congr fun place => ?_) (exists_congr fun place => ?_)
    · rw [hfolders.follow_eq_ok_iff, Ne, Ne, hfolders.folder_iff]
    · rw [hfolders.follow_eq_ok_iff]
  | fetch key => exact hv.failed_eq ⟨∅, F.keys⟩ (.fetch key) trivial hreads t ht t' ht' hblobs
  | drop key => exact hv.failed_eq ⟨∅, F.keys⟩ (.drop key) trivial hreads t ht t' ht' hblobs
  | isCancelled => exact hop.elim
  | keep key blob => exact hop.elim
  | keysWith lead => exact hop.elim

end Fair

end Disk

end Reroute
