import Reroute.Proofs.Links
import Reroute.Proofs.Patching

/-!
# Batches whose files are patched side by side

The files of a batch may be patched side by side, their operations interleaved in any order. That
comes to the same as patching them one after the other, because a patch keeps to its own file and
its own snapshot.

There are three ways out of that. A snapshot that is there already is kept under the path it says it
is for, which need not be the path it was found under. So the snapshots of a batch must not stand in
each other's way. Snapshots that are for the paths they were found under never do. Two different
paths may lead to one file, which then is patched twice. And a pass that breaks off takes the batch
with it.

## Main definitions

* `Vault.recordedAs` — the path under which a snapshot of a file is kept
* `Vault.keysOf` — the keys of the vault that a patch looks at or changes
* `Footprint.own`, `Footprint.touched` — what the outcome of a patch depends on, and what it changes

## Main results

* `Profile.asks_patchFile` — the operations of a patch
* `Profile.run_patchFile_view` — where paths share files, a patch is as in a workspace of one file
* `Profile.reaches_patchFiles` — one after the other is one way to take turns
* `Profile.patchFiles_interleaved` — side by side comes to the same as one after the other
* `Profile.blob_ne_of_foreign_snapshot` — a snapshot that gets in the way of another file
* `Profile.attemptFiles_eq_none_of_stray_mark` — a pass that takes the batch with it
-/

namespace Reroute

open Vault (keyOf renewal?)

/-! ### Diffs that are all accepted -/

namespace Sink

variable {sink : Sink}

/-- A write to a sink without a bound. -/
theorem put_of_unbounded (h : sink.budget = none) (text : Text) :
    (sink.put text).2 = true ∧ (sink.put text).1.budget = none := by
  rw [put, h]
  exact ⟨rfl, rfl⟩

theorem putDiffLine_of_unbounded (h : sink.budget = none) (coloured : Bool) (line : Text) :
    (sink.putDiffLine coloured line).2 = true ∧
      (sink.putDiffLine coloured line).1.budget = none := by
  rw [putDiffLine]
  cases (DiffLine.ofText line).colour? with
  | none =>
    simp only [putPlain]
    split
    · exact put_of_unbounded h line
    · exact ⟨rfl, h⟩
  | some colour =>
    simp only
    split
    · have hline := put_of_unbounded (put_of_unbounded h colour).2 line
      exact ⟨hline.1, (put_of_unbounded hline.2 _).2⟩
    · exact put_of_unbounded h line

theorem putDiff_of_unbounded (h : sink.budget = none) (coloured : Bool) (diff : Text) :
    (sink.putDiff coloured diff).2 = true ∧ (sink.putDiff coloured diff).1.budget = none := by
  rw [putDiff]
  induction diff.lines.filter fun line => !line.isEmpty generalizing sink with
  | nil => exact ⟨rfl, h⟩
  | cons line rest ih =>
    obtain ⟨haccepted, hbudget⟩ := putDiffLine_of_unbounded h coloured line
    rw [putDiffLines]
    generalize sink.putDiffLine coloured line = put at haccepted hbudget
    obtain ⟨sink', accepted⟩ := put
    subst haccepted
    exact ih hbudget

end Sink

/-- If no diff can be refused, what went wrong is what went wrong with the files. -/
theorem FileOutcome.snd_showAll_eq {sink : Sink} {outcomes : List FileOutcome} (coloured : Bool)
    (h : sink.budget = none ∨ ∀ o ∈ outcomes, o.diff = []) :
    (showAll coloured sink outcomes).2 = outcomes.filterMap error? := by
  have hall : (showDiffs coloured sink outcomes).2 = true := by
    induction outcomes generalizing sink with
    | nil => rfl
    | cons o rest ih =>
      have hput : (sink.putDiff coloured o.diff).2 = true ∧
          ((sink.putDiff coloured o.diff).1.budget = none ∨ ∀ o ∈ rest, o.diff = []) := by
        rcases h with hbudget | hnone
        · exact (Sink.putDiff_of_unbounded hbudget coloured o.diff).imp_right .inl
        · rw [hnone o List.mem_cons_self]
          exact ⟨Profile.snd_putDiff_nil coloured sink, .inr (List.forall_mem_cons.1 hnone).2⟩
      rw [showDiffs]
      generalize sink.putDiff coloured o.diff = put at hput
      obtain ⟨sink', accepted⟩ := put
      obtain ⟨rfl, hrest⟩ := hput
      exact ih hrest
  simp only [showAll, hall, if_true, List.append_nil]

/-! ### The keys of a patch -/

section Format

variable [Snapshot.Format]

namespace Vault

/-- The path under which a snapshot of a file is kept: the one that the snapshot which is there says
it is for. -/
def recordedAs (c : Contents) (abs : Text) : Text :=
  match (c.blob (keyOf abs)).bind Snapshot.decode? with
  | some s => s.path
  | none => abs

/-- The keys of the vault that recording a file looks at or changes. -/
def keysOf (c : Contents) (abs : Text) : Set Text := {keyOf abs, keyOf (recordedAs c abs)}

theorem path_of_renewal? {c : Contents} {abs before after : Text} {s : Snapshot}
    (h : renewal? abs before after (c.blob (keyOf abs)) = some s) : s.path = recordedAs c abs := by
  rw [recordedAs]
  cases hblob : c.blob (keyOf abs) with
  | none =>
    rw [hblob] at h
    cases h
    rfl
  | some blob =>
    rw [hblob, renewal?, Option.map_eq_some_iff] at h
    obtain ⟨found, hfound, rfl⟩ := h
    rw [Option.bind_some, hfound]

/-- Snapshots that are for the paths they were found under do not stand in each other's way. -/
theorem pairwise_keysOf {c : Contents} {cwd : Text} {paths : List Text}
    (hdistinct : (paths.map (Path.absolute cwd)).Nodup)
    (hown : ∀ path ∈ paths, recordedAs c (Path.absolute cwd path) = Path.absolute cwd path) :
    paths.Pairwise fun a b =>
      ∀ key ∈ keysOf c (Path.absolute cwd a), key ∉ keysOf c (Path.absolute cwd b) := by
  refine (List.pairwise_map.1 hdistinct).imp_of_mem fun {a b} ha hb hne => ?_
  rw [keysOf, keysOf, hown a ha, hown b hb, Set.pair_eq_singleton, Set.pair_eq_singleton]
  rintro _ rfl heq
  exact hne (keyOf_injective heq)

end Vault

namespace Footprint

/-- What the outcome of patching a file depends on: the file and, with snapshots, its snapshot. -/
def own (cwd path : Text) (snapshots : Bool) : Footprint :=
  ⟨{path}, {key | snapshots = true ∧ key = keyOf (Path.absolute cwd path)}⟩

/-- What patching a file looks at or changes. -/
def touched (c : Contents) (cwd path : Text) (snapshots : Bool) : Footprint :=
  ⟨{path}, {key | snapshots = true ∧ key ∈ Vault.keysOf c (Path.absolute cwd path)}⟩

/-- Contents that agree on what a patch touches agree on what its outcome depends on. -/
theorem agreeOn_own {c c₁ c₂ : Contents} {cwd path : Text} {snapshots : Bool}
    (h : c₁.AgreeOn (touched c cwd path snapshots) c₂) :
    c₁.AgreeOn (own cwd path snapshots) c₂ := by
  refine ⟨h.1, fun key hkey => h.2 key ⟨hkey.1, ?_⟩⟩
  rw [hkey.2]
  exact Set.mem_insert _ _

/-- Different files with snapshots that do not stand in each other's way. -/
theorem pairwise_apart_touched {c : Contents} {cwd : Text} {paths : List Text} {snapshots : Bool}
    (hdistinct : (paths.map (Path.absolute cwd)).Nodup)
    (hkeys : snapshots = true → paths.Pairwise fun a b =>
      ∀ key ∈ Vault.keysOf c (Path.absolute cwd a), key ∉ Vault.keysOf c (Path.absolute cwd b)) :
    paths.Pairwise fun a b => (touched c cwd a snapshots).Apart (touched c cwd b snapshots) := by
  have hfiles : paths.Pairwise fun a b => ∀ path ∈ ({a} : Set Text), path ∉ ({b} : Set Text) := by
    refine (List.pairwise_map.1 hdistinct).imp fun hne => ?_
    rintro _ rfl heq
    exact hne (congrArg _ heq)
  cases snapshots with
  | false =>
    exact hfiles.imp fun hfile => ⟨hfile, fun key hkey => absurd hkey.1 Bool.false_ne_true⟩
  | true =>
    refine (hfiles.and (hkeys rfl)).imp fun hboth => ⟨hboth.1, fun key hkey hkey' => ?_⟩
    exact hboth.2 key hkey.2 hkey'.2

end Footprint

/-! ### Patching side by side -/

namespace Profile

variable {σ : Type} {p : Profile} {cwd path : Text} {m : Mode} {c : Contents}

/-- The operations of a patch. -/
theorem asks_patchFile {P : WorkOp → Prop} (hcancelled : P .isCancelled) (hload : P (.load path))
    (hfetch : m.snapshots = true → P (.fetch (keyOf (Path.absolute cwd path))))
    (hkeep : m.snapshots = true →
      ∀ blob, P (.keep (keyOf (Vault.recordedAs c (Path.absolute cwd path))) blob))
    (hstore : ∀ text, P (.store path text)) : (p.attemptFile cwd m path).Asks P c := by
  have hguard : Allows (fun _ _ op => P op) cwd path m.snapshots c := by
    refine ⟨fun _ => hcancelled, fun _ => hload, fun h _ => hfetch h, ?_, fun _ _ _ _ _ _ _ => ?_⟩
    · intro hsnapshots past before after s _ _ hs
      rw [Vault.path_of_renewal? hs]
      exact hkeep hsnapshots _
    · exact hstore _
  rw [attemptFile_eq, Job.Asks, Job.always_bind]
  exact (always_patchFile hguard).imp fun _ _ _ _ => trivial

/-- A patch keeps to what it touches. -/
theorem asks_within_touched :
    (p.attemptFile cwd m path).Asks (WorkOp.Within (.touched c cwd path m.snapshots)) c :=
  asks_patchFile ⟨trivial, trivial⟩ ⟨rfl, trivial⟩
    (fun h => ⟨⟨h, Set.mem_insert _ _⟩, trivial⟩)
    (fun h _ => ⟨trivial, h, Set.mem_insert_of_mem _ rfl⟩) fun _ => ⟨trivial, rfl⟩

/-- A patch looks only at its own file and snapshot. -/
theorem asks_reads_own :
    (p.attemptFile cwd m path).Asks (WorkOp.ReadsIn (.own cwd path m.snapshots)) c :=
  asks_patchFile trivial rfl (fun h => ⟨h, rfl⟩) (fun _ _ => trivial) fun _ => trivial

/-- A patch is done with no file but its own. -/
theorem only_attemptFile (p : Profile) (cwd : Text) (m : Mode) (path : Text) :
    (p.attemptFile cwd m path).Only (WorkOp.FilesIn {path}) fun _ => True := by
  rw [attemptFile_eq]
  exact (only_patchFile p cwd m path).bind fun _ _ => trivial

theorem only_attemptFile_of_mem (p : Profile) (cwd : Text) (m : Mode) {paths : List Text}
    (h : path ∈ paths) :
    (p.attemptFile cwd m path).Only (WorkOp.FilesIn {path | path ∈ paths}) fun _ => True := by
  refine (only_attemptFile p cwd m path).imp (fun op hop => hop.mono ?_) fun _ => id
  rintro _ rfl
  exact h

theorem only_attemptFiles (p : Profile) (cwd : Text) (m : Mode) (paths : List Text) :
    (p.attemptFiles cwd m paths).Only (WorkOp.FilesIn {path | path ∈ paths}) fun _ => True := by
  induction paths with
  | nil => trivial
  | cons path rest ih =>
    refine (only_attemptFile_of_mem p cwd m List.mem_cons_self).bind ?_
    rintro (_ | outcome) -
    · trivial
    · refine (ih.imp (fun op hop => hop.mono ?_) fun _ => id).bind fun _ _ => trivial
      exact fun _ hmem => List.mem_cons_of_mem _ hmem

/-- Where paths may share their files, a file is patched as in the workspace that has no other file.
Other paths are left, unless they lead to it. -/
theorem run_patchFile_view (w : LinkedWorkspace σ) (p : Profile) (cwd : Text) (m : Mode)
    (path : Text) (s : σ) :
    let j := p.patchFile cwd m path
    j.run (w.view {path}).handler s = j.run w.handler s ∧
      j.events (w.view {path}).handler s = j.events w.handler s ∧
      ∀ other, ¬ w.Shares s path other →
        (w.contents (j.run w.handler s).2).file other = (w.contents s).file other := by
  exact w.run_view_singleton (only_patchFile p cwd m path) s

/-- What becomes of a file and its snapshot depends on nothing but the two. -/
theorem attemptFile_congr (w : LinkedWorkspace σ) {S : Set σ} (hw : w.handler.Steady w.contents S)
    {s t : σ} (hs : s ∈ S) (ht : t ∈ S)
    (h : (w.contents s).AgreeOn (.own cwd path m.snapshots) (w.contents t)) :
    ((p.attemptFile cwd m path).run w.handler s).1 =
        ((p.attemptFile cwd m path).run w.handler t).1 ∧
      (w.contents ((p.attemptFile cwd m path).run w.handler s).2).AgreeOn
        (.own cwd path m.snapshots)
        (w.contents ((p.attemptFile cwd m path).run w.handler t).2) := by
  -- a single path shares its file with no other of the view
  have hviewed : ∀ s, (p.attemptFile cwd m path).run (w.view {path}).handler s =
      (p.attemptFile cwd m path).run w.handler s := fun s =>
    (w.run_view_singleton (only_attemptFile p cwd m path) s).1
  obtain ⟨houtcome, hend⟩ := Job.run_congr (w.steady_view hw {path})
    ⟨hs, w.apart_singleton s path⟩ ⟨ht, w.apart_singleton t path⟩ asks_reads_own (h.restrict {path})
  rw [hviewed, hviewed] at houtcome hend
  exact ⟨houtcome, hend.of_restrict_of_subset subset_rfl⟩

/-! ### Patching one after the other -/

theorem run_attemptFile (h : Handler workInterface σ) (p : Profile) (cwd : Text) (m : Mode)
    (path : Text) (s : σ) :
    (p.attemptFile cwd m path).run h s =
      (((p.patchFile cwd m path).run h s).1.whole?, ((p.patchFile cwd m path).run h s).2) := by
  rw [attemptFile_eq, Job.run_monad_bind, Job.run_pure]

/-- If no pass breaks off, all files are patched. -/
theorem run_attemptFiles (h : Handler workInterface σ) {paths : List Text} {s : σ}
    (hwhole : ∀ o ∈ ((p.patchFiles cwd m paths).run h s).1, o.whole? = some o) :
    (p.attemptFiles cwd m paths).run h s =
      (some ((p.patchFiles cwd m paths).run h s).1, ((p.patchFiles cwd m paths).run h s).2) := by
  induction paths generalizing s with
  | nil => rfl
  | cons path rest ih =>
    rw [patchFiles, Job.run_monad_bind, Job.run_monad_bind, Job.run_pure] at hwhole ⊢
    obtain ⟨hfirst, hrest⟩ := List.forall_mem_cons.1 hwhole
    rw [attemptFiles, Job.run_monad_bind, run_attemptFile, hfirst]
    simp only [Job.run_monad_bind, ih hrest, Job.run_pure, Option.map_some]

/-- One after the other is one way to take turns. -/
theorem reaches_patchFiles (h : Handler workInterface σ) (p : Profile) (cwd : Text) (m : Mode)
    (paths : List Text) (s : σ) :
    Relation.ReflTransGen (Pool.Step h) ⟨s, paths.map (p.attemptFile cwd m)⟩
      ⟨((p.patchFiles cwd m paths).run h s).2,
        (((p.patchFiles cwd m paths).run h s).1.map FileOutcome.whole?).map .done⟩ := by
  induction paths generalizing s with
  | nil => exact .refl
  | cons path rest ih =>
    have hfirst := Pool.reaches_head (h := h) s (p.attemptFile cwd m path)
      (rest.map (p.attemptFile cwd m))
    rw [run_attemptFile] at hfirst
    rw [patchFiles, Job.run_monad_bind, Job.run_monad_bind]
    exact hfirst.trans (Pool.reaches_tail (ih _))

/-- A pass does not break off if it does not break off on the text of the file. -/
theorem attemptFile_ne_none (w : Workspace σ) {s : σ}
    (h : ∀ text, (w.contents s).file path = some text → p.attempt? text ≠ none) :
    ((p.attemptFile cwd m path).run w.handler s).1 ≠ none := by
  have halways : (p.attemptFile cwd m path).Always (fun _ _ op => op.FilesIn {path})
      (fun answer _ _ => answer ≠ none) [] (w.contents s) := by
    rw [attemptFile, Job.always_bind, Job.always_isCancelled]
    refine ⟨trivial, fun cancelled => ?_⟩
    cases cancelled with
    | true => exact Option.some_ne_none _
    | false =>
      rw [if_neg Bool.false_ne_true, Job.always_bind, Job.always_load]
      refine ⟨rfl, fun e => Option.some_ne_none _, fun before hfile => ?_⟩
      simp only
      cases hattempt : p.attempt? before with
      | none => exact absurd hattempt (h before hfile)
      | some done =>
        obtain ⟨log, text, result⟩ := done
        cases result with
        | error e => exact Option.some_ne_none _
        | ok r =>
          refine Job.always_bind.2 (((only_finish ..).always _ _).imp fun _ _ _ _ => ?_)
          exact Option.some_ne_none _
  exact halways.run w

/-- The files of a batch with what patching them touches. -/
def batch (p : Profile) (cwd : Text) (m : Mode) (c : Contents) (paths : List Text) :
    List (Pool.Task (Option FileOutcome)) :=
  paths.map fun path => (.touched c cwd path m.snapshots, p.attemptFile cwd m path)

section Batch

variable {w : Workspace σ} {S : Set σ} {s : σ} {paths : List Text} (hw : w.Steady S) (hs : s ∈ S)
  (hdistinct : (paths.map (Path.absolute cwd)).Nodup)
  (hkeys : m.snapshots = true → paths.Pairwise fun a b =>
    ∀ key ∈ Vault.keysOf (w.contents s) (Path.absolute cwd a),
      key ∉ Vault.keysOf (w.contents s) (Path.absolute cwd b))

include hw hs hdistinct hkeys

/-- Where every path has a file of its own, files that are patched side by side end up as if each
had been patched alone. -/
theorem ends_batch : Pool.Ends w.handler (Pool.Separate w s (p.batch cwd m (w.contents s) paths))
    ⟨s, paths.map (p.attemptFile cwd m)⟩ := by
  have hjobs : (p.batch cwd m (w.contents s) paths).map Prod.snd =
      paths.map (p.attemptFile cwd m) := by simp [batch]
  rw [← hjobs]
  refine Pool.ends_separate hw hs ?_ ?_
  · exact List.pairwise_map.2 (Footprint.pairwise_apart_touched hdistinct hkeys)
  · exact List.forall_mem_map.2 fun path _ => asks_within_touched

/-- So do files that are patched one after the other, if no pass breaks off. -/
theorem exists_inTurn
    (hwhole : ∀ path ∈ paths, ∀ text, (w.contents s).file path = some text →
      p.attempt? text ≠ none) :
    ∃ outcomes s', (p.attemptFiles cwd m paths).run w.handler s = (some outcomes, s') ∧
      (outcomes = paths.map fun path => ((p.patchFile cwd m path).run w.handler s).1) ∧
      Pool.Separate w s (p.batch cwd m (w.contents s) paths) (outcomes.map some) s' := by
  have hseparate := (ends_batch (p := p) hw hs hdistinct hkeys).of_reaches
    (reaches_patchFiles w.handler p cwd m paths s)
  generalize hrun : (p.patchFiles cwd m paths).run w.handler s = run at hseparate
  obtain ⟨outcomes, s'⟩ := run
  have halone : ∀ path ∈ paths, ((p.attemptFile cwd m path).run w.handler s).1 =
      some ((p.patchFile cwd m path).run w.handler s).1 := by
    intro path hpath
    -- every pass, started from the beginning, finds the text that it does not break off on
    have hne : ((p.attemptFile cwd m path).run w.handler s).1 ≠ none :=
      attemptFile_ne_none w (hwhole path hpath)
    rw [run_attemptFile] at hne ⊢
    exact FileOutcome.whole?_of_ne_none hne
  -- each outcome is that of one of the passes alone, and none of them breaks off
  have hmap : outcomes.map FileOutcome.whole? =
      (paths.map fun path => ((p.patchFile cwd m path).run w.handler s).1).map some := by
    rw [hseparate.outcomes_eq, batch, List.map_map, List.map_map]
    exact List.map_congr_left halone
  have hall : ∀ o ∈ outcomes, o.whole? = some o := by
    intro o ho
    have hmem := List.mem_map_of_mem (f := FileOutcome.whole?) ho
    rw [hmap] at hmem
    obtain ⟨o', -, heq⟩ := List.mem_map.1 hmem
    exact FileOutcome.whole?_of_ne_none (heq ▸ Option.some_ne_none o')
  rw [List.map_congr_left hall] at hseparate hmap
  refine ⟨outcomes, s', ?_, List.map_injective_iff.2 (Option.some_injective _) hmap, hseparate⟩
  rw [run_attemptFiles w.handler (by rwa [hrun]), hrun]

end Batch

/-- Files with different absolute paths, of which no two lead to the same file, are patched side by
side, in a workspace whose answers depend on nothing but what an operation reads. No pass over one
of them breaks off, and their snapshots do not stand in each other's way. Then, in whatever order
the operations come, the patches end. They come to the same as patching the files one after the
other: the outcomes with their reports and errors in the order of the files, the files, and the
vault. If no diff can be refused, the errors are those of the files. Each outcome and what becomes
of the file and its snapshot depend only on what that file and that snapshot were; and a file whose
patch fails is not written. -/
theorem patchFiles_interleaved (w : LinkedWorkspace σ) (S : Set σ)
    (hw : w.handler.Steady w.contents S) (p : Profile) (cwd : Text) (m : Mode) (paths : List Text)
    (s : σ) (hs : s ∈ S)
    (hwhole : ∀ path ∈ paths, ∀ text, (w.contents s).file path = some text → p.attempt? text ≠ none)
    (hdistinct : (paths.map (Path.absolute cwd)).Nodup) (hapart : w.Apart s {path | path ∈ paths})
    (hkeys : m.snapshots = true → paths.Pairwise fun a b =>
      ∀ key ∈ Vault.keysOf (w.contents s) (Path.absolute cwd a),
        key ∉ Vault.keysOf (w.contents s) (Path.absolute cwd b)) :
    let inTurn := (p.attemptFiles cwd m paths).run w.handler s
    ∃ outcomes, inTurn.1 = some outcomes ∧
      (∀ coloured sink, sink.budget = none ∨ m.diff = false →
        (FileOutcome.showAll coloured sink outcomes).2 = outcomes.filterMap FileOutcome.error?) ∧
      Pool.Ends w.handler
        (fun results s' =>
          results = outcomes.map some ∧
          (w.contents s').blob = (w.contents inTurn.2).blob ∧
          (∀ path, (path ∈ paths ∨ ∀ own ∈ paths, ¬ w.Shares s own path) →
            (w.contents s').file path = (w.contents inTurn.2).file path) ∧
          ∀ (i : Nat) path, paths[i]? = some path → ∃ o, outcomes[i]? = some o ∧
            (∀ t ∈ S, (w.contents s).AgreeOn (.own cwd path m.snapshots) (w.contents t) →
              ((p.attemptFile cwd m path).run w.handler t).1 = some o ∧
                (w.contents s').AgreeOn (.own cwd path m.snapshots)
                  (w.contents ((p.attemptFile cwd m path).run w.handler t).2)) ∧
            (o.error? ≠ none → (w.contents s').file path = (w.contents s).file path))
        ⟨s, paths.map (p.attemptFile cwd m)⟩ := by
  intro inTurn
  -- all takes place in the view of the batch, where every path has a file of its own
  have hsteady := w.steady_view hw {path | path ∈ paths}
  have hfile : ∀ path ∈ paths, ∀ t, ((w.view {path | path ∈ paths}).contents t).file path =
      (w.contents t).file path := fun path hpath t => w.file_view hpath t
  have hends := ends_batch (p := p) hsteady ⟨hs, hapart⟩ hdistinct hkeys
  obtain ⟨outcomes, s₁, hrun, hmap, hinTurn⟩ := exists_inTurn (p := p) hsteady ⟨hs, hapart⟩
    hdistinct hkeys fun path hpath text htext =>
      hwhole path hpath text ((hfile path hpath s).symm.trans htext)
  obtain ⟨hsame, -, -, hleft⟩ := w.run_view hapart ((only_attemptFiles p cwd m paths).asks _)
  have hturn : inTurn = (some outcomes, s₁) := hsame.symm.trans hrun
  refine ⟨outcomes, congrArg Prod.fst hturn, fun coloured sink hsink => ?_, ?_⟩
  · refine FileOutcome.snd_showAll_eq coloured (hsink.imp_right fun hdiff => ?_)
    rw [hmap]
    exact List.forall_mem_map.2 fun path _ =>
      (patched_patchFile (w.view {path | path ∈ paths}) p cwd path m s).diff_eq_nil hdiff
  refine (w.ends_of_view hapart (List.forall_mem_map.2 fun path hpath =>
    only_attemptFile_of_mem p cwd m hpath) hends).imp fun results s' hmeets => ?_
  obtain ⟨hseparate, hothers⟩ := hmeets
  obtain ⟨hresults, hcontents⟩ := hseparate.unique hinTurn
  refine ⟨hresults, ?_, fun path hpath => ?_, fun i path hpath => ?_⟩
  · rw [hturn, ← w.blob_view {path | path ∈ paths}, ← w.blob_view {path | path ∈ paths} s₁,
      hcontents]
  · rcases hpath with hown | hother
    · rw [hturn, ← hfile path hown, ← hfile path hown, hcontents]
    · rw [hothers path hother]
      exact (hleft path hother).symm
  · -- on its own footprint, the end is that of the patch alone
    have hmem : path ∈ paths := List.mem_of_getElem? hpath
    obtain ⟨hviewed, -⟩ := w.run_view hapart ((only_attemptFile_of_mem p cwd m hmem).asks _)
    have halone := Footprint.agreeOn_own (hseparate.agreeOn _ (List.mem_map_of_mem hmem))
    have hith : (outcomes.map some)[i]? =
        some ((p.attemptFile cwd m path).run (w.view {path | path ∈ paths}).handler s).1 := by
      rw [hinTurn.outcomes_eq, batch, List.getElem?_map, List.getElem?_map, hpath]
      rfl
    rw [List.getElem?_map, Option.map_eq_some_iff, hviewed] at hith
    obtain ⟨o, ho, hsome⟩ := hith
    refine ⟨o, ho, fun t ht hagree => ?_, fun herror => ?_⟩
    · obtain ⟨houtcome, hend⟩ := attemptFile_congr w hw hs ht hagree
      simp only [hviewed] at halone
      refine ⟨houtcome.symm.trans hsome.symm, .trans ?_ hend⟩
      exact halone.of_restrict_of_subset (Set.singleton_subset_iff.2 hmem)
    · rw [hmap, List.getElem?_map, hpath] at ho
      cases ho
      obtain ⟨e, he⟩ := Option.ne_none_iff_exists'.1 herror
      have hkept :=
        (patched_patchFile (w.view {path | path ∈ paths}) p cwd path m s).file_eq_of_error he
      rw [← hfile path hmem, halone.1 path rfl]
      simp only [run_attemptFile]
      rw [hkept, hfile path hmem]

end Profile

end Format

namespace Profile

/-- One file can be patched; the others are missing, have no anchor, and have a snapshot that cannot
be read. In whatever order the operations come, the first is stored and the others are not. -/
theorem patchFiles_interleaved_among_failures :
    let p : Profile := { standard with
      helper := ⟨"log", "fn log", "\nfn log();"⟩, routes := [⟨"read_file", "read", "p", "\"s\""⟩] }
    let mode : Mode := ⟨false, false, false, true⟩
    let w := Memory.workspace.unlinked
    let files : Keyed Text Text := Keyed.empty.insert "/a.rs" "use std::sync::Arc;"
    let m : Memory := ⟨(files.insert "/c.rs" "fn main").insert "/d.rs" "use std::sync::Arc;",
      Keyed.empty.insert "snapshot:/d.rs" "?", .none, 0⟩
    let paths : List Text := ["/a.rs", "/b.rs", "/c.rs", "/d.rs"]
    Pool.Ends w.handler
      (fun results s' =>
        results.map (·.map FileOutcome.error?) =
            [some none, some (some (.source .missing)),
              some (some (.patch "/c.rs" (.anchorMissing "use std::sync::Arc;"))),
              some (some (.snapshot "/d.rs" (.undecodable "/d.rs")))] ∧
          (w.contents s').file "/a.rs" = some "use std::sync::Arc;\nfn log();" ∧
          (w.contents s').file "/d.rs" = some "use std::sync::Arc;")
      ⟨m, paths.map (p.attemptFile "/work" mode)⟩ := by
  intro p mode w files m paths
  have hdistinct : (paths.map (Path.absolute "/work")).Nodup := by decide +kernel
  have hown : ∀ path ∈ paths, Vault.recordedAs (w.contents m) (Path.absolute "/work" path) =
      Path.absolute "/work" path := by
    decide +kernel
  have hwhole : ∀ path ∈ paths, ∀ text, (w.contents m).file path = some text →
      p.attempt? text ≠ none := by
    have hall : ∀ path ∈ paths, ((w.contents m).file path).all (p.attempt? · |>.isSome) := by
      decide +kernel
    intro path hpath text htext
    have hsome := hall path hpath
    rw [htext, Option.all_some] at hsome
    exact Option.isSome_iff_ne_none.1 hsome
  obtain ⟨outcomes, hinTurn, -, hends⟩ := patchFiles_interleaved w {m | m.faults = .none}
    (Memory.steady rfl) p "/work" mode paths m rfl hwhole hdistinct (fun _ _ _ _ => id)
    fun _ => Vault.pairwise_keysOf hdistinct hown
  have herrors : ((p.attemptFiles "/work" mode paths).run w.handler m).1.map
      (·.map FileOutcome.error?) = some [none, some (.source .missing),
        some (.patch "/c.rs" (.anchorMissing "use std::sync::Arc;")),
        some (.snapshot "/d.rs" (.undecodable "/d.rs"))] := by
    decide +kernel
  rw [hinTurn, Option.map_some, Option.some_inj] at herrors
  refine hends.imp fun results s' hmeets => ?_
  obtain ⟨rfl, -, hfiles, -⟩ := hmeets
  refine ⟨?_, ?_, ?_⟩
  · have hmapped := congrArg (List.map some) herrors
    rwa [List.map_map] at hmapped ⊢
  · rw [hfiles _ (.inl (by decide +kernel))]
    decide +kernel
  · rw [hfiles _ (.inl (by decide +kernel))]
    decide +kernel

/-- The snapshot that stands under the key of one file says that it is for another one, which does
not exist: patching both leaves a snapshot of the latter. -/
theorem blob_ne_of_foreign_snapshot :
    let p : Profile := { standard with
      helper := ⟨"log", "fn log", "\nfn log();"⟩, routes := [⟨"read_file", "read", "p", "\"s\""⟩] }
    let mode : Mode := ⟨false, false, false, true⟩
    let m : Memory := ⟨Keyed.empty.insert "/a.rs" "use std::sync::Arc;",
      Keyed.empty.insert "snapshot:/a.rs" (0x81 :: 0xa1 :: 0x70 :: 0xa5 :: Text.ofString "/b.rs"),
      .none, 0⟩
    let both := (p.attemptFiles "/work" mode ["/a.rs", "/b.rs"]).run Memory.perform m
    let alone := (p.attemptFile "/work" mode "/b.rs").run Memory.perform m
    both.2.contents.blob (keyOf "/b.rs") ≠ alone.2.contents.blob (keyOf "/b.rs") := by
  decide +kernel

/-- A pass of an accepted profile breaks off. That another file is missing is then not told,
although it would be told of that file alone. -/
theorem attemptFiles_eq_none_of_stray_mark :
    let p : Profile := ⟨"A", ⟨"h", "h(", "h()"⟩, [0xFF], "fn ", "ok(", [⟨"f", "c", "p", "s"⟩]⟩
    let mode : Mode := ⟨false, false, false, false⟩
    let m : Memory := ⟨Keyed.empty.insert "/a.rs" "A", Keyed.empty, .none, 0⟩
    let both := (p.attemptFiles "/work" mode ["/b.rs", "/a.rs"]).run Memory.perform m
    let alone := (p.attemptFile "/work" mode "/b.rs").run Memory.perform m
    p.validate = .ok () ∧ both.1.isNone = true ∧
      alone.1.bind FileOutcome.error? = some (.source .missing) := by
  decide +kernel

end Profile

end Reroute
