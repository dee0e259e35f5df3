import Reroute.Proofs.Disk.Workspace

/-!
# Restoring everything

A session may restore every file that has a snapshot, and after them the listed files that have
none. Which files it attempts, what becomes of each of them, and what is left when all goes well, is
shown here for every session that finds a workspace behind its operations. Its files may fail to be
read or written, and of the store nothing is asked but that it can be opened and listed.

Two paths with a snapshot may lead to one file. Restored alone, either gives the file its own
recorded text; restored together, the one that comes last prevails. So the paths must lead to
different files, which they do on a disk without links.

## Main definitions

* `Contents.recorded` — the paths that have a snapshot
* `LinkedWorkspace.Serves` — the sessions on a workspace
* `Vault.Lists` — a list of the paths that have a snapshot

## Main results

* `Config.run_restore_everything` — what a session attempts
* `Vault.Lists.agreeOn_alone` — a file ends up as if it had been restored alone
* `Config.restore_everything` — what a session that restores everything comes to
* `Disk.apart_recorded` — without links, the paths that have a snapshot lead to different files
* `Config.restore_of_meeting_paths` — two paths that lead to one file
-/

namespace Reroute

open Disk (operate perform)

open Vault (keyOf)

variable {σ τ α : Type}

/-! ### The paths that have a snapshot -/

/-- The paths that have a snapshot. -/
def Contents.recorded (c : Contents) : Set Text := {path | c.blob (keyOf path) ≠ none}

namespace Vault

/-- The paths that have a snapshot, each once and in ascending order. -/
structure Lists (c : Contents) (known : List Text) : Prop where
  sorted : known.Pairwise fun a b => Text.lt a b = true
  mem_iff : ∀ path, path ∈ known ↔ path ∈ c.recorded

theorem Lists.nodup {c : Contents} {known : List Text} (h : Lists c known) : known.Nodup := by
  refine h.sorted.imp fun {a b} hlt heq => ?_
  rw [heq, Text.lt_irrefl] at hlt
  cases hlt

theorem Lists.of_blob_eq {c c' : Contents} {known : List Text} (h : Lists c known)
    (hblob : c'.blob = c.blob) : Lists c' known :=
  ⟨h.sorted, fun path => by rw [h.mem_iff, Contents.recorded, Contents.recorded, hblob]⟩

/-- The paths that have a snapshot are listed in one way. -/
theorem Lists.unique {c : Contents} {known known' : List Text} (h : Lists c known)
    (h' : Lists c known') : known = known' := by
  have hperm : known.Perm known' := (List.perm_ext_iff_of_nodup h.nodup h'.nodup).2 fun path =>
    (h.mem_iff path).trans (h'.mem_iff path).symm
  refine hperm.eq_of_pairwise (fun a b _ _ hab hba => ?_) h.sorted h'.sorted
  have hlt := Text.lt_trans hab hba
  rw [Text.lt_irrefl] at hlt
  cases hlt

/-- A listing without paths. -/
theorem Lists.eq_nil {c : Contents} {known : List Text} (h : Lists c known)
    (hnone : c.recorded = ∅) : known = [] := by
  refine List.eq_nil_iff_forall_not_mem.2 fun path hpath => ?_
  have hmem := (h.mem_iff path).1 hpath
  rw [hnone] at hmem
  exact hmem

/-- The paths of the keys of a store. -/
theorem lists_of_keys {c : Contents} {keys : List Text} (hnodup : keys.Nodup)
    (hkeys : ∀ key, key ∈ keys ↔ lead <+: key ∧ (c.blob key).isSome = true) :
    Lists c (Text.sort (keys.map pathOf)) := by
  refine ⟨pairwise_lt_sort_map_pathOf (fun key hkey => ((hkeys key).1 hkey).1) hnodup,
    fun path => ?_⟩
  rw [mem_sort_map_pathOf_iff hkeys, Option.isSome_iff_ne_none]
  rfl

/-- The operations of restoring files that are listed or have no snapshot. -/
theorem Lists.permits {c : Contents} {known : List Text} {cwd path : Text} (h : Lists c known)
    (hpath : path ∈ known ∨ Path.absolute cwd path ∉ known) :
    Permits (WorkOp.Restores {p | p ∈ known}) cwd path c := by
  refine ⟨trivial, fun hsome => ?_⟩
  -- what has a snapshot is attempted under its absolute path
  have hlisted : Path.absolute cwd path ∈ known := (h.mem_iff _).2 hsome
  have hmem : path ∈ known := hpath.resolve_right (not_not_intro hlisted)
  exact ⟨hmem, fun _ => hmem, trivial⟩

/-- A list of the paths under whose keys a store has blobs. -/
theorem lists_of_store {c : Contents} (store : Store) {known : List Text}
    (hblob : c.blob = store.find?) (hsorted : known.Pairwise fun a b => Text.lt a b = true)
    (hkeys : ∀ key ∈ store.keys, key ∈ known.map keyOf)
    (hknown : ∀ path ∈ known, keyOf path ∈ store.keys) : Lists c known := by
  refine ⟨hsorted, fun path => ?_⟩
  change path ∈ known ↔ c.blob (keyOf path) ≠ none
  rw [hblob, ← Option.isSome_iff_ne_none, ← Keyed.mem_keys_iff]
  refine ⟨hknown path, fun hkey => ?_⟩
  obtain ⟨other, hother, heq⟩ := List.mem_map.1 (hkeys _ hkey)
  rwa [← keyOf_injective heq]

section Format

variable [Snapshot.Format] {v : Workspace σ} {s t : σ} {cwd path : Text}
  {known others : List Text} (hentries : AllEntries cwd (v.contents s).blob)
  (hothers : ∀ t ∈ others, Path.absolute cwd t ∉ known)

include hentries

/-- A path that has a snapshot is its own absolute path. -/
theorem Lists.absolute_eq (h : Lists (v.contents s) known) (hpath : path ∈ known) :
    Path.absolute cwd path = path :=
  hentries.absolute_of_blob ((h.mem_iff path).1 hpath)

theorem Lists.asks_restore (h : Lists (v.contents s) known) (hpath : path ∈ known) (force : Bool) :
    (restore cwd path force).Asks (WorkOp.Restores {p | p ∈ known}) (v.contents s) :=
  (hentries.always_restore (h.permits (.inl hpath)) force []).imp fun _ _ _ _ => trivial

include hothers

/-- Restoring all files that have a snapshot, and some that have none. -/
theorem Lists.asks_restoreEach (h : Lists (v.contents s) known) (force : Bool) :
    (restoreEach cwd force (known ++ others)).Asks (WorkOp.Restores {p | p ∈ known})
      (v.contents s) := by
  refine hentries.asks_restoreEach fun t ht => h.permits ?_
  exact (List.mem_append.1 ht).imp_right (hothers t)

/-- Each file that has a snapshot ends up as if it had been restored alone. -/
theorem Lists.agreeOn_alone (h : Lists (v.contents s) known) (force : Bool) {S : Set σ}
    (hv : v.Fair (WorkOp.Restores {p | p ∈ known}) S) (hs : s ∈ S) (ht : t ∈ S)
    (hsame : v.contents s = v.contents t) (hpath : path ∈ known) :
    (v.contents ((restoreEach cwd force (known ++ others)).run v.handler s).2).AgreeOn
      (.own cwd path true) (v.contents ((restore cwd path force).run v.handler t).2) := by
  -- the path stands once in the listing, and no other path means the same file
  obtain ⟨before, after, hsplit⟩ := List.append_of_mem hpath
  have hnodup := h.nodup
  rw [hsplit] at hnodup
  have hne : ∀ t ∈ before ++ after, t ≠ path := by
    rintro t ht rfl
    exact (List.nodup_middle.1 hnodup).notMem ht
  have htargets : known ++ others = before ++ path :: (after ++ others) := by
    rw [hsplit, List.append_assoc, List.cons_append]
  rw [htargets]
  refine hentries.agreeOn_alone hv hs ht (fun t ht => h.permits ?_) (fun t ht => ?_)
    (hsame ▸ .refl _)
  · rw [← htargets] at ht
    exact (List.mem_append.1 ht).imp_right (hothers t)
  · rw [← List.append_assoc, List.mem_append] at ht
    rw [h.absolute_eq hentries hpath]
    rcases ht with ht | ht
    · have hlisted : t ∈ known := by
        rw [hsplit]
        exact List.mem_append.2 ((List.mem_append.1 ht).imp_right (List.mem_cons_of_mem _))
      rw [h.absolute_eq hentries hlisted]
      exact hne t ht
    · exact fun heq => hothers t ht (heq ▸ hpath)

section Forced

variable (hworks : ∀ event ∈ (restoreEach cwd true (known ++ others)).events v.handler s,
  event.failed = false)

include hworks

/-- By force and without failures, every file that has a snapshot gets its recorded text. -/
theorem Lists.file_forced (h : Lists (v.contents s) known) (hpath : path ∈ known) :
    ∃ blob snapshot text, (v.contents s).blob (keyOf path) = some blob ∧
      Snapshot.decode? blob = some snapshot ∧ snapshot.text? = some text ∧
      (v.contents ((restoreEach cwd true (known ++ others)).run v.handler s).2).file path =
        some text := by
  obtain ⟨text, hholds⟩ := hentries.exists_holds ((h.mem_iff path).1 hpath)
  have horiginal := hholds.original?_eq
  obtain ⟨hpack, f, hblob⟩ := hholds
  refine ⟨_, _, text, hblob, hpack.blob_read f, hpack.frame_read, ?_⟩
  -- no other spelling of a path with a snapshot is among the files
  have howns : ∀ t ∈ known ++ others,
      (v.contents s).blob (keyOf (Path.absolute cwd t)) ≠ none → Path.absolute cwd t = t := by
    intro t ht hsome
    rcases List.mem_append.1 ht with hlisted | hother
    · exact h.absolute_eq hentries hlisted
    · exact absurd ((h.mem_iff _).2 hsome) (hothers t hother)
  rw [hentries.contents_restoreEach hworks, hentries.file_foldl_revert howns,
    if_pos (List.mem_append_left _ hpath), horiginal, Option.some_or]

omit hothers in
/-- By force and without failures, no snapshot is left. -/
theorem Lists.recorded_forced (h : Lists (v.contents s) known) :
    (v.contents ((restoreEach cwd true (known ++ others)).run v.handler s).2).recorded = ∅ := by
  rw [hentries.contents_restoreEach hworks]
  refine Set.eq_empty_of_forall_notMem fun path hpath => hpath (hentries.blob_foldl_revert ?_)
  -- nothing comes into the store, and what was in it is restored
  by_cases hnone : (v.contents s).blob (keyOf path) = none
  · exact .inl hnone
  · have hmem : path ∈ known := (h.mem_iff path).2 hnone
    exact .inr ⟨path, List.mem_append_left _ hmem, by rw [h.absolute_eq hentries hmem]⟩

end Forced

end Format

end Vault

/-! ### Sessions on a workspace -/

/-- A session finds a workspace behind its operations, with a store in a folder. As long as it is in
one of some states, the store can be opened and listed, which leaves files and blobs as they are. -/
structure LinkedWorkspace.Serves (w : LinkedWorkspace σ) (h : Handler sessionInterface σ)
    (folder : Text) (S : Set σ) : Prop where
  work : h.work folder = w.handler
  opens : ∀ s ∈ S, (h (.openArchive folder) s).1 = .ok ()
  opens_mem : ∀ s ∈ S, (h (.openArchive folder) s).2 ∈ S
  contents_opens : ∀ s ∈ S, w.contents (h (.openArchive folder) s).2 = w.contents s
  shares_opens : ∀ s ∈ S, ∀ path other,
    w.Shares (h (.openArchive folder) s).2 path other → w.Shares s path other
  lists : ∀ s ∈ S, ∃ keys : List Text,
    (w.handler (.keysWith Vault.lead) s).1 = .ok keys ∧ keys.Nodup
  lists_mem : ∀ s ∈ S, (w.handler (.keysWith Vault.lead) s).2 ∈ S

namespace LinkedWorkspace

variable {w : LinkedWorkspace σ} {h : Handler sessionInterface σ} {folder : Text} {S : Set σ}
  {s : σ}

/-- The state in which a session comes to the files: the store is open and was listed. -/
def started (w : LinkedWorkspace σ) (h : Handler sessionInterface σ) (folder : Text) (s : σ) : σ :=
  (w.handler (.keysWith Vault.lead) (h (.openArchive folder) s).2).2

namespace Serves

variable (hserves : w.Serves h folder S) (hs : s ∈ S)

include hserves hs

/-- A store is listed with the paths that have a snapshot. -/
theorem exists_lists : ∃ keys, (w.handler (.keysWith Vault.lead) s).1 = .ok keys ∧
    Vault.Lists (w.contents s) (Text.sort (keys.map Vault.pathOf)) ∧
    w.contents (w.handler (.keysWith Vault.lead) s).2 = w.contents s := by
  obtain ⟨keys, hkeys, hnodup⟩ := hserves.lists s hs
  have hmay : WorkOp.May (w.contents s) (w.contents (w.handler (.keysWith Vault.lead) s).2)
      (.keysWith Vault.lead) (w.handler (.keysWith Vault.lead) s).1 :=
    w.may (.keysWith Vault.lead) s
  rw [hkeys] at hmay
  exact ⟨keys, hkeys, Vault.lists_of_keys hnodup hmay.2, hmay.1⟩

/-- Up to the files, nothing has changed. -/
theorem started_spec : w.started h folder s ∈ S ∧
    w.contents (w.started h folder s) = w.contents s ∧
    ∀ path other, w.Shares (w.started h folder s) path other → w.Shares s path other := by
  obtain ⟨-, -, -, hcontents⟩ := hserves.exists_lists (hserves.opens_mem s hs)
  refine ⟨hserves.lists_mem _ (hserves.opens_mem s hs), ?_, fun path other hshares => ?_⟩
  · exact hcontents.trans (hserves.contents_opens s hs)
  · exact hserves.shares_opens s hs path other (w.shares_handler _ _ path other hshares)

end Serves

end LinkedWorkspace

section Format

variable [Snapshot.Format]

namespace Config

variable {c : Config} {cwd : Text} {w : LinkedWorkspace σ}
  {h : Handler sessionInterface σ} {S : Set σ} {s : σ}

/-- What a session attempts that restores everything, and what it tells. -/
theorem run_restore_everything (hserves : w.Serves h c.archive S) (hs : s ∈ S)
    (hprepared : c.prepared = true) (hall : c.restoreAll = true) (harchive : c.archive ≠ [])
    (cwd : Text) (force : Bool) :
    ∃ known, Vault.Lists (w.contents s) known ∧
      let each := (Vault.restoreEach cwd force (c.everything cwd known)).run w.handler
        (w.started h c.archive s)
      let session := (c.restore cwd force).run h s
      session.2 = each.2 ∧ session.1.1.errors = (Account.ofRestored each.1).errors ∧
        (c.everything cwd known ≠ [] → session.1.1 = .ofRestored each.1) := by
  have hopened : h (.openArchive c.archive) s = (.ok (), (h (.openArchive c.archive) s).2) :=
    Prod.ext (hserves.opens s hs) rfl
  obtain ⟨keys, hkeys, hlists, -⟩ := hserves.exists_lists (hserves.opens_mem s hs)
  rw [hserves.contents_opens s hs] at hlists
  refine ⟨_, hlists, ?_⟩
  rw [run_restore h hprepared harchive hopened, hserves.work]
  obtain ⟨hstate, herrors, haccount, -⟩ := run_restoreFiles_of_listed w.handler
    (run_restoreTargets_of_keys w.handler hall hkeys cwd) force
  exact ⟨hstate, herrors, haccount⟩

/-- A session that restores everything attempts each path that has a snapshot once, in ascending
order, and after them the listed files that have none. It leaves the paths that do not share a file
with one of the former, and it adds no snapshot. Whatever happens to the others, each path that has
a snapshot ends up as if it had been restored alone. And by force, if nothing fails, each of them
has its recorded text, no snapshot is left, and restoring everything once more changes nothing and
reports no error.

No two of the paths may lead to the same file, and whether an operation on a file or a snapshot
fails may not depend on the others. -/
theorem restore_everything (hserves : w.Serves h c.archive S) (hs : s ∈ S)
    (hprepared : c.prepared = true) (hall : c.restoreAll = true) (harchive : c.archive ≠ [])
    (hcwd : Path.isAbsolute cwd = true) (hkept : Vault.Kept cwd (w.contents s).blob)
    (hapart : w.Apart s (w.contents s).recorded)
    (hfair : w.handler.Fair w.contents (WorkOp.Restores (w.contents s).recorded) S)
    (force : Bool) :
    ∃ known : List Text,
      let targets := known ++ c.targets.filter fun t => !known.contains (Path.absolute cwd t)
      let start := w.started h c.archive s
      let each := (Vault.restoreEach cwd force targets).run w.handler start
      let session := (c.restore cwd force).run h s
      ((known.Pairwise fun a b => Text.lt a b = true) ∧
          ∀ path, path ∈ known ↔ (w.contents s).blob (keyOf path) ≠ none) ∧
        (each.1.map Prod.fst = targets ∧ session.2 = each.2 ∧
          session.1.1.errors = (Account.ofRestored each.1).errors ∧
          (targets ≠ [] → session.1.1 = .ofRestored each.1)) ∧
        ((∀ other, (∀ path ∈ known, ¬ w.Shares s path other) →
            (w.contents session.2).file other = (w.contents s).file other) ∧
          ∀ key, (w.contents s).blob key = none → (w.contents session.2).blob key = none) ∧
        (∀ path ∈ known,
          let alone := (Vault.restore cwd path force).run w.handler s
          (w.contents session.2).file path = (w.contents alone.2).file path ∧
            (w.contents session.2).blob (keyOf path) = (w.contents alone.2).blob (keyOf path)) ∧
        (force = true →
          (∀ event ∈ (Vault.restoreEach cwd force targets).events w.handler start,
            event.failed = false) →
          (∀ path ∈ known, ∃ blob snapshot text, (w.contents s).blob (keyOf path) = some blob ∧
            Snapshot.decode? blob = some snapshot ∧ snapshot.text? = some text ∧
            (w.contents session.2).file path = some text) ∧
          (Vault.paths.run w.handler session.2).1 = .ok [] ∧
          ∀ (again : Config) (force' : Bool), again.prepared = true → again.restoreAll = true →
            again.targets = [] → again.archive = c.archive →
            let further := (again.restore cwd force').run h session.2
            w.contents further.2 = w.contents session.2 ∧ further.1.1.errors = []) := by
  obtain ⟨known, hlists, hstate, herrors, haccount⟩ :=
    run_restore_everything hserves hs hprepared hall harchive cwd force
  refine ⟨known, ?_⟩
  intro targets start each session
  have hset : (w.contents s).recorded = {p | p ∈ known} := Set.ext fun p => (hlists.mem_iff p).symm
  rw [hset] at hapart hfair
  have hothers : ∀ t ∈ c.targets.filter fun t => !known.contains (Path.absolute cwd t),
      Path.absolute cwd t ∉ known := by
    intro t ht hmem
    have hnot := (List.mem_filter.1 ht).2
    rw [List.contains_iff_mem.2 hmem] at hnot
    cases hnot
  have hentries : Vault.AllEntries cwd ((w.view {p | p ∈ known}).contents s).blob := by
    rw [w.blob_view]
    exact hkept.entry hcwd
  have hviewed : Vault.Lists ((w.view {p | p ∈ known}).contents s) known :=
    hlists.of_blob_eq (w.blob_view _ _)
  -- the session comes to the files in a state with the same contents
  obtain ⟨hmem, hcontents, hshares⟩ := hserves.started_spec hs
  have hsame : (w.view {p | p ∈ known}).contents start = (w.view {p | p ∈ known}).contents s :=
    congrArg (Contents.restrict · {p | p ∈ known}) hcontents
  have hentries' : Vault.AllEntries cwd ((w.view {p | p ∈ known}).contents start).blob :=
    hsame ▸ hentries
  have hlists' : Vault.Lists ((w.view {p | p ∈ known}).contents start) known := hsame ▸ hviewed
  have hapart' : w.Apart start {p | p ∈ known} := hapart.mono w hshares
  have hfair' := w.fair_view hfair {p | p ∈ known}
  -- from here on it runs as in the workspace that has nothing but the paths with a snapshot
  have hasks := hlists'.asks_restoreEach hentries' hothers force
  obtain ⟨hrun, hevents, -, hleft⟩ := w.run_view hapart' (hasks.mono fun op hop => hop.filesIn)
  have hview : session.2 =
      ((Vault.restoreEach cwd force targets).run (w.view {p | p ∈ known}).handler start).2 :=
    hstate.trans (congrArg Prod.snd hrun.symm)
  refine ⟨⟨hlists.sorted, hlists.mem_iff⟩,
    ⟨Vault.map_fst_restoreEach .., hstate, herrors, haccount⟩, ⟨?_, ?_⟩, ?_, ?_⟩
  · intro other hother
    rw [hstate, ← hcontents]
    exact hleft other fun path hpath h => hother path hpath (hshares path other h)
  · intro key hkey
    rw [hview, ← w.blob_view {p | p ∈ known}]
    refine hentries'.blob_restoreEach_eq_none ?_
    rw [w.blob_view, hcontents, hkey]
  · intro path hpath alone
    have hagree := hlists'.agreeOn_alone hentries' hothers force hfair' ⟨hmem, hapart'⟩
      ⟨hs, hapart⟩ hsame hpath
    obtain ⟨halone, -⟩ := w.run_view hapart
      ((hviewed.asks_restore hentries hpath force).mono fun op hop => hop.filesIn)
    rw [← hview, halone] at hagree
    refine ⟨?_, ?_⟩
    · have hfile : ∀ t, ((w.view {p | p ∈ known}).contents t).file path =
          (w.contents t).file path := fun t => w.file_view hpath t
      rw [← hfile, ← hfile]
      exact hagree.1 path rfl
    · rw [← w.blob_view {p | p ∈ known}, ← w.blob_view {p | p ∈ known}]
      exact hagree.2 (keyOf path) ⟨rfl, by rw [hviewed.absolute_eq hentries hpath]⟩
  · rintro rfl hworks
    rw [← hevents] at hworks
    -- no snapshot is left, so the next listing is empty
    have hnone : (w.contents session.2).recorded = ∅ := by
      rw [hview]
      exact hlists'.recorded_forced hentries' hworks
    have hend : session.2 ∈ S := by
      rw [hview]
      exact (Job.run_mem hfair'.mem ⟨hmem, hapart'⟩ hasks).1
    refine ⟨fun path hpath => ?_, ?_, ?_⟩
    · obtain ⟨blob, snapshot, text, hblob, hdecode, htext, hfile⟩ :=
        hlists'.file_forced hentries' hothers hworks hpath
      refine ⟨blob, snapshot, text, ?_, hdecode, htext, ?_⟩
      · rw [← hcontents]
        exact hblob
      · rw [hview, ← hfile]
        exact (w.file_view hpath _).symm
    · obtain ⟨keys, hkeys, hlisted, -⟩ := hserves.exists_lists hend
      rw [Vault.run_paths_of_keys _ hkeys, hlisted.eq_nil hnone]
    · intro again force' hprepared' hall' htargets heq further
      have hserves' : w.Serves h again.archive S := heq ▸ hserves
      obtain ⟨known', hlisted, hstate', herrors', -⟩ :=
        run_restore_everything hserves' hend hprepared' hall' (heq ▸ harchive) cwd force'
      obtain rfl := hlisted.eq_nil hnone
      have hnothing : again.everything cwd [] = [] := by
        rw [everything, htargets]
        rfl
      rw [hnothing] at hstate' herrors'
      refine ⟨?_, herrors'⟩
      rw [hstate']
      exact (hserves'.started_spec hend).2.1

end Config

end Format

/-! ### Restoring everything on a disk -/

/-- A disk that may fail serves sessions, as long as the store can be listed. -/
theorem Disk.serves {h : Handler diskInterface Disk} (hh : Disk.Faulty h) (v : Workspace τ)
    (folder : Text) {S : Set (Disk × τ)}
    (hlists : ∀ s ∈ S, ∃ keys : List Text,
      (v.handler (.keysWith Vault.lead) s.2).1 = .ok keys ∧ keys.Nodup)
    (hmem : ∀ s ∈ S, (s.1, (v.handler (.keysWith Vault.lead) s.2).2) ∈ S) :
    (Disk.linked hh v).Serves (Disk.session h v.handler) folder S where
  work := rfl
  opens _ _ := rfl
  opens_mem _ hs := hs
  contents_opens _ _ := rfl
  shares_opens _ _ _ _ := id
  lists := hlists
  lists_mem := hmem

/-- On a disk without links, no two of the paths that have a snapshot lead to the same file. -/
theorem Disk.apart_recorded [Snapshot.Format] {h : Handler diskInterface Disk} (hh : Disk.Faulty h)
    (v : Workspace τ) {s : Disk × τ} (hlinks : s.1.links.entries = []) {cwd : Text}
    (hcwd : Path.isAbsolute cwd = true)
    (hkept : Vault.Kept cwd ((Disk.linked hh v).contents s).blob) :
    (Disk.linked hh v).Apart s ((Disk.linked hh v).contents s).recorded := by
  have hclean : ∀ path ∈ ((Disk.linked hh v).contents s).recorded, Path.IsClean path :=
    fun path hpath => Path.isClean_of_absolute hcwd ((hkept.entry hcwd).absolute_of_blob hpath)
  intro path hpath other hother hmeets
  exact Disk.Meets.eq_of_isClean hmeets hlinks (hclean path hpath) (hclean other hother)

namespace Config

/-- A disk with a store in memory serves sessions. -/
theorem serves_memory {h : Handler diskInterface Disk} (hh : Disk.Faulty h) (folder : Text)
    {S : Set (Disk × Memory)} (hS : ∀ s ∈ S, s.2.faults = .none) :
    (Disk.linked hh Memory.workspace).Serves (Disk.session h Memory.perform) folder S := by
  have hkeys : ∀ s ∈ S, Memory.perform (.keysWith Vault.lead) s.2 =
      (.ok (s.2.store.keysWith Vault.lead), s.2) := by
    intro s hs
    rw [Memory.perform, Memory.guarded, hS s hs]
    rfl
  refine Disk.serves hh Memory.workspace folder (fun s hs => ?_) fun s hs => ?_
  · exact ⟨_, congrArg Prod.fst (hkeys s hs), s.2.store.nodup_keysWith Vault.lead⟩
  · change (s.1, (Memory.perform (.keysWith Vault.lead) s.2).2) ∈ S
    rwa [hkeys s hs]

/-- One of two files was edited, the other one is gone. A third one has no snapshot, and neither has
another path that leads to the first. -/
theorem restore_everything_of_two :
    let w := Disk.linked Disk.faulty_perform Memory.workspace
    let d := (((Disk.fresh "/work").put "a.rs" 0o600 "edited").put "c.rs" 0o644 "three").putLink
      "/alias" "/work"
    let s₀ : Disk × Memory := (d, ⟨Keyed.empty, Keyed.empty, .none, 0⟩)
    let s₁ := ((Vault.record "/work" "b.rs" "two" "2").run w.handler s₀).2
    let s := ((Vault.record "/work" "a.rs" "one" "1").run w.handler s₁).2
    let c : Config := { blank with
      archive := "/state"
      restoreAll := true
      targets := ["c.rs", "/alias/a.rs"]
      prepared := true }
    let session := (c.restore "/work" true).run (Disk.session perform Memory.perform) s
    w.Shares s "/work/a.rs" "/alias/a.rs" ∧ w.Apart s (w.contents s).recorded ∧
      session.2.1.textOf "/work/b.rs" = some ("two" : Text) ∧
      session.2.1.textOf "c.rs" = some ("three" : Text) ∧
      (Vault.paths.run w.handler session.2).1 = .ok [] := by
  intro w d s₀ s₁ s c session
  have hlists : Vault.Lists (w.contents s) (["/work/a.rs", "/work/b.rs"].map Text.ofString) := by
    refine Vault.lists_of_store s.2.store rfl ?_ ?_ ?_ <;> decide +kernel
  have hpack₁ : Snapshot.Packable (Path.absolute "/work" "b.rs") "two" :=
    Snapshot.packable_of_length_lt (by decide +kernel) (by decide +kernel)
  have hpack₂ : Snapshot.Packable (Path.absolute "/work" "a.rs") "one" :=
    Snapshot.packable_of_length_lt (by decide +kernel) (by decide +kernel)
  have hkept₁ : Vault.Kept "/work" (w.contents s₁).blob :=
    .recorded_linked w s₀ "b.rs" "two" "2" hpack₁ .empty
  have hkept : Vault.Kept "/work" (w.contents s).blob :=
    .recorded_linked w s₁ "a.rs" "one" "1" hpack₂ hkept₁
  have hapart : w.Apart s (w.contents s).recorded := by
    have hfollow : ∀ path ∈ ["/work/a.rs", "/work/b.rs"].map Text.ofString,
        ∀ other ∈ ["/work/a.rs", "/work/b.rs"].map Text.ofString,
          s.1.follow path = s.1.follow other → path = other := by
      decide +kernel
    rintro path hpath other hother ⟨place, hplace, hplace'⟩
    exact hfollow path ((hlists.mem_iff path).2 hpath) other ((hlists.mem_iff other).2 hother)
      (hplace.trans hplace'.symm)
  have htemp : ∀ place ∈ s.1.placesOf (w.contents s).recorded, s.1.node? place = none →
      ∀ number, place.getLast? ≠ some (Disk.tempName number) := by
    have hnames : ∀ path ∈ ["/work/a.rs", "/work/b.rs"].map Text.ofString,
        ((s.1.follow path).toOption.bind List.getLast?).bind List.head? ≠ some 0x2e := by
      decide +kernel
    rintro place ⟨path, hpath, hfollow⟩ - number hname
    refine hnames path ((hlists.mem_iff path).2 hpath) ?_
    rw [hfollow, Except.toOption, Option.bind_some, hname]
    rfl
  have hserves : w.Serves (Disk.session perform Memory.perform) c.archive
      (Disk.outcomes s.1 (w.contents s).recorded {m | m.faults = .none}) :=
    serves_memory Disk.faulty_perform c.archive fun _ hs => hs.2
  obtain ⟨known, ⟨hsorted, hmem⟩, -, hframe, -, hforced⟩ := restore_everything (c := c) (s := s)
    hserves ⟨.of_same (.refl _), by decide +kernel⟩ rfl rfl (by decide +kernel)
    (by decide +kernel) hkept hapart (Disk.fair ((Memory.steady rfl).fair _) htemp) true
  obtain rfl := Vault.Lists.unique ⟨hsorted, hmem⟩ hlists
  have hworks : ((Vault.restoreEach "/work" true
      (["/work/a.rs", "/work/b.rs", "c.rs", "/alias/a.rs"].map Text.ofString)).events w.handler
      (w.started (Disk.session perform Memory.perform) c.archive s)).all (!·.failed) = true := by
    decide +kernel
  obtain ⟨htexts, hpaths, -⟩ := hforced rfl fun event hevent => by
    simpa using List.all_eq_true.1 hworks event hevent
  refine ⟨⟨["work", "a.rs"], by decide +kernel, by decide +kernel⟩, hapart, ?_, ?_, hpaths⟩
  · obtain ⟨blob, snapshot, text, hblob, hsnapshot, htext, heq⟩ :=
      htexts "/work/b.rs" (by decide +kernel)
    have hrecorded : (((w.contents s).blob (keyOf "/work/b.rs")).bind Snapshot.decode?).bind
        (·.text?) = some ("two" : Text) := by
      decide +kernel
    rw [hblob, Option.bind_some, hsnapshot, Option.bind_some, htext] at hrecorded
    rw [← Disk.file_linked Disk.faulty_perform Memory.workspace, ← hrecorded]
    exact heq
  · have hfollow : ∀ path ∈ ["/work/a.rs", "/work/b.rs"].map Text.ofString,
        s.1.follow path ≠ s.1.follow "c.rs" := by
      decide +kernel
    rw [← Disk.file_linked Disk.faulty_perform Memory.workspace, hframe.1 "c.rs"]
    · decide +kernel
    · rintro path hpath ⟨place, hplace, hplace'⟩
      exact hfollow path hpath (hplace.trans hplace'.symm)

/-- Two paths with a snapshot lead to one file. Restored alone, the first gives the file its
recorded text; restored together by force, the second prevails. Without force, the second finds an
edited file and keeps its snapshot, which it would not alone. -/
theorem restore_of_meeting_paths :
    let w := Disk.linked Disk.faulty_perform Memory.workspace
    let d := ((Disk.fresh "/work").put "/dir/a.rs" 0o644 "P").putLink "/dirlink" "/dir"
    let s₀ : Disk × Memory := (d, ⟨Keyed.empty, Keyed.empty, .none, 0⟩)
    let s₁ := ((Vault.record "/work" "/dir/a.rs" "T0" "P").run w.handler s₀).2
    let s := ((Vault.record "/work" "/dirlink/a.rs" "T1" "P").run w.handler s₁).2
    let c : Config := { blank with archive := "/state", restoreAll := true, prepared := true }
    let session := fun force =>
      (c.restore "/work" force).run (Disk.session perform Memory.perform) s
    let alone := fun path force => (Vault.restore "/work" path force).run w.handler s
    Vault.Kept "/work" (w.contents s).blob ∧
      (session true).2.1.textOf "/dir/a.rs" = some ("T1" : Text) ∧
      (alone "/dir/a.rs" true).2.1.textOf "/dir/a.rs" = some ("T0" : Text) ∧
      ((w.contents (session false).2).blob (keyOf "/dirlink/a.rs")).isSome = true ∧
      ((w.contents (alone "/dirlink/a.rs" false).2).blob (keyOf "/dirlink/a.rs")).isSome =
        false := by
  intro w d s₀ s₁ s c session alone
  have hlists : Vault.Lists (w.contents s) (["/dir/a.rs", "/dirlink/a.rs"].map Text.ofString) := by
    refine Vault.lists_of_store s.2.store rfl ?_ ?_ ?_ <;> decide +kernel
  have hserves : w.Serves (Disk.session perform Memory.perform) c.archive
      {s | s.2.faults = .none} :=
    serves_memory Disk.faulty_perform c.archive fun _ => id
  have hstate : ∀ force, (session force).2 = ((Vault.restoreEach "/work" force
      (["/dir/a.rs", "/dirlink/a.rs"].map Text.ofString)).run w.handler
        (w.started (Disk.session perform Memory.perform) c.archive s)).2 := by
    intro force
    obtain ⟨known, hknown, hstate, -⟩ := run_restore_everything (c := c) (s := s) hserves
      (by decide +kernel) rfl rfl (by decide +kernel) "/work" force
    obtain rfl := hknown.unique hlists
    exact hstate
  have hpack₁ : Snapshot.Packable (Path.absolute "/work" "/dir/a.rs") "T0" :=
    Snapshot.packable_of_length_lt (by decide +kernel) (by decide +kernel)
  have hpack₂ : Snapshot.Packable (Path.absolute "/work" "/dirlink/a.rs") "T1" :=
    Snapshot.packable_of_length_lt (by decide +kernel) (by decide +kernel)
  have hkept₁ : Vault.Kept "/work" (w.contents s₁).blob :=
    .recorded_linked w s₀ "/dir/a.rs" "T0" "P" hpack₁ .empty
  refine ⟨.recorded_linked w s₁ "/dirlink/a.rs" "T1" "P" hpack₂ hkept₁, ?_, by decide +kernel, ?_,
    by decide +kernel⟩
  · rw [hstate]
    decide +kernel
  · rw [hstate]
    decide +kernel

end Config

end Reroute
