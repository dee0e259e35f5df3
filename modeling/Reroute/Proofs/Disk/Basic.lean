import Mathlib.Data.List.Nodup
import Mathlib.Logic.Function.Basic
import Reroute.Disk.Basic
import Reroute.Proofs.Path
import Reroute.Proofs.Text.Decimal

/-!
# Places on a disk

Where a path leads depends on nothing but the folders of the disk, the links between them and the
working directory, so disks with the same folders follow every path to the same place. On a disk
without links, a clean path from the root leads to the place of its components, if it leads
anywhere.

A temporary file gets the first number that is not taken. There is always one: a disk has finitely
many nodes, and different numbers lead to different places.

## Main definitions

* `Disk.Same`, `Disk.Revises` — disks that differ nowhere, or at one place only
* `Disk.SameFolders` — disks with the same folders
* `Disk.tempName` — the names of temporary files

## Main results

* `Disk.SameFolders.follow_eq_ok_iff` — only folders matter for where a path leads
* `Disk.follow_ofComponents` — without links, a clean path leads to the place of its components
* `Disk.exists_freshTemp` — a temporary file gets the first number that is not taken
-/

namespace Reroute

open Text (fields)

/-- The parts of a text before and after a separator. -/
theorem Text.fields_append (sep : UInt8) (t u : Text) :
    fields sep (t ++ sep :: u) = fields sep t ++ fields sep u := by
  induction t with
  | nil => simp [fields]
  | cons b t ih =>
    rw [List.cons_append, fields, fields, ih]
    split
    · rfl
    · cases hfields : fields sep t with
      | nil => exact absurd hfields (fields_ne_nil sep t)
      | cons f fs => rfl

namespace Disk

variable {d d' d'' : Disk} {place other : List Text} {node : Node} {path text : Text}

/-! ### Nodes -/

@[simp] theorem node?_nil (d : Disk) : d.node? [] = some .folder := rfl

/-- Another disk with the same nodes, the same working directory and the same links. -/
structure Same (d d' : Disk) : Prop where
  cwd : d'.cwd = d.cwd
  links : d'.links = d.links
  node : d'.node? = d.node?

/-- A disk with a node at one place and otherwise the nodes of another disk. -/
structure Revises (d : Disk) (place : List Text) (node : Node) (d' : Disk) : Prop where
  cwd : d'.cwd = d.cwd
  links : d'.links = d.links
  node : d'.node? = Function.update d.node? place (some node)

theorem Same.refl (d : Disk) : d.Same d := ⟨rfl, rfl, rfl⟩

theorem ne_nil_of_node? (h : d.node? place ≠ some .folder) : place ≠ [] := by
  rintro rfl
  exact h rfl

theorem revises_set (d : Disk) (h : place ≠ []) (node : Node) :
    d.Revises place node (d.set place node) := by
  refine ⟨rfl, rfl, funext fun other => ?_⟩
  by_cases hnil : other = []
  · subst hnil
    rw [node?_nil, Function.update_of_ne (Ne.symm h), node?_nil]
  · rw [node?, if_neg hnil, Function.update_apply, node?, if_neg hnil]
    exact Keyed.find?_insert d.nodes place other node

theorem node?_unset (h : place ≠ []) :
    (d.unset place).node? = Function.update d.node? place none := by
  refine funext fun other => ?_
  by_cases hnil : other = []
  · subst hnil
    rw [node?_nil, Function.update_of_ne (Ne.symm h), node?_nil]
  · rw [node?, if_neg hnil, Function.update_apply, node?, if_neg hnil]
    exact Keyed.find?_erase d.nodes place other

/-! ### Folders -/

/-- A path leads somewhere if the system takes it, and if its route can be walked. -/
theorem follow_eq_ok_iff_walk :
    d.follow path = .ok place ↔ (0 ∉ path ∧ path ≠ [] ∧ path.length ≤ pathLimit) ∧
      d.walk (if Path.isAbsolute path then [] else d.cwd) (route path) = .ok place := by
  rw [follow]
  by_cases hzero : 0 ∈ path
  · simp [hzero]
  · by_cases hnil : path = []
    · simp [hnil]
    · by_cases hlength : pathLimit < path.length
      · rw [if_neg hzero, if_neg hnil, if_pos hlength]
        exact iff_of_false (by rintro ⟨⟩) fun h => absurd h.1.2.2 (Nat.not_le.2 hlength)
      · rw [if_neg hzero, if_neg hnil, if_neg hlength]
        exact (and_iff_right ⟨hzero, hnil, Nat.not_lt.1 hlength⟩).symm

/-- Disks with the same folders, the same links and the same working directory. -/
structure SameFolders (d d' : Disk) : Prop where
  cwd : d'.cwd = d.cwd
  links : d'.links = d.links
  folder_iff : ∀ place, d'.node? place = some .folder ↔ d.node? place = some .folder

namespace SameFolders

theorem symm (h : d.SameFolders d') : d'.SameFolders d :=
  ⟨h.cwd.symm, h.links.symm, fun place => (h.folder_iff place).symm⟩

theorem trans (h : d.SameFolders d') (h' : d'.SameFolders d'') : d.SameFolders d'' :=
  ⟨h'.cwd.trans h.cwd, h'.links.trans h.links,
    fun place => (h'.folder_iff place).trans (h.folder_iff place)⟩

/-- A file in place of a file, or where nothing was, leaves the folders. -/
theorem of_revises {mode : Nat} {text : Text} (h : d.Revises place (.file mode text) d')
    (hplace : d.node? place ≠ some .folder) : d.SameFolders d' := by
  refine ⟨h.cwd, h.links, fun other => ?_⟩
  rw [h.node, Function.update_apply]
  split
  · rename_i heq
    subst heq
    simp [hplace]
  · rfl

/-- The same folder is entered. -/
theorem entered_eq (h : d.SameFolders d') (place : List Text) :
    d'.entered place = d.entered place := by
  rw [entered, entered, h.links]
  cases d.links.find? place with
  | none => rfl
  | some target => simp only [h.folder_iff]

private theorem walk_of_walk (h : d.SameFolders d') {components : List Text}
    (hwalk : d.walk other components = .ok place) : d'.walk other components = .ok place := by
  induction components generalizing other with
  | nil => exact hwalk
  | cons component rest ih =>
    rw [walk] at hwalk
    split at hwalk
    · cases hwalk
    · cases hwalk
    · rename_i hfolder
      -- the same component is followed from the same folder
      rw [walk, (h.folder_iff other).2 hfolder, h.entered_eq]
      split at hwalk
      · rename_i hdot
        simpa only [if_pos hdot] using ih hwalk
      · rename_i hdot
        split at hwalk
        · rename_i hdots
          simpa only [if_neg hdot, if_pos hdots] using ih hwalk
        · rename_i hdots
          split at hwalk
          · cases hwalk
          · rename_i hlength
            simpa only [if_neg hdot, if_neg hdots, if_neg hlength] using ih hwalk

private theorem follow_of_follow (h : d.SameFolders d') (hfollow : d.follow path = .ok place) :
    d'.follow path = .ok place := by
  rw [follow_eq_ok_iff_walk] at hfollow ⊢
  rw [h.cwd]
  exact ⟨hfollow.1, h.walk_of_walk hfollow.2⟩

/-- Only folders matter for where a path leads. -/
theorem follow_eq_ok_iff (h : d.SameFolders d') :
    d'.follow path = .ok place ↔ d.follow path = .ok place :=
  ⟨h.symm.follow_of_follow, h.follow_of_follow⟩

end SameFolders

theorem find_eq_ok_iff :
    d.find path = .ok (place, node) ↔ d.follow path = .ok place ∧ d.node? place = some node := by
  rw [find]
  cases d.follow path with
  | error e => simp
  | ok goal =>
    simp only [Except.ok.injEq]
    constructor
    · intro h
      split at h
      · cases h
      · rename_i hnode
        cases h
        exact ⟨rfl, hnode⟩
    · rintro ⟨rfl, hnode⟩
      rw [hnode]

/-- A file can be read if it is there and its permission bits allow it. -/
theorem readFile_eq_ok_iff :
    d.readFile path = .ok text ↔ ∃ place mode, d.follow path = .ok place ∧
      d.node? place = some (.file mode text) ∧ isReadable mode = true := by
  simp only [← and_assoc, ← find_eq_ok_iff, readFile]
  constructor
  · intro hread
    split at hread
    · cases hread
    · cases hread
    · rename_i place mode found hfind
      split at hread
      · rename_i hmode
        cases hread
        exact ⟨place, mode, hfind, hmode⟩
      · cases hread
  · rintro ⟨place, mode, hfind, hmode⟩
    rw [hfind]
    exact if_pos hmode

namespace Same

private theorem walk_eq (h : d.Same d') (components start : List Text) :
    d'.walk start components = d.walk start components := by
  induction components generalizing start with
  | nil => rfl
  | cons component rest ih =>
    rw [walk, walk, h.node, entered, entered, h.links, h.node]
    simp only [ih]

/-- Every path leads to the same on disks with the same nodes. -/
theorem find_eq (h : d.Same d') (path : Text) : d'.find path = d.find path := by
  have hfollow : d'.follow path = d.follow path := by rw [follow, follow, h.walk_eq, h.cwd]
  rw [find, find, hfollow, h.node]

end Same

/-! ### Walking along components -/

theorem walk_append (start : List Text) (front back : List Text) :
    d.walk start (front ++ back) =
      match d.walk start front with
      | .error e => .error e
      | .ok place => d.walk place back := by
  induction front generalizing start with
  | nil => rfl
  | cons component front ih =>
    rw [List.cons_append, walk, walk]
    cases d.node? start with
    | none => rfl
    | some node =>
      cases node with
      | file mode text => rfl
      | folder =>
        simp only
        split
        · exact ih start
        · split
          · exact ih (d.entered start).dropLast
          · split
            · rfl
            · exact ih (d.entered start ++ [component])

/-- A component that is neither `.` nor `..` leads one place down from the folder that is
entered. -/
theorem walk_singleton {component : Text} (hproper : Path.Proper component)
    (h : d.walk other [component] = .ok place) :
    d.node? other = some .folder ∧ place = d.entered other ++ [component] := by
  rw [walk] at h
  split at h
  · cases h
  · cases h
  · rename_i hfolder
    rw [if_neg hproper.ne_dot, if_neg hproper.ne_dots] at h
    split at h
    · cases h
    · cases h
      exact ⟨hfolder, rfl⟩

theorem entered_of_links (hlinks : d.links.entries = []) (place : List Text) :
    d.entered place = place := by
  rw [entered, Keyed.find?, hlinks]
  rfl

/-- Without links, components that are neither `.` nor `..` lead downwards. -/
theorem walk_of_proper {components : List Text} (hlinks : d.links.entries = [])
    (hproper : ∀ c ∈ components, Path.Proper c)
    (h : d.walk other components = .ok place) : place = other ++ components := by
  induction components generalizing other with
  | nil =>
    cases h
    rw [List.append_nil]
  | cons component rest ih =>
    obtain ⟨hc, hrest⟩ := List.forall_mem_cons.1 hproper
    rw [walk] at h
    split at h
    · cases h
    · cases h
    · rw [if_neg hc.ne_dot, if_neg hc.ne_dots, entered_of_links hlinks] at h
      split at h
      · cases h
      · rw [ih hrest h, List.append_assoc, List.singleton_append]

/-- The last component of a route with a proper last component is that of the place. -/
theorem getLast?_of_walk {front : List Text} {name : Text} (hname : Path.Proper name)
    (h : d.walk other (front ++ [name]) = .ok place) : place.getLast? = some name := by
  rw [walk_append] at h
  split at h
  · cases h
  · rw [(walk_singleton hname h).2, List.getLast?_concat]

/-! ### Clean paths -/

/-- A route ends with the last component. -/
theorem route_append {name : Text} (hne : name ≠ []) (hslash : Path.slash ∉ name) (front : Text) :
    route (front ++ Path.slash :: name) =
      (fields Path.slash front).filter (· ≠ []) ++ [name] := by
  have hlast : (front ++ Path.slash :: name).getLast? ≠ some Path.slash := by
    rw [List.getLast?_append_cons, List.getLast?_cons_of_ne_nil hne]
    exact fun h => hslash (List.mem_of_getLast? h)
  rw [route, if_neg hlast, Text.fields_append, Text.fields_of_not_mem hslash, List.filter_append,
    List.append_nil]
  simp [hne]

theorem route_ofComponents {components : List Text} (hne : components ≠ [])
    (h : ∀ c ∈ components, Path.Proper c) : route (Path.ofComponents components) = components := by
  have hfields : fields Path.slash (Path.ofComponents components) = [] :: components := by
    rw [Path.ofComponents, fields, if_pos rfl,
      Text.fields_join hne fun c hc => (h c hc).no_slash]
  have hlast : (Path.ofComponents components).getLast? ≠ some Path.slash := by
    intro hslash
    -- a slash at the end would leave an empty last component
    obtain ⟨front, hfront⟩ := List.getLast?_eq_some_iff.1 hslash
    rw [hfront, Text.fields_append] at hfields
    have hend := congrArg List.getLast? hfields
    rw [fields, List.getLast?_concat, List.getLast?_cons_of_ne_nil hne] at hend
    exact (h _ (List.mem_of_getLast? hend.symm)).ne_nil rfl
  rw [route, if_neg hlast, hfields, List.append_nil, List.filter_cons_of_neg (by simp),
    List.filter_eq_self]
  exact fun c hc => decide_eq_true (h c hc).ne_nil

/-- Without links, a clean path from the root leads to the place of its components, if it leads
anywhere. -/
theorem follow_ofComponents {components : List Text} (hlinks : d.links.entries = [])
    (h : ∀ c ∈ components, Path.Proper c)
    (hfollow : d.follow (Path.ofComponents components) = .ok place) : place = components := by
  have hwalk := (follow_eq_ok_iff_walk.1 hfollow).2
  rw [Path.isAbsolute_ofComponents, if_pos rfl] at hwalk
  by_cases hne : components = []
  · -- the root is a slash, which adds a step that stays where it is
    subst hne
    exact (Except.ok.inj hwalk).symm
  · rw [route_ofComponents hne h] at hwalk
    exact walk_of_proper hlinks h hwalk

/-! ### Temporary files -/

/-- The names of temporary files. -/
def tempName (number : Nat) : Text := tempLead ++ Text.ofNat number

theorem tempName_injective : Function.Injective tempName := fun _ _ h =>
  Text.ofNat_injective (List.append_cancel_left h)

theorem proper_tempName (number : Nat) : Path.Proper (tempName number) := by
  have hstart : ∀ t : Text, (tempName number).take 12 ≠ t.take 12 → tempName number ≠ t :=
    fun t hne heq => hne (by rw [heq])
  have hlead : (tempName number).take 12 = tempLead :=
    List.take_left' (by decide)
  refine ⟨hstart _ ?_, hstart _ ?_, hstart _ ?_, ?_⟩
  · rw [hlead]
    decide
  · rw [hlead]
    decide
  · rw [hlead]
    decide
  · intro hslash
    rcases List.mem_append.1 hslash with hmem | hmem
    · revert hmem
      decide
    · have hdigit := Text.toNat_of_mem_ofNat hmem
      revert hdigit
      decide

/-- The path of a temporary file ends with its name. -/
theorem tempPath_eq (folder : Text) :
    ∃ front : Text, ∀ number, tempPath folder number = front ++ Path.slash :: tempName number := by
  by_cases hslash : folder.getLast? = some Path.slash
  · obtain ⟨front, rfl⟩ := List.getLast?_eq_some_iff.1 hslash
    refine ⟨front, fun number => ?_⟩
    simp only [tempPath, if_pos hslash, tempName, List.append_assoc, List.cons_append,
      List.nil_append]
  · refine ⟨folder, fun number => ?_⟩
    simp only [tempPath, if_neg hslash, tempName, List.append_assoc, List.cons_append,
      List.nil_append]

/-- The path of a temporary file leads to a place of its name. -/
theorem getLast?_of_follow_tempPath {folder : Text} {number : Nat}
    (h : d.follow (tempPath folder number) = .ok place) :
    place.getLast? = some (tempName number) := by
  obtain ⟨front, hpath⟩ := tempPath_eq folder
  have hproper := proper_tempName number
  rw [hpath] at h
  have hwalk := (follow_eq_ok_iff_walk.1 h).2
  rw [route_append hproper.ne_nil hproper.no_slash] at hwalk
  exact getLast?_of_walk hproper hwalk

theorem isTaken_eq_true_iff :
    d.isTaken path = true ↔
      ∃ place node, d.follow path = .ok place ∧ d.node? place = some node := by
  rw [isTaken]
  cases hfind : d.find path with
  | error e =>
    simp only [← find_eq_ok_iff, hfind]
    simp [Except.isOk, Except.toBool]
  | ok found =>
    obtain ⟨place, node⟩ := found
    exact iff_of_true rfl ⟨place, node, find_eq_ok_iff.1 hfind⟩

/-- Not all numbers of temporary files are taken. -/
theorem exists_not_taken (d : Disk) (folder : Text) :
    ∃ number ≤ d.nodes.entries.length, d.isTaken (tempPath folder number) = false := by
  by_contra hnone
  push Not at hnone
  have htaken : ∀ n ∈ List.range (d.nodes.entries.length + 1), ∃ place : List Text,
      place ∈ d.nodes.keys ∧ place.getLast? = some (tempName n) := by
    intro n hn
    have hle : n ≤ d.nodes.entries.length := Nat.lt_succ_iff.1 (List.mem_range.1 hn)
    obtain ⟨place, node, hfollow, hnode⟩ :=
      isTaken_eq_true_iff.1 (Bool.of_not_eq_false (hnone n hle))
    have hlast := getLast?_of_follow_tempPath hfollow
    refine ⟨place, ?_, hlast⟩
    have hne : place ≠ [] := by
      rintro rfl
      cases hlast
    rw [node?, if_neg hne] at hnode
    exact (Keyed.mem_keys_iff _ _).2 (Option.isSome_of_eq_some hnode)
  choose! leads hkeys hnames using htaken
  -- different numbers lead to different places, and there are not enough of them
  have hnodup : ((List.range (d.nodes.entries.length + 1)).map leads).Nodup := by
    refine List.Nodup.map_on (fun m hm n hn heq => ?_) List.nodup_range
    have hname : some (tempName m) = some (tempName n) := by
      rw [← hnames m hm, ← hnames n hn, heq]
    exact tempName_injective (Option.some.inj hname)
  have hsubset : (List.range (d.nodes.entries.length + 1)).map leads ⊆ d.nodes.keys := by
    intro place hplace
    obtain ⟨n, hn, rfl⟩ := List.mem_map.1 hplace
    exact hkeys n hn
  have hlength := hnodup.length_le_of_subset hsubset
  rw [List.length_map, List.length_range, Keyed.keys, List.length_map] at hlength
  exact Nat.not_succ_le_self _ hlength

/-- A temporary file gets the first number that is not taken. -/
theorem exists_freshTemp (d : Disk) (folder : Text) :
    ∃ number, d.freshTemp folder = tempPath folder number ∧
      d.isTaken (tempPath folder number) = false ∧
      ∀ n < number, d.isTaken (tempPath folder n) = true := by
  obtain ⟨bound, hbound, hfree⟩ := d.exists_not_taken folder
  have hsome : ((List.range (d.nodes.entries.length + 1)).find?
      fun n => !d.isTaken (tempPath folder n)).isSome = true := by
    rw [List.find?_isSome]
    exact ⟨bound, List.mem_range.2 (Nat.lt_succ_iff.2 hbound), by rw [hfree]; rfl⟩
  obtain ⟨number, hnumber⟩ := Option.isSome_iff_exists.1 hsome
  have hfirst := List.find?_range_eq_some.1 hnumber
  refine ⟨number, ?_, by simpa using hfirst.1, fun n hn => by simpa using hfirst.2.2 n hn⟩
  rw [freshTemp, List.find?_map, Function.comp_def, hnumber]
  rfl

/-- The path of the next temporary file depends on nothing but which ones are taken. -/
theorem freshTemp_congr {folder : Text}
    (h : ∀ n, d'.isTaken (tempPath folder n) = d.isTaken (tempPath folder n)) :
    d'.freshTemp folder = d.freshTemp folder := by
  obtain ⟨m, hm, hfree, hbefore⟩ := d.exists_freshTemp folder
  obtain ⟨n, hn, hfree', hbefore'⟩ := d'.exists_freshTemp folder
  have heq : n = m := by
    rcases Nat.lt_trichotomy n m with hlt | heq | hlt
    · have htaken := hbefore n hlt
      rw [← h, hfree'] at htaken
      cases htaken
    · exact heq
    · have htaken := hbefore' m hlt
      rw [h, hfree] at htaken
      cases htaken
  rw [hm, hn, heq]

end Disk

end Reroute
