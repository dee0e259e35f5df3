import Reroute.Proofs.Disk.Files
import Reroute.Proofs.Links
import Reroute.Proofs.Snapshot

/-!
# Archives on a disk

The text of an archive is read back as the store that it was written from, as long as every length
fits eight bytes. That is no limit for an archive in use: what was read from a text fits, and so
does what a change leaves of it. So an operation on an archive reads the store from its file, and
changing the archive replaces the file, or leaves everything as it was. This is so on every disk
that may fail, and it makes an archive a store like any other.

## Main definitions

* `Archive.Writable` — stores whose keys and blobs fit the lengths before them
* `Archive.storeAt?` — the store in the file at a place

## Main results

* `Archive.decode?_encode` — a store is read back from its text
* `Archive.writable_of_decode?` — a store that was read can be written
* `Archive.run_load` — reading an archive
* `Archive.run_change` — changing an archive
* `Archive.workspace` — the workspace of an archive
-/

namespace Reroute

/-- The bytes of a number bound it. -/
theorem Text.ofLittleEndian_lt (t : Text) : ofLittleEndian t < Nat.pow 256 t.length := by
  induction t with
  | nil => decide
  | cons b t ih =>
    have hb : b.toNat < 256 := b.toNat_lt
    have hpow : Nat.pow 256 (b :: t).length = 256 * Nat.pow 256 t.length := by
      rw [List.length_cons]
      exact Nat.pow_succ'
    rw [ofLittleEndian, hpow]
    omega

/-- A block is the front of the text. -/
theorem Text.eq_of_block? {size : Nat} {t u rest : Text} (h : block? size t = some (u, rest)) :
    size ≤ t.length ∧ u = t.take size ∧ rest = t.drop size := by
  rw [block?] at h
  split at h
  · rename_i hsize
    cases h
    exact ⟨hsize, rfl, rfl⟩
  · cases h

theorem Keyed.eq_of_entries {κ α : Type} {m n : Keyed κ α} (h : m.entries = n.entries) : m = n := by
  cases m
  cases n
  cases h
  rfl

namespace Archive

open Disk

variable {d : Disk} {place : List Text} {folder t rest : Text} {s : Store}

/-! ### Archives as texts -/

/-- The keys and blobs of a store fit the lengths before them. -/
def Writable (s : Store) : Prop :=
  ∀ entry ∈ s.entries, entry.1.length < Nat.pow 256 8 ∧ entry.2.length < Nat.pow 256 8

theorem length_encodeText (t : Text) : (encodeText t).length = 8 + t.length := by
  rw [encodeText, List.length_append, Text.length_bigEndian]

theorem readText_encodeText (h : t.length < Nat.pow 256 8) :
    readText (encodeText t ++ rest) = some (t, rest) := by
  have hsize := Text.block?_of_length (Text.length_bigEndian 8 t.length) (t ++ rest)
  rw [readText, encodeText, List.append_assoc, hsize]
  simp [Text.ofBigEndian_bigEndian h, Text.block?_append]

/-- A text that was read fits the length before it. -/
theorem length_lt_of_readText {u : Text} (h : readText t = some (u, rest)) :
    u.length < Nat.pow 256 8 := by
  rw [readText, Option.bind_eq_bind, Option.bind_eq_some_iff] at h
  obtain ⟨⟨size, t'⟩, hsize, htext⟩ := h
  obtain ⟨hwidth, heq, -⟩ := Text.eq_of_block? hsize
  obtain ⟨hfits, rfl, -⟩ := Text.eq_of_block? htext
  have hlength : size.reverse.length = 8 := by
    rw [List.length_reverse, heq, List.length_take]
    exact Nat.min_eq_left hwidth
  -- the length was read from eight bytes
  have hbound := Text.ofLittleEndian_lt size.reverse
  rw [hlength] at hbound
  rw [List.length_take]
  exact Nat.lt_of_le_of_lt (Nat.min_le_left _ _) hbound

/-- The entries of an archive are read back, if as many are allowed as there are. -/
theorem readEntries_encode {entries : List (Text × Text)} (hnodup : (entries.map Prod.fst).Nodup)
    (hfits : Writable ⟨entries, hnodup⟩) {count : Nat} (hcount : entries.length ≤ count) :
    readEntries count (entries.flatMap fun (key, blob) => encodeText key ++ encodeText blob) =
      some ⟨entries, hnodup⟩ := by
  induction entries generalizing count with
  | nil => cases count <;> rfl
  | cons entry entries ih =>
    obtain ⟨key, blob⟩ := entry
    obtain ⟨hentry, hrest⟩ := List.forall_mem_cons.1 hfits
    obtain ⟨hkey, hentries⟩ := List.nodup_cons.1 hnodup
    obtain ⟨n, rfl⟩ : ∃ n, count = n + 1 := ⟨count - 1, by simp at hcount; omega⟩
    have hread := ih hentries hrest (Nat.le_of_succ_le_succ hcount)
    rw [List.flatMap_cons, List.append_assoc]
    -- the reader looks whether anything is left before it reads an entry
    have hne : encodeText key ++ (encodeText blob ++
        entries.flatMap fun (key, blob) => encodeText key ++ encodeText blob) ≠ [] := by
      rw [encodeText]
      simp [Text.bigEndian, Text.littleEndian]
    obtain ⟨b, more, hcons⟩ := List.exists_cons_of_ne_nil hne
    rw [hcons, readEntries, ← hcons, readText_encodeText hentry.1]
    simp only [Option.bind_eq_bind, Option.bind_some, readText_encodeText hentry.2, hread]
    -- nothing is erased when the entry is put in front, because its key is new
    refine congrArg some (Keyed.eq_of_entries (congrArg (List.cons _) ?_))
    rw [Keyed.erase, List.filter_eq_self]
    intro entry hmem
    exact decide_eq_true fun heq => hkey (List.mem_map.2 ⟨entry, hmem, heq⟩)

/-- A store is read back from its text. -/
theorem decode?_encode (h : Writable s) : decode? (encode s) = some s := by
  -- each entry takes up more than one byte, so there is fuel for all of them
  have hcount : s.entries.length ≤ (encode s).length := by
    rw [encode, List.length_append]
    refine Nat.le_trans ?_ (Nat.le_add_left _ _)
    induction s.entries with
    | nil => exact Nat.zero_le _
    | cons entry entries ih =>
      rw [List.flatMap_cons, List.length_append, List.length_append, length_encodeText,
        List.length_cons]
      omega
  have hstart : (encode s).startsWith heading = true :=
    Text.startsWith_iff.2 (List.prefix_append _ _)
  have hdrop : (encode s).drop heading.length =
      s.entries.flatMap fun (key, blob) => encodeText key ++ encodeText blob := List.drop_left
  rw [decode?, if_pos hstart, hdrop]
  exact readEntries_encode s.nodup h hcount

/-- The entries that were read can be written. -/
theorem writable_of_readEntries {count : Nat} (h : readEntries count t = some s) : Writable s := by
  induction count generalizing t s with
  | zero =>
    cases t with
    | nil =>
      cases h
      exact fun _ hmem => absurd hmem List.not_mem_nil
    | cons b rest => cases h
  | succ count ih =>
    cases t with
    | nil =>
      cases h
      exact fun _ hmem => absurd hmem List.not_mem_nil
    | cons b rest =>
      rw [readEntries] at h
      simp only [Option.bind_eq_bind, Option.bind_eq_some_iff] at h
      obtain ⟨⟨key, t₁⟩, hkey, ⟨blob, t₂⟩, hblob, others, hothers, hs⟩ := h
      cases hs
      refine List.forall_mem_cons.2 ⟨⟨length_lt_of_readText hkey, length_lt_of_readText hblob⟩, ?_⟩
      exact fun entry hmem => ih hothers entry (List.mem_filter.1 hmem).1

/-- A store that was read can be written. -/
theorem writable_of_decode? (h : decode? t = some s) : Writable s := by
  rw [decode?] at h
  split at h
  · exact writable_of_readEntries h
  · cases h

theorem Writable.erase (h : Writable s) (key : Text) : Writable (s.erase key) :=
  fun entry hmem => h entry (List.mem_filter.1 hmem).1

theorem Writable.insert (h : Writable s) {key blob : Text}
    (hfits : key.length < Nat.pow 256 8 ∧ blob.length < Nat.pow 256 8) :
    Writable (s.insert key blob) :=
  List.forall_mem_cons.2 ⟨hfits, h.erase key⟩

/-! ### Archives on a disk -/

/-- The store in the file at a place. -/
def storeAt? (d : Disk) (place : List Text) : Option Store :=
  match d.node? place with
  | some (.file mode text) => if isReadable mode then decode? text else none
  | _ => none

theorem writable_of_storeAt? (h : storeAt? d place = some s) : Writable s := by
  rw [storeAt?] at h
  split at h
  · split at h
    · exact writable_of_decode? h
    · cases h
  · cases h

/-- A place with an archive has a readable file. -/
theorem exists_file_of_storeAt? (h : storeAt? d place = some s) :
    ∃ mode text, d.node? place = some (.file mode text) ∧ isReadable mode = true ∧
      decode? text = some s := by
  rw [storeAt?] at h
  split at h
  · rename_i mode text hnode
    split at h
    · exact ⟨mode, text, hnode, ‹_›, h⟩
    · cases h
  · cases h

section Faulty

variable {h : Handler diskInterface Disk} (hh : Faulty h)
  (hfollow : d.follow (file folder) = .ok place)

include hh hfollow

/-- Reading an archive gives the store in its file, or fails. It leaves the disk. -/
theorem run_load :
    (∃ e, (load folder).run h d = (.error e, d)) ∨
      ∃ s, storeAt? d place = some s ∧ (load folder).run h d = (.ok s, d) := by
  rw [load, Job.run_monad_bind]
  rcases Files.run_load_cases hh d (file folder) with ⟨e, hload⟩ | ⟨text, hload, hread⟩
  · rw [hload]
    exact .inl ⟨_, rfl⟩
  · obtain ⟨goal, mode, hgoal, hnode, hmode⟩ := Disk.readFile_eq_ok_iff.1 hread
    obtain rfl : place = goal := Except.ok.inj (hfollow.symm.trans hgoal)
    rw [hload, storeAt?, hnode]
    simp only [hmode, if_true]
    cases decode? text with
    | none => exact .inl ⟨_, rfl⟩
    | some s => exact .inr ⟨s, rfl, rfl⟩

/-- Changing an archive replaces the store in its file, or nothing has happened. -/
theorem run_change {f : Store → Store} (hf : ∀ s, Writable s → Writable (f s)) :
    (∃ e d', (change folder f).run h d = (.error e, d') ∧ d.Same d') ∨
      ∃ s d', (change folder f).run h d = (.ok (), d') ∧ storeAt? d place = some s ∧
        storeAt? d' place = some (f s) ∧ d.SameFolders d' := by
  rcases run_load hh hfollow with ⟨e, hload⟩ | ⟨s, hstore, hload⟩
  · rw [change, Job.run_monad_bind, hload]
    exact .inl ⟨e, d, rfl, .refl d⟩
  · rw [change, Job.run_monad_bind, hload]
    simp only
    rw [Job.run_monad_bind]
    have hreplaced := Files.replaced_store hh d (file folder) (encode (f s))
    obtain ⟨mode, text, hnode, hmode, -⟩ := exists_file_of_storeAt? hstore
    generalize (Files.store (file folder) (encode (f s))).run h d = outcome at hreplaced ⊢
    obtain ⟨result, d'⟩ := outcome
    cases hreplaced with
    | failed e hsame => exact .inl ⟨_, d', rfl, hsame⟩
    | done hgoal hplace hrevises =>
      obtain rfl := Except.ok.inj (hfollow.symm.trans hgoal)
      refine .inr ⟨s, d', rfl, hstore, ?_, .of_revises hrevises hplace⟩
      -- the permission bits stay, so the new file can be read as well
      have hkept : d.modeOf (file folder) = mode := by
        rw [modeOf, find_eq_ok_iff.2 ⟨hfollow, hnode⟩]
        rfl
      rw [storeAt?, hrevises.node, Function.update_self]
      simp only [hkept, hmode, if_true]
      exact decode?_encode (hf s (writable_of_storeAt? hstore))

/-- Looking up a key. -/
theorem run_fetch (key : Text) :
    (∃ e, (fetch folder key).run h d = (.error e, d)) ∨
      ∃ s, storeAt? d place = some s ∧ (fetch folder key).run h d = (.ok (s.find? key), d) := by
  rw [fetch]
  by_cases hkey : key = []
  · exact .inl ⟨_, by rw [if_pos hkey]; rfl⟩
  · rw [if_neg hkey, Job.run_monad_bind]
    rcases run_load hh hfollow with ⟨e, hload⟩ | ⟨s, hstore, hload⟩
    · exact .inl ⟨_, by rw [hload]; rfl⟩
    · exact .inr ⟨s, hstore, by rw [hload]; rfl⟩

/-- Listing keys. -/
theorem run_keysWith (lead : Text) :
    (∃ e, (keysWith folder lead).run h d = (.error e, d)) ∨
      ∃ s, storeAt? d place = some s ∧
        (keysWith folder lead).run h d = (.ok (s.keysWith lead), d) := by
  rw [keysWith, Job.run_monad_bind]
  rcases run_load hh hfollow with ⟨e, hload⟩ | ⟨s, hstore, hload⟩
  · exact .inl ⟨_, by rw [hload]; rfl⟩
  · exact .inr ⟨s, hstore, by rw [hload]; rfl⟩

end Faulty

/-! ### The workspace of an archive -/

/-- The blobs of the archive whose file is at a place. There are no files besides. -/
def contents (place : List Text) (d : Disk) : Contents :=
  ⟨fun _ => none, fun key => (storeAt? d place).bind (·.find? key)⟩

/-- Operations on blobs whose lengths can be written. -/
def Takes : WorkOp → Prop
  | .load _ | .store _ _ => False
  | .keep key blob => key.length < Nat.pow 256 8 ∧ blob.length < Nat.pow 256 8
  | _ => True

open Classical in
/-- What the operations do to the archive in a folder with its file at a place. Others are
refused. -/
noncomputable def operate (h : Handler diskInterface Disk) (folder : Text) (place : List Text) :
    Handler workInterface Disk := fun (op : WorkOp) d =>
  if d.follow (file folder) = .ok place ∧ Takes op then (op.onDisk false folder).run h d
  else (op.refusal, d)

theorem contents_of_same (hsame : d.Same d') : contents place d' = contents place d := by
  rw [contents, contents, storeAt?, storeAt?, hsame.node]

theorem contents_of_storeAt? (hstore : storeAt? d place = some s) :
    contents place d = ⟨fun _ => none, s.find?⟩ := by
  rw [contents, hstore]
  rfl

/-- What an operation on the blobs does. -/
theorem onDisk_may {h : Handler diskInterface Disk} (hh : Faulty h)
    (hfollow : d.follow (file folder) = .ok place) (op : WorkOp) (htakes : Takes op) :
    op.May (contents place d) (contents place ((op.onDisk false folder).run h d).2)
      ((op.onDisk false folder).run h d).1 := by
  cases op with
  | isCancelled => rfl
  | load path => exact htakes.elim
  | store path text => exact htakes.elim
  | fetch key =>
    rw [WorkOp.onDisk]
    rcases run_fetch hh hfollow key with ⟨e, hrun⟩ | ⟨s, hstore, hrun⟩
    · rw [hrun]
      rfl
    · rw [hrun]
      exact ⟨rfl, by rw [contents_of_storeAt? hstore]⟩
  | keep key blob =>
    rw [WorkOp.onDisk, keep]
    cases refusal? key with
    | some e => rfl
    | none =>
      rcases run_change hh hfollow fun s hs => hs.insert htakes with
        ⟨e, d', hrun, hsame⟩ | ⟨s, d', hrun, hstore, hstore', -⟩
      · simp only [hrun]
        exact contents_of_same hsame
      · simp only [hrun]
        rw [WorkOp.May, contents_of_storeAt? hstore, contents_of_storeAt? hstore', Contents.keep,
          Memory.find?_insert_eq_update]
  | drop key =>
    rw [WorkOp.onDisk, drop]
    cases refusal? key with
    | some e => rfl
    | none =>
      rcases run_change hh hfollow fun s hs => hs.erase key with
        ⟨e, d', hrun, hsame⟩ | ⟨s, d', hrun, hstore, hstore', -⟩
      · simp only [hrun]
        exact contents_of_same hsame
      · simp only [hrun]
        rw [WorkOp.May, contents_of_storeAt? hstore, contents_of_storeAt? hstore', Contents.drop,
          Memory.find?_erase_eq_update]
  | keysWith lead =>
    rw [WorkOp.onDisk]
    rcases run_keysWith hh hfollow lead with ⟨e, hrun⟩ | ⟨s, hstore, hrun⟩
    · rw [hrun]
      rfl
    · rw [hrun]
      refine ⟨rfl, ?_⟩
      rw [contents_of_storeAt? hstore]
      exact s.mem_keysWith_iff lead

theorem operate_may {h : Handler diskInterface Disk} (hh : Faulty h) (folder : Text)
    (place : List Text) (op : WorkOp) (d : Disk) :
    op.May (contents place d) (contents place (operate h folder place op d).2)
      (operate h folder place op d).1 := by
  rw [operate]
  split
  · rename_i hguard
    exact onDisk_may hh hguard.1 op hguard.2
  · exact op.may_refusal _

/-- An archive on a disk that may fail keeps to the law of a workspace. -/
noncomputable def workspace {h : Handler diskInterface Disk} (hh : Faulty h) (folder : Text)
    (place : List Text) : Workspace Disk :=
  ⟨operate h folder place, contents place, operate_may hh folder place⟩

end Archive

end Reroute
