import Reroute.Command
import Reroute.Proofs.Spelling
import Reroute.Proofs.Text.Utf8

/-!
# Files among the arguments

Arguments that are no flags are files. They are put behind the files of the flag with commas between
them, and the preparation splits the text at its commas, trims the parts and cleans them. So an
argument is taken for all files that it lists on its own. It comes out as its clean path if it has
no comma and no blank character at its ends, and for clean paths only then.

## Main definitions

* `Config.Listable` — texts that a list with commas can hold

## Main results

* `Path.clean_sublist_or` — cleaning a path adds nothing
* `Config.listed_joinFiles` — the files of the flag and those of each argument
* `Config.targets_of_arguments` — what becomes of the arguments
-/

namespace Reroute

open Text (fields join)

/-! ### Texts -/

namespace Text

variable {cs ds : List Text}

/-- Fields are put together again. -/
theorem join_fields (sep : UInt8) (t : Text) : join [sep] (fields sep t) = t := by
  induction t with
  | nil => rfl
  | cons b t ih =>
    rw [fields]
    split
    · rename_i hb
      rw [join_cons [sep] [] (fields_ne_nil sep t), ih, hb]
      rfl
    · cases hfields : fields sep t with
      | nil => exact absurd hfields (fields_ne_nil sep t)
      | cons f fs =>
        rw [hfields] at ih
        by_cases hnil : fs = []
        · subst hnil
          rw [join_singleton] at ih ⊢
          rw [ih]
        · rw [join_cons [sep] f hnil] at ih
          simp only
          rw [join_cons [sep] (b :: f) hnil, List.cons_append, ih]

/-- Leaving out parts leaves out text. -/
theorem join_sublist (sep : UInt8) (h : cs.Sublist ds) :
    (join [sep] cs).Sublist (join [sep] ds) := by
  induction h with
  | slnil => exact List.Sublist.refl _
  | @cons cs ds d h ih =>
    refine ih.trans ?_
    by_cases hnil : ds = []
    · subst hnil
      exact List.nil_sublist _
    · rw [join_cons [sep] d hnil]
      exact (List.sublist_append_right [sep] _).trans (List.sublist_append_right d _)
  | @cons_cons cs ds c h ih =>
    by_cases hnil : cs = []
    · subst hnil
      by_cases hnil' : ds = []
      · rw [hnil']
      · rw [join_singleton, join_cons [sep] c hnil']
        exact List.sublist_append_left c _
    · have hnil' : ds ≠ [] := by
        rintro rfl
        exact hnil (List.sublist_nil.1 h)
      rw [join_cons [sep] c hnil, join_cons [sep] c hnil']
      exact (ih.append_left [sep]).append_left c

theorem trim_nil : trim [] = [] := by
  rw [trim, runes_nil]
  rfl

/-- Trimming takes text away at the ends. -/
theorem trim_infix (t : Text) : trim t <:+: t := by
  have hmiddle : (((runes t).dropWhile Rune.isBlank).reverse.dropWhile Rune.isBlank).reverse <:+:
      runes t := by
    refine List.IsInfix.trans (List.IsPrefix.isInfix ?_)
      (List.dropWhile_suffix Rune.isBlank).isInfix
    rw [← List.reverse_suffix, List.reverse_reverse]
    exact List.dropWhile_suffix _
  obtain ⟨before, after, hrunes⟩ := hmiddle
  refine ⟨ofRunes before, ofRunes after, ?_⟩
  rw [trim, ← ofRunes_append, ← ofRunes_append, hrunes, ofRunes_runes]

end Text

/-! ### Clean paths -/

namespace Path

variable {p : Text}

/-- One more component adds at most itself to those that are kept. -/
theorem reverse_follow_sublist (rooted : Bool) (kept : List Text) (c : Text) :
    (follow rooted kept c).reverse.Sublist (kept.reverse ++ [c]) := by
  rw [follow.eq_def]
  split
  · exact List.sublist_append_left _ _
  · split
    · cases kept with
      | nil =>
        -- at the root nothing is kept, elsewhere the step up is
        simp only
        split
        · exact List.nil_sublist _
        · exact List.Sublist.refl _
      | cons last before =>
        simp only
        split
        · rw [List.reverse_cons]
        · rw [List.reverse_cons, List.append_assoc]
          exact List.sublist_append_left _ _
    · rw [List.reverse_cons]

/-- The components that are kept are some of those that were met, in their order. -/
theorem reverse_foldl_follow_sublist (rooted : Bool) (fs kept : List Text) :
    (fs.foldl (follow rooted) kept).reverse.Sublist (kept.reverse ++ fs) := by
  induction fs generalizing kept with
  | nil => simp
  | cons f fs ih =>
    rw [List.foldl_cons]
    refine (ih (follow rooted kept f)).trans ?_
    simpa using (reverse_follow_sublist rooted kept f).append_right fs

theorem join_reverse_foldl_sublist (rooted : Bool) (p : Text) :
    (join [slash] ((fields slash p).foldl (follow rooted) []).reverse).Sublist p := by
  have hjoin := Text.join_sublist slash
    (reverse_foldl_follow_sublist rooted (fields slash p) [])
  rwa [List.reverse_nil, List.nil_append, Text.join_fields] at hjoin

/-- Cleaning a path adds nothing to it, unless all that remains is a dot. -/
theorem clean_sublist_or (p : Text) : (clean p).Sublist p ∨ clean p = "." := by
  cases hp : isAbsolute p with
  | true =>
    cases p with
    | nil => cases hp
    | cons b rest =>
      obtain rfl : b = slash := by simpa [isAbsolute] using hp
      -- the empty field before the first slash is skipped
      have hcomponents : components (slash :: rest) =
          ((fields slash rest).foldl (follow true) []).reverse := by
        rw [components, hp, fields, if_pos rfl, List.foldl_cons, follow.eq_def, if_pos (.inl rfl)]
      refine .inl ?_
      rw [clean, if_pos hp, hcomponents]
      exact (join_reverse_foldl_sublist true rest).cons_cons slash
  | false =>
    rw [clean_of_relative hp]
    split
    · exact .inr rfl
    · exact .inl (join_reverse_foldl_sublist (isAbsolute p) p)

theorem length_clean_le (hne : p ≠ []) : (clean p).length ≤ p.length := by
  rcases clean_sublist_or p with hsublist | hdot
  · exact hsublist.length_le
  · rw [hdot]
    exact List.length_pos_iff.2 hne

end Path

namespace Config

variable {a : Text} {others : List Text}

/-! ### Lists with commas -/

/-- The byte between files. -/
def comma : UInt8 := Text.byte ','

theorem listed_nil : listed [] = [] := by
  simp [listed, fields, Text.trim_nil]

/-- A list with commas is split at each of them. -/
theorem listed_append (t u : Text) : listed (t ++ comma :: u) = listed t ++ listed u := by
  rw [listed, listed, listed, ← List.map_append, ← List.filter_append, ← List.map_append]
  exact congrArg (fun parts : List Text => ((parts.map Text.trim).filter (· ≠ [])).map Path.clean)
    (Text.fields_append comma t u)

theorem listed_join (hne : others ≠ []) : listed (join [comma] others) = others.flatMap listed := by
  induction others with
  | nil => exact absurd rfl hne
  | cons a others ih =>
    by_cases hnil : others = []
    · subst hnil
      rw [Text.join_singleton, List.flatMap_singleton]
    · rw [Text.join_cons [comma] a hnil, List.singleton_append, listed_append, ih hnil,
        List.flatMap_cons]

/-- The files of the flag come first, and then those that each argument lists. -/
theorem listed_joinFiles (files : Text) (others : List Text) :
    listed (joinFiles files others) = listed files ++ others.flatMap listed := by
  by_cases hnil : others = []
  · rw [joinFiles, if_pos hnil, hnil, List.flatMap_nil, List.append_nil]
  · have hjoin := listed_join hnil
    rw [joinFiles, if_neg hnil]
    by_cases hfiles : files = []
    · rw [if_pos hfiles, hfiles, List.nil_append, listed_nil, List.nil_append]
      exact hjoin
    · -- the comma that is put between the flag and the arguments is one to split at
      rw [if_neg hfiles, List.append_assoc, ← hjoin]
      exact listed_append files _

/-- No file that is listed has a comma in its path. -/
theorem comma_not_mem_of_mem_listed {files path : Text} (h : path ∈ listed files) :
    comma ∉ path := by
  obtain ⟨part, hpart, rfl⟩ := List.mem_map.1 h
  obtain ⟨field, hfield, rfl⟩ := List.mem_map.1 (List.mem_of_mem_filter hpart)
  have htrim : comma ∉ Text.trim field := fun hmem =>
    Text.not_mem_of_mem_fields hfield ((Text.trim_infix field).mem hmem)
  intro hmem
  rcases Path.clean_sublist_or (Text.trim field) with hsublist | hdot
  · exact htrim (hsublist.mem hmem)
  · rw [hdot] at hmem
    revert hmem
    decide

/-- A text without commas lists at most one file. -/
theorem listed_of_not_mem (h : comma ∉ a) :
    listed a = if Text.trim a = [] then [] else [Path.clean (Text.trim a)] := by
  have hfields : fields (Text.byte ',') a = [a] := Text.fields_of_not_mem h
  rw [listed, hfields]
  by_cases hnil : Text.trim a = [] <;> simp [hnil]

/-- A text that a list with commas can hold. -/
structure Listable (a : Text) : Prop where
  ne_nil : a ≠ []
  no_comma : comma ∉ a
  trimmed : Text.trim a = a

instance (a : Text) : Decidable (Listable a) :=
  decidable_of_iff (a ≠ [] ∧ comma ∉ a ∧ Text.trim a = a)
    ⟨fun h => ⟨h.1, h.2.1, h.2.2⟩, fun h => ⟨h.ne_nil, h.no_comma, h.trimmed⟩⟩

theorem Listable.listed_eq (h : Listable a) : listed a = [Path.clean a] := by
  rw [listed_of_not_mem h.no_comma, h.trimmed, if_neg h.ne_nil]

/-- A text is listed as itself only if a list with commas can hold it. -/
theorem listable_of_listed_eq (h : listed a = [a]) : Listable a := by
  have hcomma : comma ∉ a := comma_not_mem_of_mem_listed (by rw [h]; exact List.mem_cons_self)
  rw [listed_of_not_mem hcomma] at h
  split at h
  · cases h
  · rename_i htrim
    -- nothing was trimmed, since cleaning what is left cannot make it longer
    have heq : Path.clean (Text.trim a) = a := (List.cons.inj h).1
    have hlength : a.length ≤ (Text.trim a).length :=
      calc a.length = (Path.clean (Text.trim a)).length := by rw [heq]
        _ ≤ (Text.trim a).length := Path.length_clean_le htrim
    have htrimmed : Text.trim a = a :=
      (Text.trim_infix a).eq_of_length_le hlength
    exact ⟨fun hnil => htrim (htrimmed.trans hnil), hcomma, htrimmed⟩

private theorem length_flatMap_le {α β : Type} {f : α → List β} {l : List α}
    (h : ∀ a ∈ l, (f a).length ≤ 1) : (l.flatMap f).length ≤ l.length := by
  induction l with
  | nil => exact Nat.le_refl 0
  | cons a l ih =>
    obtain ⟨ha, hl⟩ := List.forall_mem_cons.1 h
    have hrest := ih hl
    rw [List.flatMap_cons, List.length_append, List.length_cons]
    omega

/-- Lists with at most one element for each argument make up a list with exactly one for each only
argument by argument. -/
theorem forall_eq_singleton_of_flatMap_eq {α β : Type} {f : α → List β} {g : α → β} {l : List α}
    (hle : ∀ a ∈ l, (f a).length ≤ 1) (h : l.flatMap f = l.map g) : ∀ a ∈ l, f a = [g a] := by
  induction l with
  | nil => exact List.forall_mem_nil _
  | cons a l ih =>
    obtain ⟨ha, hl⟩ := List.forall_mem_cons.1 hle
    rw [List.flatMap_cons, List.map_cons] at h
    cases hfa : f a with
    | nil =>
      -- the other arguments cannot make up for the one that is missing
      rw [hfa, List.nil_append] at h
      have hlength := congrArg List.length h
      rw [List.length_cons, List.length_map] at hlength
      exact absurd (length_flatMap_le hl) (by omega)
    | cons b bs =>
      obtain rfl : bs = [] := by
        rw [hfa, List.length_cons] at ha
        exact List.length_eq_zero_iff.1 (by omega)
      rw [hfa, List.singleton_append] at h
      obtain ⟨rfl, hrest⟩ := List.cons.inj h
      exact List.forall_mem_cons.2 ⟨hfa, ih hl hrest⟩

/-- Clean paths are listed as themselves only if a list with commas can hold each of them. -/
theorem forall_listable_of_flatMap_eq (hclean : ∀ a ∈ others, Path.clean a = a)
    (h : others.flatMap listed = others.map Path.clean) : ∀ a ∈ others, Listable a := by
  have hcomma : ∀ a ∈ others, comma ∉ a := by
    intro a ha
    have hmem : a ∈ others.flatMap listed := by
      rw [h]
      exact List.mem_map.2 ⟨a, ha, hclean a ha⟩
    obtain ⟨_, -, hlisted⟩ := List.mem_flatMap.1 hmem
    exact comma_not_mem_of_mem_listed hlisted
  have hle : ∀ a ∈ others, (listed a).length ≤ 1 := by
    intro a ha
    rw [listed_of_not_mem (hcomma a ha)]
    split
    · exact Nat.zero_le 1
    · exact Nat.le_refl 1
  intro a ha
  have heq := forall_eq_singleton_of_flatMap_eq hle h a ha
  rw [hclean a ha] at heq
  exact listable_of_listed_eq heq

end Config

/-! ### Arguments -/

/-- The arguments after the flags are the last ones. -/
theorem Flag.suffix_of_parse {flags : List Flag} {values values' : FlagValues}
    {arguments others : List Text} (h : parse flags values arguments = .ok (values', others)) :
    others <:+ arguments := by
  fun_induction parse flags values arguments with
  | case1 values | case2 values argument rest =>
    -- no flags are left
    cases h
    exact List.suffix_rfl
  | case3 values argument rest =>
    cases h
    exact List.suffix_cons argument _
  | case4 | case5 | case6 | case9 | case11 => cases h
  | case7 values argument name f hf value rest read hread harg ih =>
    exact (ih h).trans (List.suffix_cons argument rest)
  | case8 values argument name f hf harg =>
    cases halone : f.alone with
    | error e =>
      rw [halone] at h
      cases h
    | ok value =>
      rw [halone] at h
      cases h
      exact List.nil_suffix
  | case10 values argument name f hf next rest htakes read hread harg ih =>
    -- the value of the flag is passed over too
    exact (ih h).trans ((List.suffix_cons next rest).trans (List.suffix_cons argument _))
  | case12 values argument name f hf next rest htakes read hread harg ih =>
    exact (ih h).trans (List.suffix_cons argument _)

namespace Config

variable {σ : Type} {h : Handler diskInterface σ} {s s' : σ} {c c' : Config} {cwd : Text}
  {extra : List Flag} {env : Environment} {values : FlagValues} {others arguments : List Text}

theorem fresh_of_ofValues (hc : ofValues env values others = .ok c) :
    c.Fresh ∧ c.files = joinFiles (values.text "files") others := by
  rw [ofValues] at hc
  simp only at hc
  split at hc
  · cases hc
  · cases hfolder : archiveFolder env (values.text "state") with
    | error e =>
      rw [hfolder] at hc
      cases hc
    | ok archive =>
      rw [hfolder] at hc
      cases hc
      exact ⟨⟨rfl, rfl, rfl⟩, rfl⟩

/-- Arguments give an untouched configuration with the files of the flag and the arguments after
the flags. -/
theorem exists_of_ofArguments (hc : ofArguments extra env arguments = .ok (c, values)) :
    ∃ others, Flag.parse (standardFlags ++ extra) (Flag.defaults (standardFlags ++ extra))
        arguments = .ok (values, others) ∧
      c.Fresh ∧ c.files = joinFiles (values.text "files") others := by
  rw [ofArguments] at hc
  split at hc
  · cases hc
  · split at hc
    · cases hc
    · rename_i values' others hparse
      cases hvalues : ofValues env values' others with
      | error e =>
        rw [hvalues] at hc
        cases hc
      | ok c' =>
        rw [hvalues] at hc
        cases hc
        exact ⟨others, hparse, fresh_of_ofValues hvalues⟩

/-- What becomes of the arguments after the flags: each stands for all files that it lists. They
come out as their clean paths if a list with commas can hold each of them. If they are clean, this
is necessary too. -/
theorem targets_of_arguments (hc : ofArguments extra env arguments = .ok (c, values))
    (hrun : c.prepare.run h s = ((.ok (), c'), s')) :
    ∃ others, Flag.parse (standardFlags ++ extra) (Flag.defaults (standardFlags ++ extra))
        arguments = .ok (values, others) ∧ others <:+ arguments ∧
      c'.targets = listed (values.text "files") ++ others.flatMap listed ∧
      ((∀ a ∈ others, Listable a) →
        c'.targets = listed (values.text "files") ++ others.map Path.clean) ∧
      ((∀ a ∈ others, Path.clean a = a) →
        c'.targets = listed (values.text "files") ++ others.map Path.clean →
          ∀ a ∈ others, Listable a) := by
  obtain ⟨others, hparse, hfresh, hfiles⟩ := exists_of_ofArguments hc
  have htargets : c'.targets = listed (values.text "files") ++ others.flatMap listed := by
    rw [(targets_of_prepare hrun).1, hfresh.targets, hfiles, listed_joinFiles, List.nil_append]
  refine ⟨others, hparse, Flag.suffix_of_parse hparse, htargets, fun hlistable => ?_,
    fun hclean heq => ?_⟩
  · rw [htargets, List.map_eq_flatMap]
    exact congrArg _ (List.flatMap_congr fun a ha => (hlistable a ha).listed_eq)
  · rw [htargets] at heq
    exact forall_listable_of_flatMap_eq hclean (List.append_cancel_left heq)

/-- A configuration that arguments give and that can be prepared. -/
theorem exists_prepare_ofArguments {d : Disk}
    (hok : ((ofArguments extra env arguments).toOption.map fun r =>
      (r.1.prepare.run Disk.perform d).1.1.isOk) = some true) :
    ∃ c values c' d', ofArguments extra env arguments = .ok (c, values) ∧
      c.prepare.run Disk.perform d = ((.ok (), c'), d') := by
  cases hc : ofArguments extra env arguments with
  | error e =>
    rw [hc] at hok
    cases hok
  | ok r =>
    rw [hc] at hok
    obtain ⟨c', d', hrun⟩ := exists_prepare_eq (Option.some.inj hok)
    exact ⟨r.1, r.2, c', d', rfl, hrun⟩

/-- What is read from given arguments. -/
private theorem text_others_eq {flags : List Flag} {files : Text} {rest : List Text}
    (hparse : Flag.parse flags (Flag.defaults flags) arguments = .ok (values, others))
    (heval : (Flag.parse flags (Flag.defaults flags) arguments).toOption.map
      (fun r => (r.1.text "files", r.2)) = some (files, rest)) :
    values.text "files" = files ∧ others = rest := by
  rw [hparse] at heval
  exact Prod.mk.inj (Option.some.inj heval)

/-- Files of the flag and of two arguments, of which one is not clean. -/
theorem targets_of_arguments_two :
    let arguments := ["-files", "x.rs,,", "-state=none", "b c.rs", "./d.rs"].map Text.ofString
    let d := (((Disk.fresh "/work").put "x.rs" 0o644 []).put "b c.rs" 0o644 []).put "d.rs" 0o644 []
    ∃ c values c' d', ofArguments [] ⟨[], []⟩ arguments = .ok (c, values) ∧
      c.prepare.run Disk.perform d = ((.ok (), c'), d') ∧
      c'.targets = ["x.rs", "b c.rs", "d.rs"].map Text.ofString := by
  intro arguments d
  have hok : ((ofArguments [] ⟨[], []⟩ arguments).toOption.map fun r =>
      (r.1.prepare.run Disk.perform d).1.1.isOk) = some true := by decide +kernel
  obtain ⟨c, values, c', d', hc, hrun⟩ := exists_prepare_ofArguments hok
  obtain ⟨others, hparse, -, -, hlistable, -⟩ := targets_of_arguments hc hrun
  obtain ⟨hfiles, rfl⟩ : values.text "files" = "x.rs,," ∧
      others = ["b c.rs", "./d.rs"].map Text.ofString :=
    text_others_eq hparse (by decide +kernel)
  refine ⟨c, values, c', d', hc, hrun, (hlistable (by decide +kernel)).trans ?_⟩
  rw [hfiles]
  decide +kernel

/-- An argument with a comma is taken for two other files. -/
theorem targets_of_arguments_comma :
    let arguments := ["-state", "none", "a,b"].map Text.ofString
    let d := (((Disk.fresh "/work").put "a,b" 0o644 []).put "a" 0o644 []).put "b" 0o644 []
    ∃ c values c' d', ofArguments [] ⟨[], []⟩ arguments = .ok (c, values) ∧
      c.prepare.run Disk.perform d = ((.ok (), c'), d') ∧
      c'.targets ≠ listed (values.text "files") ++ [Path.clean "a,b"] := by
  intro arguments d
  have hok : ((ofArguments [] ⟨[], []⟩ arguments).toOption.map fun r =>
      (r.1.prepare.run Disk.perform d).1.1.isOk) = some true := by decide +kernel
  obtain ⟨c, values, c', d', hc, hrun⟩ := exists_prepare_ofArguments hok
  obtain ⟨others, hparse, hfresh, hjoined⟩ := exists_of_ofArguments hc
  obtain ⟨hfiles, rfl⟩ : values.text "files" = [] ∧ others = ["a,b"].map Text.ofString :=
    text_others_eq hparse (by decide +kernel)
  refine ⟨c, values, c', d', hc, hrun, ?_⟩
  rw [(targets_of_prepare hrun).1, hfresh.targets, hjoined, hfiles]
  decide +kernel

end Config

end Reroute
