import Mathlib.Data.List.Nodup
import Mathlib.Data.List.TakeWhile
import Reroute.Route
import Reroute.Proofs.Text.Utf8

/-!
# Route tables

Whether routes form a table is decided by their names alone: none of them may be blank, and no two
may be the same. Blankness is a matter of the trimmed name, identity of the name as it stands, so
`a` and ` a` are two units. A table keeps its routes as they were given and finds each of them by
its name: the index has the position of the first route of a name, and there is no second. Where
there is no table, the error points at the first name that stands in the way, and blank names come
before repeated ones.

## Main definitions

* `RouteTable.Unnamed` — the first blank name stands at a position
* `RouteTable.Repeated` — the first name that stands more than once

## Main results

* `Text.trim_eq_nil_iff` — a text trims to nothing just if it is blank
* `RouteTable.ofList_eq_ok_iff`, `RouteTable.ofList_eq_error_iff` — when there is a table, and which
  error there is otherwise
* `RouteTable.find?_indexOf` — what the index has under a name
* `RouteTable.ofList_registers` — building a table and looking names up agree
-/

namespace Reroute

namespace Text

theorem ofRunes_eq_nil_iff {rs : List Rune} : ofRunes rs = [] ↔ rs = [] := by
  constructor
  · intro h
    cases rs with
    | nil => rfl
    | cons r rs =>
      have hbytes : r.bytes = [] := (List.append_eq_nil_iff.1 h).1
      have hwidth := Rune.length_bytes r
      rw [hbytes, List.length_nil] at hwidth
      exact absurd hwidth (Nat.ne_of_lt r.width_pos)
  · rintro rfl
    rfl

/-- Trimming leaves nothing just if all is blank. -/
theorem trim_eq_nil_iff {t : Text} : trim t = [] ↔ isBlankText t = true := by
  rw [trim, ofRunes_eq_nil_iff, List.reverse_eq_nil_iff, List.dropWhile_eq_nil_iff, isBlankText,
    List.all_eq_true]
  simp only [List.mem_reverse]
  constructor
  · intro h r hr
    -- what is left at the front starts with a rune that is not blank, so nothing is left
    have hnil : (runes t).dropWhile Rune.isBlank = [] := by
      by_contra hne
      have hhead := List.head_dropWhile_not Rune.isBlank hne
      rw [h _ (List.head_mem hne)] at hhead
      cases hhead
    exact List.dropWhile_eq_nil_iff.1 hnil r hr
  · intro h r hr
    exact h r ((List.dropWhile_suffix _).mem hr)

theorem isBlankText_eq_false_iff {t : Text} : isBlankText t = false ↔ trim t ≠ [] := by
  rw [ne_eq, trim_eq_nil_iff, Bool.not_eq_true]

end Text

namespace RouteTable

variable {routes : List Route} {table : RouteTable}

/-- The route at position `i` is the first one whose name trims to nothing. -/
def Unnamed (routes : List Route) (i : Nat) : Prop :=
  ∃ front r back, routes = front ++ r :: back ∧ front.length = i ∧ r.name.trim = [] ∧
    ∀ r' ∈ front, r'.name.trim ≠ []

/-- The first name, in the order of the routes, that stands more than once. -/
def Repeated (routes : List Route) (name : Text) : Prop :=
  ∃ front back, routes.map Route.name = front ++ name :: back ∧
    1 < (routes.map Route.name).count name ∧
    ∀ name' ∈ front, (routes.map Route.name).count name' = 1

/-! ### The first name that stands in the way -/

theorem firstUnnamed?_eq_some_iff {i : Nat} : firstUnnamed? routes = some i ↔ Unnamed routes i := by
  rw [firstUnnamed?, List.findIdx?_eq_some_iff_findIdx_eq]
  constructor
  · rintro ⟨hlt, hidx⟩
    have hblank : routes[i].name.isBlankText = true := by
      subst hidx
      exact List.findIdx_getElem (p := fun r : Route => r.name.isBlankText) (w := hlt)
    refine ⟨routes.take i, routes[i], routes.drop (i + 1), ?_, ?_, Text.trim_eq_nil_iff.2 hblank,
      fun r hr => ?_⟩
    · rw [List.getElem_cons_drop, List.take_append_drop]
    · rw [List.length_take, Nat.min_eq_left (Nat.le_of_lt hlt)]
    · obtain ⟨k, hk, rfl⟩ := List.mem_take_iff_getElem.1 hr
      have hki : k < routes.findIdx (·.name.isBlankText) := by omega
      exact Text.isBlankText_eq_false_iff.1 (by simpa using List.not_of_lt_findIdx hki)
  · rintro ⟨front, r, back, rfl, rfl, hblank, hfront⟩
    have hnone : front.findIdx (·.name.isBlankText) = front.length :=
      List.findIdx_eq_length.2 fun r' hr' => by
        simpa using Text.isBlankText_eq_false_iff.2 (hfront r' hr')
    refine ⟨by simp, ?_⟩
    rw [List.findIdx_append, hnone, if_neg (Nat.lt_irrefl _), List.findIdx_cons,
      Text.trim_eq_nil_iff.1 hblank]
    simp

theorem firstUnnamed?_eq_none_iff :
    firstUnnamed? routes = none ↔ ∀ r ∈ routes, r.name.trim ≠ [] := by
  simp only [firstUnnamed?, List.findIdx?_eq_none_iff, Text.isBlankText_eq_false_iff]

theorem firstDuplicate?_eq_some_iff {name : Text} :
    firstDuplicate? routes = some name ↔ Repeated routes name := by
  rw [firstDuplicate?, List.find?_eq_some_iff_append]
  simp only [gt_iff_lt, decide_eq_true_eq, Bool.not_eq_true', decide_eq_false_iff_not,
    Nat.not_lt]
  constructor
  · rintro ⟨hcount, front, back, hsplit, hfront⟩
    refine ⟨front, back, hsplit, hcount, fun name' hmem => Nat.le_antisymm (hfront name' hmem) ?_⟩
    rw [hsplit]
    exact List.count_pos_iff.2 (List.mem_append_left _ hmem)
  · rintro ⟨front, back, hsplit, hcount, hfront⟩
    exact ⟨hcount, front, back, hsplit, fun name' hmem => Nat.le_of_eq (hfront name' hmem)⟩

theorem firstDuplicate?_eq_none_iff :
    firstDuplicate? routes = none ↔ (routes.map Route.name).Nodup := by
  refine ⟨nodup_of_firstDuplicate?, fun hnodup => ?_⟩
  by_contra hsome
  obtain ⟨name, hsome⟩ := Option.ne_none_iff_exists'.1 hsome
  obtain ⟨-, -, -, hcount, -⟩ := firstDuplicate?_eq_some_iff.1 hsome
  exact absurd (List.nodup_iff_count.1 hnodup name) (Nat.not_le.2 hcount)

/-! ### Building a table -/

/-- There is a table just if the names allow it, and it holds the routes as they were given. -/
theorem ofList_eq_ok_iff :
    ofList routes = .ok table ↔
      (∀ r ∈ routes, r.name.trim ≠ []) ∧ (routes.map Route.name).Nodup ∧ table.routes = routes := by
  rw [← firstUnnamed?_eq_none_iff, ← firstDuplicate?_eq_none_iff, ofList]
  split
  · rename_i hunnamed
    simp [hunnamed]
  rename_i hnamed
  split
  · rename_i hduplicate
    simp [hduplicate]
  rename_i hnodup
  obtain ⟨routes', index', named', nodup', rfl⟩ := table
  constructor
  · intro h
    cases h
    exact ⟨hnamed, hnodup, rfl⟩
  · rintro ⟨-, -, rfl⟩
    rfl

/-- The error names the first blank name, or else the first repeated one. -/
theorem ofList_eq_error_iff {e : TableError} :
    ofList routes = .error e ↔
      (∃ i, e = .unnamed i ∧ Unnamed routes i) ∨
      (∀ r ∈ routes, r.name.trim ≠ []) ∧ ∃ name, e = .duplicate name ∧ Repeated routes name := by
  simp only [← firstUnnamed?_eq_some_iff, ← firstUnnamed?_eq_none_iff,
    ← firstDuplicate?_eq_some_iff]
  rw [ofList]
  split
  · rename_i hunnamed
    simp [hunnamed, eq_comm]
  rename_i hnamed
  split
  · rename_i hduplicate
    simp [hnamed, hduplicate, eq_comm]
  · rename_i hnodup
    simp [hnamed, hnodup]

/-! ### Looking names up -/

/-- Entering routes from a position on puts the place of each under its name. -/
theorem find?_foldl_insert (hnodup : (routes.map Route.name).Nodup) (n : Nat)
    (index : Keyed Text Nat) (name : Text) :
    ((routes.zipIdx n).foldl (fun index (r, i) => index.insert r.name i) index).find? name =
      ((routes.findIdx? (·.name == name)).map (· + n)).or (index.find? name) := by
  induction routes generalizing n index with
  | nil => rfl
  | cons r rest ih =>
    rw [List.map_cons, List.nodup_cons] at hnodup
    rw [List.zipIdx_cons, List.foldl_cons, ih hnodup.2, Keyed.find?_insert, List.findIdx?_cons]
    by_cases hname : name = r.name
    · -- no later route has the name, so nothing is put in place of the position
      subst hname
      have hrest : rest.findIdx? (·.name == r.name) = none := by
        refine List.findIdx?_eq_none_iff.2 fun r' hr' => beq_false_of_ne fun heq => ?_
        exact hnodup.1 (heq ▸ List.mem_map_of_mem hr')
      simp [hrest]
    · have hne : (r.name == name) = false := beq_false_of_ne (Ne.symm hname)
      simp [hname, hne, Option.map_map, Function.comp_def, Nat.add_assoc, Nat.add_comm 1]

/-- The index has the position of the first route of a name. -/
theorem find?_indexOf (hnodup : (routes.map Route.name).Nodup) (name : Text) :
    (indexOf routes).find? name = routes.findIdx? (·.name == name) := by
  rw [indexOf, find?_foldl_insert hnodup]
  simp

/-- What the index leads to is the first route of the name. -/
theorem find?_eq_find?_routes (table : RouteTable) (name : Text) :
    table.find? name = table.routes.find? (·.name == name) := by
  rw [find?, table.indexed, find?_indexOf table.nodup, List.find?_eq_bind_findIdx?_getElem?]

/-- In a table the name of a route leads back to the route. -/
theorem find?_eq_some_iff {name : Text} {r : Route} :
    table.find? name = some r ↔ r ∈ table.routes ∧ r.name = name := by
  rw [find?_eq_find?_routes]
  constructor
  · intro h
    exact ⟨List.mem_of_find?_eq_some h, by simpa using List.find?_some h⟩
  · rintro ⟨hmem, rfl⟩
    -- whatever is found has the same name, and a table has one route of a name
    have hsome : (table.routes.find? (·.name == r.name)).isSome = true :=
      List.find?_isSome.2 ⟨r, hmem, beq_self_eq_true _⟩
    obtain ⟨r', hr'⟩ := Option.isSome_iff_exists.1 hsome
    have hname : r'.name = r.name := by simpa using List.find?_some hr'
    rw [hr', List.inj_on_of_nodup_map table.nodup (List.mem_of_find?_eq_some hr') hmem hname]

theorem find?_eq_none_iff {name : Text} :
    table.find? name = none ↔ ∀ r ∈ table.routes, r.name ≠ name := by
  simp [find?_eq_find?_routes]

/-- Building a table and looking names up agree, for every list of routes. There is a table just if
no name trims to nothing and no two names are the same. It holds the routes in the order in which
they were given, counts them, and finds for every name the route of that name if there is one. Where
there is no table, the error names the first position of a blank name; without a blank name it names
the first name that is repeated. -/
theorem ofList_registers (routes : List Route) :
    ((∃ table, ofList routes = .ok table) ↔
      (∀ r ∈ routes, r.name.trim ≠ []) ∧ (routes.map Route.name).Nodup) ∧
    (∀ table, ofList routes = .ok table →
      table.routes = routes ∧ table.size = routes.length ∧
      ∀ name, (∀ r, table.find? name = some r ↔ r ∈ routes ∧ r.name = name) ∧
        (table.find? name = none ↔ ∀ r ∈ routes, r.name ≠ name)) ∧
    ∀ e, ofList routes = .error e ↔
      (∃ i, e = .unnamed i ∧ Unnamed routes i) ∨
      (∀ r ∈ routes, r.name.trim ≠ []) ∧ ∃ name, e = .duplicate name ∧ Repeated routes name := by
  refine ⟨⟨?_, ?_⟩, fun table htable => ?_, fun e => ofList_eq_error_iff⟩
  · rintro ⟨table, htable⟩
    obtain ⟨hnamed, hnodup, -⟩ := ofList_eq_ok_iff.1 htable
    exact ⟨hnamed, hnodup⟩
  · rintro ⟨hnamed, hnodup⟩
    have hblank : ∀ r ∈ routes, r.name.isBlankText = false := fun r hr =>
      Text.isBlankText_eq_false_iff.2 (hnamed r hr)
    exact ⟨⟨routes, indexOf routes, hblank, hnodup, rfl⟩,
      ofList_eq_ok_iff.2 ⟨hnamed, hnodup, rfl⟩⟩
  · obtain ⟨-, -, rfl⟩ := ofList_eq_ok_iff.1 htable
    exact ⟨rfl, rfl, fun name => ⟨fun r => find?_eq_some_iff, find?_eq_none_iff⟩⟩

end RouteTable

end Reroute
