import Reroute.Keyed
import Reroute.Text.Blank
import Reroute.Text.Quoted

/-!
# Routes and route tables

A route registers one unit, a function of the patched source, and says what its calls tell the
helper. A route table keeps routes in the order in which a pass goes through them; its names are
not blank and pairwise different, so a name finds at most one route. Names are looked up in an index
that has the position of each route.

## Main definitions

* `Route` — the registration of one unit
* `RouteTable` — routes with proper names
* `RouteTable.indexOf` — the positions of routes under their names
* `RouteTable.ofList` — the table of a list of routes, if the names allow it
* `RouteTable.find?` — the route of a name
-/

namespace Reroute

/-- The registration of a unit and what its calls pass to the helper. -/
structure Route where
  /-- The name of the unit in its declaration. -/
  name : Text
  /-- A label such as `read`, passed on as a string. -/
  category : Text
  /-- A source expression for the path that the unit works on. -/
  path : Text
  /-- A source expression for the summary of what the unit did. -/
  summary : Text
deriving DecidableEq, Repr, Inhabited

/-- The route whose texts are all empty. -/
def Route.empty : Route := ⟨[], [], [], []⟩

/-- Why routes form no table. -/
inductive TableError where
  | unnamed (index : Nat)
  | duplicate (name : Text)
deriving DecidableEq, Repr

/-- The message of a table error. -/
def TableError.message : TableError → Text
  | unnamed index => "table entry " ++ Text.ofNat index ++ " has no unit name"
  | duplicate name => "duplicate table entry for unit " ++ name.quote

/-- The positions of routes under their names. -/
def RouteTable.indexOf (routes : List Route) : Keyed Text Nat :=
  routes.zipIdx.foldl (fun index (r, i) => index.insert r.name i) .empty

/-- Routes in the order of a pass, with an index of their names. No name is blank, and no two are
the same. -/
structure RouteTable where
  routes : List Route
  index : Keyed Text Nat
  named : ∀ r ∈ routes, r.name.isBlankText = false
  nodup : (routes.map Route.name).Nodup
  indexed : index = RouteTable.indexOf routes

namespace RouteTable

/-- The position of the first route with a blank name. -/
def firstUnnamed? (routes : List Route) : Option Nat := routes.findIdx? (·.name.isBlankText)

/-- The first name that stands more than once. -/
def firstDuplicate? (routes : List Route) : Option Text :=
  (routes.map Route.name).find? fun name => (routes.map Route.name).count name > 1

theorem named_of_firstUnnamed? {routes : List Route} (h : firstUnnamed? routes = none) :
    ∀ r ∈ routes, r.name.isBlankText = false := by
  simpa [firstUnnamed?] using h

theorem nodup_of_firstDuplicate? {routes : List Route} (h : firstDuplicate? routes = none) :
    (routes.map Route.name).Nodup := by
  rw [List.nodup_iff_count]
  intro name
  by_cases hm : name ∈ routes.map Route.name
  · simp only [firstDuplicate?, List.find?_eq_none] at h
    simpa using h name hm
  · simp [List.count_eq_zero.2 hm]

/-- The table of a list of routes. A blank name is reported before a duplicate one. -/
def ofList (routes : List Route) : Except TableError RouteTable :=
  match hn : firstUnnamed? routes with
  | some index => .error (.unnamed index)
  | none =>
    match hd : firstDuplicate? routes with
    | some name => .error (.duplicate name)
    | none =>
      .ok ⟨routes, indexOf routes, named_of_firstUnnamed? hn, nodup_of_firstDuplicate? hd, rfl⟩

/-- The route that is registered for a name. -/
def find? (t : RouteTable) (name : Text) : Option Route :=
  (t.index.find? name).bind fun i => t.routes[i]?

/-- The number of registered units. -/
def size (t : RouteTable) : Nat := t.routes.length

end RouteTable

end Reroute
