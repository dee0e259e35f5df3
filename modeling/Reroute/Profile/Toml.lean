import Reroute.Profile.Basic
import Reroute.Toml.Table

/-!
# Profiles in TOML

A profile from a TOML text. Fields that are not given keep their values, and names match without
regard to case. A value of the wrong kind is an error; so is, if nothing else is wrong, a key that
belongs to no field.

## Main definitions

* `Toml.TableError` — why a text gives no profile
* `Profile.ofToml` — the profile of a text
-/

namespace Reroute.Toml

/-- Why a text gives no profile. -/
inductive TableError where
  /-- The text is no TOML, or a value has the wrong kind. -/
  | malformed
  | unknownKeys (keys : List Key)

/-- A character without regard to case. Two characters outside ASCII have a letter of ASCII as their
other case. -/
def foldChar (c : Char) : Char :=
  if c.toNat = 0x17F then 's' else if c.toNat = 0x212A then 'k' else c.toLower

/-- A name without regard to case. -/
def foldName (t : Text) : List Char := (Text.chars t).map foldChar

/-- A field of a structure: how a value at a key is put into it, with the keys that have a field. -/
abbrev Field (σ : Type) := Key → Value → σ → Option (σ × List Key)

/-- The fields of a structure by name. -/
abbrev Shape (σ : Type) := List (Text × Field σ)

variable {σ : Type}

/-- The field of a name: the one of exactly this name, or else the first that matches without regard
to case. -/
def Shape.field? (shape : Shape σ) (name : Text) : Option (Field σ) :=
  match shape.lookup name with
  | some field => some field
  | none => (List.find? (fun (other, _) => foldName other = foldName name) shape).map Prod.snd

/-- The values of a table put into a structure, with the keys that have a field. -/
def fields (shape : Shape σ) (context : Key) : σ → Table → Option (σ × List Key)
  | value, [] => some (value, [])
  | value, (name, v) :: rest => do
    match Shape.field? shape name with
    | none => fields shape context value rest
    | some field =>
      let key := context ++ [name]
      let (value, known) ← field key v value
      let (value, more) ← fields shape context value rest
      return (value, key :: known ++ more)

/-- A field that holds a text. -/
def textField (set : Text → σ → σ) : Field σ := fun _ v value =>
  match v with
  | .text t => some (set t value, [])
  | _ => none

/-- The tables of a list of values. -/
def tables? : List Value → Option (List Table)
  | [] => some []
  | .table t :: rest => (tables? rest).map (t :: ·)
  | _ => none

/-- The tables of an array. -/
def Value.tables? : Value → Option (List Table)
  | .tables items => some items
  | .array items => Toml.tables? items
  | _ => none

/-- Tables as structures, with the keys that have a field. -/
def structures (shape : Shape σ) (blank : σ) (context : Key) :
    List Table → Option (List σ × List Key)
  | [] => some ([], [])
  | t :: rest => do
    let (value, known) ← fields shape context blank t
    let (values, more) ← structures shape blank context rest
    return (value :: values, known ++ more)

end Reroute.Toml

namespace Reroute

open Toml (Shape textField)

/-- The fields of routes. -/
def Route.tomlShape : Shape Route := [
  ("name", textField fun t r => { r with name := t }),
  ("category", textField fun t r => { r with category := t }),
  ("path", textField fun t r => { r with path := t }),
  ("summary", textField fun t r => { r with summary := t })]

/-- The fields of helpers. -/
def Helper.tomlShape : Shape Helper := [
  ("name", textField fun t h => { h with name := t }),
  ("ident", textField fun t h => { h with ident := t }),
  ("definition", textField fun t h => { h with definition := t })]

/-- The fields of profiles. -/
def Profile.tomlShape : Shape Profile := [
  ("anchor", textField fun t p => { p with anchor := t }),
  ("helper", fun key v p => do
    match v with
    | .table t =>
      let (helper, known) ← Toml.fields Helper.tomlShape key p.helper t
      return ({ p with helper }, known)
    | _ => none),
  ("decl_prefix", textField fun t p => { p with declaration := t }),
  ("next_unit_marker", textField fun t p => { p with nextUnit := t }),
  ("target_prefix", textField fun t p => { p with target := t }),
  ("units", fun key v p => do
    let (routes, known) ← Toml.structures Route.tomlShape Route.empty key (← v.tables?)
    return ({ p with routes }, known))]

/-- The profile of a TOML text on the ground of another. -/
def Profile.ofToml (start : Profile) (t : Text) : Except Toml.TableError Profile :=
  match Toml.Document.read t with
  | none => .error .malformed
  | some doc =>
    match Toml.fields Profile.tomlShape [] start doc.table with
    | none => .error .malformed
    | some (p, known) =>
      match doc.keys.filter fun key => !known.contains key with
      | [] => .ok p
      | keys => .error (.unknownKeys keys)

end Reroute
