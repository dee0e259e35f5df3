import Reroute.Profile.Basic
import Reroute.Text.Base64
import Reroute.Yaml.Node

/-!
# Profiles in YAML

A profile from the first document of a YAML text. Fields that are not given keep their values, and
so do fields that are null; any scalar goes into a text as it is written. Everything that does not
fit is collected, in the order of the document: unknown fields, values of the wrong kind, keys that
occur twice. A mapping with a key that occurs twice is not looked at any further.

The entry `<<` of a mapping merges other mappings into it: their fields count where the mapping does
not have them, an earlier mapping before a later one.

## Main definitions

* `Yaml.Misfit` — what does not fit
* `Yaml.Decoding` — a result with all that does not fit
* `Yaml.Decoder.fields` — the fields of a mapping
* `Profile.ofYaml` — the profile of a text
-/

namespace Reroute.Yaml

/-- Something in a document that does not fit what is expected there. -/
inductive Misfit where
  | unknownField (line : Nat) (name type : Text)
  | fieldTwice (line : Nat) (name type : Text)
  | keyTwice (line : Nat) (key : Text) (earlier : Nat)
  | wrongKind (line : Nat) (tag shown type : Text)
deriving DecidableEq, Repr

/-- The message of a misfit. -/
def Misfit.message : Misfit → Text
  | unknownField line name type =>
    "line " ++ Text.ofNat line ++ ": field " ++ name ++ " not found in type " ++ type
  | fieldTwice line name type =>
    "line " ++ Text.ofNat line ++ ": field " ++ name ++ " already set in type " ++ type
  | keyTwice line key earlier =>
    "line " ++ Text.ofNat line ++ ": mapping key " ++ key.quote ++ " already defined at line " ++
      Text.ofNat earlier
  | wrongKind line tag shown type =>
    "line " ++ Text.ofNat line ++ ": cannot unmarshal " ++ tag ++ shown ++ " into " ++ type

/-- A result with all that did not fit on the way. It is `none` if the document makes no sense. -/
abbrev Decoding := StateT (List Misfit) Option

namespace Decoder

/-- Notes a misfit. -/
def note (m : Misfit) : Decoding Unit := modify (· ++ [m])

/-- How the text of a node is shown after its tag: between backquotes, and long ones are cut. The
tags of sequences and mappings have nothing between them and the text. -/
def shown (tag text : Text) : Text :=
  if tag = sequenceTag || tag = mappingTag then text
  else
    " \x60" ++ (if 10 < text.length then text.take 7 ++ Text.ofString "..." else text) ++ "\x60"

/-- A scalar that is neither null nor contradicts its tag, as a text. -/
def scalarText (tag text : Text) : Decoding (Option Text) := do
  if !isSound tag text then failure
  else if tag = nullTag then return none
  else if tag = binaryTag then
    match Base64.decode? text with
    | none => failure
    | some bytes => return some bytes
  else return some text

/-- Notes a scalar of the wrong kind. Null fits everything. -/
def wrongScalar (line : Nat) (tag text type : Text) : Decoding Bool := do
  match ← scalarText tag text with
  | none => return true
  | some _ =>
    note (.wrongKind line tag (shown tag text) type)
    return false

/-- Notes a sequence or a mapping of the wrong kind. -/
def wrongCollection (line : Nat) (tag type : Text) : Decoding Unit :=
  note (.wrongKind line tag (shown tag []) type)

/-- What makes two keys the same: the kind of node and its text. -/
def identity : Node → Nat × Text
  | .scalar _ _ text => (0, text)
  | .sequence _ _ _ => (1, [])
  | .mapping _ _ _ => (2, [])
  | .reference _ _ name _ => (3, name)

/-- The keys that occur twice, for every pair. -/
def repeated : List Node → List Misfit
  | [] => []
  | key :: rest =>
    (rest.filter fun other => identity other = identity key).map (fun other =>
      .keyTwice other.line (identity key).2 key.line) ++ repeated rest

/-- Notes the keys of a mapping that occur twice, and says whether there are none. -/
def hasDistinctKeys (entries : List (Node × Node)) : Decoding Bool := do
  let twice := repeated (entries.map Prod.fst)
  twice.forM note
  return twice.isEmpty

/-- The node that an alias stands for, with the aliases on the way. An alias inside the node that it
stands for makes no sense. -/
def target (doc : Document) (seen : List Nat) (number anchor : Nat) :
    Decoding (Node × List Nat) := do
  if number ∈ seen then failure
  match doc.anchored.lookup anchor with
  | none => failure
  | some node => return (node, number :: seen)

/-- A node that is no alias, with the aliases on the way to it. -/
def resolve (doc : Document) : (depth : Nat) → List Nat → Node → Decoding (Node × List Nat)
  | 0, _, _ => failure
  | depth + 1, seen, .reference _ number _ anchor => do
    let (node, seen) ← target doc seen number anchor
    resolve doc depth seen node
  | _, seen, node => return (node, seen)

/-- How deep nodes are looked into: every alias leads to another node at most once. -/
def depthOf (doc : Document) : Nat := doc.aliasCount + 2

/-- A node as a text, unless it is null or does not fit. -/
def text? (doc : Document) (seen : List Nat) (node : Node) : Decoding (Option Text) := do
  match (← resolve doc (depthOf doc) seen node).1 with
  | .scalar _ tag text => scalarText tag text
  | .sequence line tag _ =>
    wrongCollection line tag "string"
    return none
  | .mapping line tag entries =>
    if ← hasDistinctKeys entries then wrongCollection line tag "string"
    return none
  | .reference _ _ _ _ => failure

/-- A field of a structure: how a node is put into it. -/
abbrev Field (σ : Type) := List Nat → Node → σ → Decoding σ

/-- A kind of structure: its name and its fields. -/
structure Shape (σ : Type) where
  type : Text
  field? : Text → Option (Field σ)

variable {σ : Type}

/-- Whether a key asks for a merge. -/
def isMerge : Node → Bool
  | .scalar _ tag text => text = Text.ofString "<<" && tag = mergeTag
  | _ => false

/-- The state of filling a structure. -/
structure Filling (σ : Type) where
  value : σ
  /-- The names that count no more in a merge, if this is one. -/
  taken : Option (List Text)
  /-- The fields that this mapping has set. -/
  done : List Text

/-- One entry of a mapping. -/
def entry (doc : Document) (shape : Shape σ) (seen : List Nat) (f : Filling σ) (key value : Node) :
    Decoding (Filling σ) := do
  match ← text? doc seen key with
  | none => return f
  | some name =>
    if (f.taken.getD []).contains name then return f
    let f := { f with taken := f.taken.map (name :: ·) }
    match shape.field? name with
    | none =>
      note (.unknownField key.line name shape.type)
      return f
    | some field =>
      if f.done.contains name then
        note (.fieldTwice key.line name shape.type)
        return f
      else return { f with value := ← field seen value f.value, done := name :: f.done }

/-- The entries of a mapping, without merges. -/
def entries (doc : Document) (shape : Shape σ) (seen : List Nat) :
    Filling σ → List (Node × Node) → Decoding (Filling σ)
  | f, [] => return f
  | f, (key, value) :: rest => do
    if isMerge key then entries doc shape seen f rest
    else entries doc shape seen (← entry doc shape seen f key value) rest

/-- The names that the keys of a mapping take from what is merged into it. -/
def names (doc : Document) (seen : List Nat) : List (Node × Node) → Decoding (List Text)
  | [] => return []
  | (key, _) :: rest => do
    let more ← names doc seen rest
    match ← resolve doc (depthOf doc) seen key with
    | (.scalar _ tag text, _) =>
      if tag ∈ telling then return more
      else return (← scalarText tag text).toList ++ more
    | _ => return more

mutual

/-- A mapping into a structure: first its own entries, then what is merged into it. -/
def mapping (doc : Document) (shape : Shape σ) (depth : Nat) (seen : List Nat)
    (taken : Option (List Text)) (value : σ) (es : List (Node × Node)) :
    Decoding (σ × Option (List Text)) := do
  match depth with
  | 0 => failure
  | depth + 1 =>
    let f ← entries doc shape seen ⟨value, taken, []⟩ es
    match es.reverse.find? fun (key, _) => isMerge key with
    | none => return (f.value, f.taken)
    | some (_, source) =>
      let own ← match f.taken with
        | some names => pure names
        | none => names doc seen es
      let sources := match source with
        | .sequence _ _ items => items
        | node => [node]
      let (value, own) ← merge doc shape depth seen own f.value sources
      return (value, f.taken.map fun _ => own)

/-- Mappings that are merged into a structure, one after the other. -/
def merge (doc : Document) (shape : Shape σ) (depth : Nat) (seen : List Nat) (taken : List Text)
    (value : σ) (sources : List Node) : Decoding (σ × List Text) := do
  match depth, sources with
  | 0, _ => failure
  | _, [] => return (value, taken)
  | depth + 1, source :: rest =>
    let (node, inner) ← match source with
      | .reference _ number _ anchor => target doc seen number anchor
      | node => pure (node, seen)
    match node with
    | .mapping _ _ es =>
      if ← hasDistinctKeys es then
        let (value, now) ← mapping doc shape depth inner (some taken) value es
        merge doc shape depth seen (now.getD taken) value rest
      else merge doc shape depth seen taken value rest
    | _ => failure

end

mutual

/-- The number of nodes in a tree. -/
def size : Node → Nat
  | .scalar _ _ _ | .reference _ _ _ _ => 1
  | .sequence _ _ items => 1 + sizeOfItems items
  | .mapping _ _ es => 1 + sizeOfEntries es

/-- The number of nodes in trees. -/
def sizeOfItems : List Node → Nat
  | [] => 0
  | node :: rest => size node + sizeOfItems rest

/-- The number of nodes in the keys and values of entries. -/
def sizeOfEntries : List (Node × Node) → Nat
  | [] => 0
  | (key, value) :: rest => size key + size value + sizeOfEntries rest

end

/-- How many merges may follow from one mapping: each leads into a node, or through an alias that is
not used yet. -/
def mergeDepth (doc : Document) : Nat := 2 * (size doc.root + 2) * (doc.aliasCount + 2)

/-- A node into a structure, and whether it fits. Null leaves the structure as it is. -/
def fields (doc : Document) (shape : Shape σ) (seen : List Nat) (node : Node) (value : σ) :
    Decoding (σ × Bool) := do
  let (node, seen) ← resolve doc (depthOf doc) seen node
  match node with
  | .scalar line tag text =>
    let _ ← wrongScalar line tag text shape.type
    return (value, false)
  | .sequence line tag _ =>
    wrongCollection line tag shape.type
    return (value, false)
  | .mapping _ _ es =>
    if ← hasDistinctKeys es then
      return ((← mapping doc shape (mergeDepth doc) seen none value es).1, true)
    else return (value, false)
  | .reference _ _ _ _ => failure

/-- The items of a sequence that fit. -/
def items (doc : Document) (shape : Shape σ) (blank : σ) (seen : List Nat) :
    List Node → Decoding (List σ)
  | [] => return []
  | node :: rest => do
    let (item, fits) ← fields doc shape seen node blank
    let more ← items doc shape blank seen rest
    return if fits then item :: more else more

/-- A node as a list of structures, none if it does not fit. Null is the empty list. -/
def list? (doc : Document) (shape : Shape σ) (blank : σ) (seen : List Nat) (node : Node) :
    Decoding (Option (List σ)) := do
  let type := "[]" ++ shape.type
  let (node, seen) ← resolve doc (depthOf doc) seen node
  match node with
  | .scalar line tag text => return if ← wrongScalar line tag text type then some [] else none
  | .sequence _ _ nodes => return some (← items doc shape blank seen nodes)
  | .mapping line tag es =>
    if ← hasDistinctKeys es then wrongCollection line tag type
    return none
  | .reference _ _ _ _ => failure

/-- A field that holds a text. -/
def textField (doc : Document) (set : Text → σ → σ) : Field σ := fun seen node value => do
  match ← text? doc seen node with
  | some t => return set t value
  | none => return value

end Decoder

end Reroute.Yaml

namespace Reroute

open Yaml Yaml.Decoder

/-- The fields of routes. -/
def Route.yamlShape (doc : Document) : Shape Route where
  type := "splice.UnitEntry"
  field? name :=
    if name = Text.ofString "name" then some (textField doc fun t r => { r with name := t })
    else if name = Text.ofString "category" then
      some (textField doc fun t r => { r with category := t })
    else if name = Text.ofString "path" then some (textField doc fun t r => { r with path := t })
    else if name = Text.ofString "summary" then
      some (textField doc fun t r => { r with summary := t })
    else none

/-- The fields of helpers. -/
def Helper.yamlShape (doc : Document) : Shape Helper where
  type := "splice.Helper"
  field? name :=
    if name = Text.ofString "name" then some (textField doc fun t h => { h with name := t })
    else if name = Text.ofString "ident" then some (textField doc fun t h => { h with ident := t })
    else if name = Text.ofString "definition" then
      some (textField doc fun t h => { h with definition := t })
    else none

/-- The fields of profiles. -/
def Profile.yamlShape (doc : Document) : Shape Profile where
  type := "splice.Profile"
  field? name :=
    if name = Text.ofString "anchor" then some (textField doc fun t p => { p with anchor := t })
    else if name = Text.ofString "helper" then
      some fun seen node p => do
        return { p with helper := (← fields doc (Helper.yamlShape doc) seen node p.helper).1 }
    else if name = Text.ofString "decl_prefix" then
      some (textField doc fun t p => { p with declaration := t })
    else if name = Text.ofString "next_unit_marker" then
      some (textField doc fun t p => { p with nextUnit := t })
    else if name = Text.ofString "target_prefix" then
      some (textField doc fun t p => { p with target := t })
    else if name = Text.ofString "units" then
      some fun seen node p => do
        match ← list? doc (Route.yamlShape doc) Route.empty seen node with
        | some routes => return { p with routes }
        | none => return p
    else none

/-- The profile of a YAML text on the ground of another, or all that does not fit: nothing in
particular if the text is no YAML. -/
def Profile.ofYaml (start : Profile) (t : Text) : Except (List Misfit) Profile :=
  match Document.read t with
  | none => .error []
  | some none => .ok start
  | some (some doc) =>
    match (fields doc (Profile.yamlShape doc) [] doc.root start).run [] with
    | none => .error []
    | some ((p, _), []) => .ok p
    | some (_, misfits) => .error misfits

end Reroute
