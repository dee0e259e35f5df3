import Reroute.Toml.Statement

/-!
# TOML tables

What the statements of a TOML text mean together: a table of values, and the list of all keys that
are written out, in their order.

A key with several parts opens the tables on its way. Such a table is only implied, and a header may
still state it. Apart from that no key is defined twice, except that an array makes way for what is
written under its key later. A header for an array adds one more table to it; keys and headers
below it belong to its last table. A table written on one line counts as implied while it is read,
so that it is stated by its own key afterwards. The tables of an array that is written as a value
keep only the last parts of their keys.

## Main definitions

* `Toml.Value`, `Toml.Table` — values, and tables of them
* `Toml.State` — the table so far, with what is needed to judge the next statement
* `Toml.Document`, `Toml.Document.read` — the table of a text with its keys
-/

namespace Reroute.Toml

/-- A value of a table. -/
inductive Value where
  | text (value : Text)
  | scalar (value : Scalar)
  | array (items : List Value)
  | table (entries : List (Text × Value))
  /-- An array whose tables have headers. -/
  | tables (items : List (List (Text × Value)))

/-- Values by name. -/
abbrev Table := List (Text × Value)

namespace Table

/-- The value of a name. -/
def find? (t : Table) (name : Text) : Option Value := t.lookup name

/-- The table with a value for a name. -/
def set (t : Table) (name : Text) (value : Value) : Table :=
  if (t.find? name).isSome then
    t.map fun (other, old) => if other = name then (other, value) else (other, old)
  else t ++ [(name, value)]

/-- The table at a key: at every part stands a table, or an array whose last table is meant. -/
def at? (t : Table) : Key → Option Table
  | [] => some t
  | part :: rest =>
    match t.find? part with
    | some (.table inner) => at? inner rest
    | some (.tables items) =>
      match items.getLast? with
      | none => none
      | some last => at? last rest
    | _ => none

/-- The table with the table at a key changed. -/
def modify? (t : Table) (key : Key) (f : Table → Option Table) : Option Table :=
  match key with
  | [] => f t
  | part :: rest =>
    match t.find? part with
    | some (.table inner) => (modify? inner rest f).map fun inner => t.set part (.table inner)
    | some (.tables items) =>
      match items.getLast? with
      | none => none
      | some last =>
        (modify? last rest f).map fun last => t.set part (.tables (items.dropLast ++ [last]))
    | _ => none

end Table

/-- What is known when the next statement is read. -/
structure State where
  root : Table
  /-- The key of the table that keys belong to. -/
  context : Key
  /-- The part of a key whose value is being read. -/
  current : Text
  /-- The keys that are only implied. -/
  implied : List Key
  /-- For keys with a known kind, the last one first, whether it is an array that is written out. -/
  arrays : List (Key × Bool)
  /-- The keys that are written out, the last one first. -/
  written : List Key

/-- A step of reading statements, which may fail. -/
abbrev Reading := StateT State Option

namespace State

/-- Marks a key as implied. -/
def imply (key : Key) : Reading Unit := modify fun s => { s with implied := key :: s.implied }

/-- Notes whether a value is an array that is written out. An empty name stands for the table
itself. -/
def noteKind (name : Text) (isArray : Bool) : Reading Unit := modify fun s =>
  let key := if name = [] then s.context else s.context ++ [name]
  { s with arrays := (if key = [] then [[]] else key, isArray) :: s.arrays }

/-- Notes a key that is written out. -/
def noteKey (key : Key) : Reading Unit := modify fun s => { s with written := key :: s.written }

/-- Puts a value under a name of the current table. An array makes way, and an implied table stays
and is stated now. -/
def define (name : Text) (value : Value) : Reading Unit := do
  let s ← get
  let key := s.context ++ [name]
  match s.root.at? s.context with
  | none => failure
  | some t =>
    let stated := s.implied.filter (· ≠ key)
    if (t.find? name).isNone then
      match s.root.modify? s.context fun t => some (t.set name value) with
      | none => failure
      | some root => set { s with root }
    else if s.arrays.lookup key = some true then
      match s.root.modify? s.context fun t => some (t.set name value) with
      | none => failure
      | some root => set { s with root, implied := stated }
    else if key ∈ s.implied then set { s with implied := stated }
    else failure

/-- Opens the tables at all but the last part of a key, as far as they are missing. -/
def openParents : (done : Key) → Key → Reading Unit
  | _, [] => return
  | done, part :: rest => do
    let s ← get
    match s.root.at? done with
    | none => failure
    | some t =>
      if (t.find? part).isNone then
        match s.root.modify? done fun t => some (t.set part (.table [])) with
        | none => failure
        | some root => set { s with root, implied := (done ++ [part]) :: s.implied }
      match (← get).root.at? (done ++ [part]) with
      | none => failure
      | some _ => openParents (done ++ [part]) rest

/-- One more table at the end of an array. -/
def addItem (t : Table) (name : Text) : Option Table :=
  match t.find? name with
  | none => some (t.set name (.tables [[]]))
  | some (.tables items) => some (t.set name (.tables (items ++ [[]])))
  | some _ => none

/-- Makes the table at a key the current one: a table, or a new one at the end of an array. -/
def enter (key : Key) (isItem : Bool) : Reading Unit := do
  let parents := key.dropLast
  let name := key.getLastD []
  openParents [] parents
  modify fun s => { s with context := parents }
  if isItem then
    let s ← get
    match s.root.modify? parents fun t => addItem t name with
    | none => failure
    | some root => set { s with root }
  else define name (.table [])
  modify fun s => { s with context := key }

/-- Enters the tables at the parts of a key before the last one, and notes the key. -/
def enterKey : Key → Reading Unit
  | [] => failure
  | [name] => do
    modify fun s => { s with current := name }
    noteKey ((← get).context ++ [name])
  | part :: rest => do
    let key := (← get).context ++ [part]
    imply key
    enter key false
    enterKey rest

mutual

/-- The meaning of a value as it is written. `inArray` says whether it is an item of an array. -/
def value (inArray : Bool) : Term → Reading Value
  | .text t => return .text t
  | .scalar s => return .scalar s
  | .array items => do
    noteKind (← get).current true
    return .array (← values items)
  | .table es => do
    let outer ← get
    let key := outer.context ++ [outer.current]
    imply key
    enter key inArray
    let t ← entries key [] es
    modify fun s => { s with context := outer.context, current := outer.current }
    return .table t

/-- The meaning of the items of an array. -/
def values : List Term → Reading (List Value)
  | [] => return []
  | item :: rest => do
    let v ← value true item
    return v :: (← values rest)

/-- The entries of a table that is written as a value, as a table of the last parts of their keys.
-/
def entries (context : Key) (table : Table) : List (Key × Term) → Reading Table
  | [] => return table
  | (key, term) :: rest => do
    modify fun s => { s with context }
    enterKey key
    let name := (← get).current
    let v ← value false term
    define name v
    noteKind name (isArray term)
    entries context (table.set name v) rest

/-- Whether a value is written as an array. -/
def isArray : Term → Bool
  | .array _ => true
  | _ => false

end

/-- The meaning of a statement. -/
def statement : Statement → Reading Unit
  | .table key => do
    enter key false
    noteKind [] false
    noteKey key
  | .arrayItem key => do
    enter key true
    noteKind [] false
    noteKey key
  | .entry key term => do
    let outer := (← get).context
    enterKey key
    let name := (← get).current
    let v ← value false term
    define name v
    noteKind name (isArray term)
    modify fun s => { s with context := outer, current := [] }

end State

/-- The table of a text, with the keys that are written out in their order. -/
structure Document where
  table : Table
  keys : List Key

/-- The document of a text. -/
def Document.read (t : Text) : Option Document := do
  let statements ← Statement.ofText t
  let ((), s) ← (statements.forM State.statement).run ⟨[], [], [], [], [], []⟩
  return ⟨s.root, s.written.reverse⟩

/-! ### Keys as text -/

/-- A character of a quoted part of a key. -/
def quoteByte (b : UInt8) : Text :=
  if b = Text.byte '"' then "\\\""
  else if b = Text.byte '\\' then "\\\\"
  else if b = 8 then "\\b"
  else if b = 9 then "\\t"
  else if b = 10 then "\\n"
  else if b = 12 then "\\f"
  else if b = 13 then "\\r"
  else if b < 32 || b = 127 then "\\u" ++ Text.hex 4 b.toNat
  else [b]

/-- Whether a byte may stand in a part of a key without quotes. -/
def isBareByte (b : UInt8) : Bool := b < 128 && isBare (Char.ofNat b.toNat)

/-- A part of a key, in quotes if it needs them. -/
def quotePart (part : Text) : Text :=
  if part ≠ [] && part.all isBareByte then part else "\"" ++ part.flatMap quoteByte ++ "\""

/-- A key as it is written. -/
def Key.render (key : Key) : Text := Text.join "." (key.map quotePart)

end Reroute.Toml
