import Reroute.Yaml.Kind
import Reroute.Yaml.Token

/-!
# YAML documents

The first document of a stream as a tree of nodes. Only as much of the stream is read as the
document needs, and the token after it. An alias stands for the node whose anchor it names, the
last one before it; it may stand inside that very node.

## Main definitions

* `Yaml.Node` — scalars, sequences, mappings and aliases with tags and lines
* `Yaml.Document` — a root node with the nodes that aliases stand for
* `Yaml.Document.read` — the first document of a text
-/

namespace Reroute.Yaml

/-- A node of a document. Lines count from one. -/
inductive Node where
  | scalar (line : Nat) (tag text : Text)
  | sequence (line : Nat) (tag : Text) (items : List Node)
  | mapping (line : Nat) (tag : Text) (entries : List (Node × Node))
  /-- An alias by its number among the aliases, its name, and the number of the anchor. -/
  | reference (line number : Nat) (name : Text) (target : Nat)

namespace Node

/-- The line of a node. -/
def line : Node → Nat
  | scalar line _ _ | sequence line _ _ | mapping line _ _ | reference line _ _ _ => line

/-- The node that is left out where one may be left out. -/
def absent (line : Nat) : Node := scalar (line + 1) nullTag []

end Node

/-- A document. -/
structure Document where
  root : Node
  /-- The nodes with anchors, by their numbers. -/
  anchored : List (Nat × Node)
  /-- How many aliases there are. -/
  aliasCount : Nat

/-- The state of reading a document. -/
structure Reader where
  tokens : List Token
  /-- What the handles of tags stand for. -/
  handles : List (Text × Text)
  /-- The numbers of the anchors so far, the last one first. -/
  anchors : List (Text × Nat)
  anchored : List (Nat × Node)
  aliasCount : Nat

/-- A step of reading a document, which may fail. -/
abbrev Reading := StateT Reader Option

namespace Reader

/-- The next token. -/
def peek : Reading Token := do
  match (← get).tokens with
  | [] => failure
  | t :: _ => return t

/-- Passes the next token. -/
def skip : Reading Unit := modify fun r => { r with tokens := r.tokens.drop 1 }

/-- Passes the next token if it is of a kind. -/
def skipIf (kind : TokenKind) : Reading Bool := do
  if (← peek).kind = kind then
    skip
    return true
  else return false

/-- What an alias stands for. -/
def follow (line : Nat) (name : Text) : Reading Node := do
  let r ← get
  match r.anchors.lookup name with
  | none => failure
  | some target =>
    set { r with aliasCount := r.aliasCount + 1 }
    return .reference (line + 1) r.aliasCount name target

/-- The full form of a tag. -/
def fullTag (tag : Tag) : Reading Text := do
  if tag.handle = [] then return tag.suffix
  match (← get).handles.lookup tag.handle with
  | none => failure
  | some lead => if lead ++ tag.suffix = [] then failure else return lead ++ tag.suffix

/-- A tag, if one stands here. -/
def tag? : Reading (Option Text) := do
  match (← peek).kind with
  | .tag tag =>
    skip
    let _ ← peek
    return some (← fullTag tag)
  | _ => return none

/-- An anchor, if one stands here. -/
def anchor? : Reading (Option Text) := do
  match (← peek).kind with
  | .anchor name =>
    skip
    return some name
  | _ => return none

/-- The tag and the anchor of a node, in either order. -/
def properties : Reading (Option Text × Option Text) := do
  match ← anchor? with
  | some name => return (← tag?, some name)
  | none =>
    match ← tag? with
    | some tag => return (some tag, ← anchor?)
    | none => return (none, none)

/-- The tag of a node, in short form: as stated, or else as given. A single mark states nothing. -/
def tagOr (stated : Option Text) (given : Text) : Text :=
  match stated with
  | some tag => if tag = [] || tag = Text.ofString "!" then given else shortTag tag
  | none => given

/-- The tag of a scalar that states none. -/
def scalarTag (text : Text) (isPlain : Bool) : Text :=
  if !isPlain then textTag
  else if text = Text.ofString "<<" then mergeTag
  else tagOf text

/-- Notes an anchor, and gives it a number. -/
def declare (name : Option Text) : Reading (Option Nat) := do
  match name with
  | none => return none
  | some name =>
    let r ← get
    set { r with anchors := (name, r.anchors.length) :: r.anchors }
    return some r.anchors.length

/-- Notes the node of an anchor. -/
def define (number : Option Nat) (node : Node) : Reading Node := do
  match number with
  | none => return node
  | some number =>
    modify fun r => { r with anchored := (number, node) :: r.anchored }
    return node

/-- The kinds of tokens with which a node in a block mapping is left out. -/
def endsInMapping (kind : TokenKind) : Bool := kind = .key || kind = .value || kind = .blockEnd

mutual

/-- A node. `depth` bounds the number of steps; in a block mapping, the entries of a sequence need
not be indented. -/
def node (depth : Nat) (inBlock indentless : Bool) : Reading Node := do
  match depth with
  | 0 => failure
  | depth + 1 =>
    let first ← peek
    match first.kind with
    | .reference name =>
      skip
      follow first.line name
    | _ =>
      let (tag, name) ← properties
      let t ← peek
      let number ← declare name
      let line := first.line + 1
      let sequence (items : List Node) : Reading Node :=
        define number (.sequence line (tagOr tag sequenceTag) items)
      let mapping (entries : List (Node × Node)) : Reading Node :=
        define number (.mapping line (tagOr tag mappingTag) entries)
      match t.kind with
      | .scalar text isPlain =>
        skip
        define number (.scalar line (tagOr tag (scalarTag text isPlain)) text)
      | .flowSequence =>
        skip
        sequence (← flowItems depth true)
      | .flowMapping =>
        skip
        mapping (← flowEntries depth true)
      | .blockEntry =>
        if indentless then sequence (← openItems depth)
        else if tag.isSome || name.isSome then define number (.scalar line (tagOr tag nullTag) [])
        else failure
      | .blockSequence =>
        if inBlock then
          skip
          sequence (← blockItems depth)
        else if tag.isSome || name.isSome then define number (.scalar line (tagOr tag nullTag) [])
        else failure
      | .blockMapping =>
        if inBlock then
          skip
          mapping (← blockEntries depth)
        else if tag.isSome || name.isSome then define number (.scalar line (tagOr tag nullTag) [])
        else failure
      | _ =>
        if tag.isSome || name.isSome then define number (.scalar line (tagOr tag nullTag) [])
        else failure

/-- The items of a block sequence. -/
def blockItems (depth : Nat) : Reading (List Node) := do
  match depth with
  | 0 => failure
  | depth + 1 =>
    let t ← peek
    match t.kind with
    | .blockEntry =>
      skip
      let next := (← peek).kind
      let item ←
        if next = .blockEntry || next = .blockEnd then pure (Node.absent t.line)
        else node depth true false
      return item :: (← blockItems depth)
    | .blockEnd =>
      skip
      return []
    | _ => failure

/-- The items of a sequence whose entries are not indented. -/
def openItems (depth : Nat) : Reading (List Node) := do
  match depth with
  | 0 => failure
  | depth + 1 =>
    let t ← peek
    match t.kind with
    | .blockEntry =>
      skip
      let next := (← peek).kind
      let item ←
        if next = .blockEntry || endsInMapping next then pure (Node.absent t.line)
        else node depth true false
      return item :: (← openItems depth)
    | _ => return []

/-- The entries of a block mapping. -/
def blockEntries (depth : Nat) : Reading (List (Node × Node)) := do
  match depth with
  | 0 => failure
  | depth + 1 =>
    let t ← peek
    match t.kind with
    | .key =>
      skip
      let key ←
        if endsInMapping (← peek).kind then pure (Node.absent t.line) else node depth true true
      let v ← peek
      let value ←
        if v.kind = .value then
          skip
          if endsInMapping (← peek).kind then pure (Node.absent v.line) else node depth true true
        else pure (Node.absent v.line)
      return (key, value) :: (← blockEntries depth)
    | .blockEnd =>
      skip
      return []
    | _ => failure

/-- The items of a flow sequence. Between two of them stands a comma. -/
def flowItems (depth : Nat) (isFirst : Bool) : Reading (List Node) := do
  match depth with
  | 0 => failure
  | depth + 1 =>
    if ← skipIf .flowSequenceEnd then return []
    if !isFirst then
      if !(← skipIf .flowEntry) then failure
      if ← skipIf .flowSequenceEnd then return []
    let t ← peek
    if t.kind = .key then
      skip
      let entry ← flowPair depth
      return .mapping (t.line + 1) mappingTag [entry] :: (← flowItems depth false)
    else
      let item ← node depth false false
      return item :: (← flowItems depth false)

/-- A key and a value as an item of a flow sequence. If the key is left out, the token after it is
passed over. -/
def flowPair (depth : Nat) : Reading (Node × Node) := do
  match depth with
  | 0 => failure
  | depth + 1 =>
    let t ← peek
    let key ←
      if t.kind = .value || t.kind = .flowEntry || t.kind = .flowSequenceEnd then
        skip
        pure (Node.absent t.line)
      else node depth false false
    let v ← peek
    if v.kind = .value then skip
    let next ← peek
    if v.kind = .value && next.kind ≠ .flowEntry && next.kind ≠ .flowSequenceEnd then
      return (key, ← node depth false false)
    else return (key, Node.absent next.line)

/-- The entries of a flow mapping. Between two of them stands a comma. -/
def flowEntries (depth : Nat) (isFirst : Bool) : Reading (List (Node × Node)) := do
  match depth with
  | 0 => failure
  | depth + 1 =>
    if ← skipIf .flowMappingEnd then return []
    if !isFirst then
      if !(← skipIf .flowEntry) then failure
      if ← skipIf .flowMappingEnd then return []
    let hasKey ← skipIf .key
    let t ← peek
    let key ←
      if hasKey && (t.kind = .value || t.kind = .flowEntry || t.kind = .flowMappingEnd) then
        pure (Node.absent t.line)
      else node depth false false
    let v ← peek
    if hasKey && v.kind = .value then skip
    let next ← peek
    let value ←
      if hasKey && v.kind = .value && next.kind ≠ .flowEntry && next.kind ≠ .flowMappingEnd then
        node depth false false
      else pure (Node.absent next.line)
    return (key, value) :: (← flowEntries depth false)

end

/-! ### Documents -/

/-- The handles that need no directive. -/
def usualHandles : List (Text × Text) := [("!", "!"), ("!!", commonLead)]

/-- The directives before a document. There is at most one version, and no handle occurs twice. -/
def directives (count : Nat) (version : Bool) (handles : List (Text × Text)) :
    Reading (List (Text × Text)) := do
  match count with
  | 0 => failure
  | count + 1 =>
    match (← peek).kind with
    | .directive (.version major minor) =>
      if version || major ≠ 1 || minor ≠ 1 then failure
      skip
      directives count true handles
    | .directive (.handle name lead) =>
      if (handles.lookup name).isSome then failure
      skip
      directives count version (handles ++ [(name, lead)])
    | _ => return handles

/-- Whether a document has no content if this token follows its start. -/
def endsDocument (kind : TokenKind) : Bool :=
  match kind with
  | .directive _ | .documentStart | .documentEnd | .streamEnd => true
  | _ => false

/-- The root of a document, none if the stream has no document. -/
def root? (depth : Nat) : Reading (Option Node) := do
  skip
  match (← peek).kind with
  | .streamEnd => return none
  | .directive _ | .documentStart =>
    let handles ← directives depth false []
    modify fun r => { r with handles := handles ++ usualHandles }
    if !(← skipIf .documentStart) then failure
    let t ← peek
    let root ← if endsDocument t.kind then pure (Node.absent t.line) else node depth true false
    let _ ← peek
    return some root
  | _ =>
    let root ← node depth true false
    let _ ← peek
    return some root

end Reader

/-- The first document of a text: an error, no document at all, or a document. Every step of reading
passes a token or goes down one level, so that three steps for each token are enough. -/
def Document.read (t : Text) : Option (Option Document) :=
  let tokens := Token.ofStream (Stream.ofText t)
  match (Reader.root? (3 * tokens.length + 3)).run ⟨tokens, Reader.usualHandles, [], [], 0⟩ with
  | none => none
  | some (none, _) => some none
  | some (some root, r) => some (some ⟨root, r.anchored, r.aliasCount⟩)

end Reroute.Yaml
