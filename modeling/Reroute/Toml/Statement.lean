import Reroute.Toml.Scalar

/-!
# TOML statements

A TOML text is a list of statements, each on a line of its own: a table header, the header of one
more table of an array, or a key with a value. This module says how statements are written; what
they mean together is said in `Reroute.Toml.Table`.

The readers take characters and return what they have read with the characters after it.

## Main definitions

* `Toml.Key` — keys with their parts
* `Toml.Term` — values as they are written
* `Toml.Statement`, `Toml.Statement.ofText` — the statements of a text
-/

namespace Reroute.Toml

/-- A key by its parts. -/
abbrev Key := List Text

/-- A value as it is written. -/
inductive Term where
  | text (value : Text)
  | scalar (value : Scalar)
  | array (items : List Term)
  | table (entries : List (Key × Term))

/-- A line of a text. -/
inductive Statement where
  /-- The keys that follow belong to a table. -/
  | table (key : Key)
  /-- The keys that follow belong to a new table at the end of an array. -/
  | arrayItem (key : Key)
  | entry (key : Key) (value : Term)

/-! ### White space -/

/-- The characters after blanks. -/
def afterBlanks (cs : List Char) : List Char := cs.dropWhile isBlank

/-- The characters after white space and comments, over any number of lines. `inComment` says
whether a comment is open. -/
def afterSpace : (inComment : Bool) → List Char → List Char
  | _, [] => []
  | inComment, c :: rest =>
    if isBreak c then afterSpace false rest
    else if inComment || isBlank c then afterSpace inComment rest
    else if c = '#' then afterSpace true rest
    else c :: rest

/-- The characters from the next line on, if only a comment follows on this one. -/
def nextLine? (cs : List Char) : Option (List Char) :=
  match afterBlanks cs with
  | [] => some []
  | c :: rest =>
    if isBreak c then some rest
    else if c = '#' then some (rest.dropWhile fun d => !isBreak d)
    else none

/-! ### Keys -/

/-- Whether a character may stand in a part of a key without quotes. -/
def isBare (c : Char) : Bool := c.isAlphanum || c = '_' || c = '-'

/-- A part of a key. A quoted part has one line. -/
def readPart (cs : List Char) : Option (Text × List Char) :=
  match cs with
  | [] => none
  | c :: rest =>
    if c = '"' || c = '\'' then (readLine c rest).map fun (t, after) => (Text.ofChars t, after)
    else if isBare c then some (Text.ofChars (cs.takeWhile isBare), cs.dropWhile isBare)
    else none

/-- A key of at most `count` parts, with dots between them, up to the character that ends it. -/
def readKey (stop : Char) : (count : Nat) → List Char → Option (Key × List Char)
  | 0, _ => none
  | count + 1, cs => do
    let (part, cs) ← readPart (afterBlanks cs)
    match afterBlanks cs with
    | [] => none
    | c :: rest =>
      if c = stop then return ([part], rest)
      else if c = '.' then
        let (more, rest) ← readKey stop count rest
        return (part :: more, rest)
      else none

/-! ### Values -/

mutual

/-- A value that is nested no deeper, and has no more parts, than `count`. -/
def readTerm (count : Nat) (cs : List Char) : Option (Term × List Char) := do
  match count, afterBlanks cs with
  | 0, _ => none
  | _, [] => none
  | count + 1, c :: rest =>
    if c = '[' then
      let (items, rest) ← readItems count rest
      return (.array items, rest)
    else if c = '\x7b' then
      let (entries, rest) ← readEntries count true rest
      return (.table entries, rest)
    else if c = '"' || c = '\'' then
      let (t, rest) ← readString (c :: rest)
      return (.text (Text.ofChars t), rest)
    else if c.isDigit || c ∈ ['+', '-', 'i', 'n'] then
      let (s, rest) ← readNumber (c :: rest)
      return (.scalar s, rest)
    else
      let (s, rest) ← readBoolean (c :: rest)
      return (.scalar s, rest)

/-- The items of an array up to its end. A comma may follow the last one, and they may stand on
several lines. -/
def readItems (count : Nat) (cs : List Char) : Option (List Term × List Char) := do
  match count, afterSpace false cs with
  | 0, _ => none
  | _, [] => none
  | count + 1, c :: rest =>
    if c = ']' then return ([], rest)
    let (item, cs) ← readTerm count (c :: rest)
    match afterSpace false cs with
    | ',' :: rest =>
      let (more, rest) ← readItems count rest
      return (item :: more, rest)
    | ']' :: rest => return ([item], rest)
    | _ => none

/-- The entries of a table on one line up to its end. No comma follows the last one. -/
def readEntries (count : Nat) (isFirst : Bool) (cs : List Char) :
    Option (List (Key × Term) × List Char) := do
  match count, afterBlanks cs with
  | 0, _ => none
  | _, [] => none
  | count + 1, c :: rest =>
    if isFirst && c = '\x7d' then return ([], rest)
    let (key, cs) ← readKey '=' rest.length.succ (c :: rest)
    let (value, cs) ← readTerm count cs
    match afterBlanks cs with
    | ',' :: rest =>
      let (more, rest) ← readEntries count false rest
      return ((key, value) :: more, rest)
    | '\x7d' :: rest => return ([(key, value)], rest)
    | _ => none

end

/-! ### Statements -/

/-- A statement from its first character on, up to the end of its line. -/
def Statement.read (cs : List Char) : Option (Statement × List Char) := do
  match cs with
  | '[' :: '[' :: rest =>
    let (key, rest) ← readKey ']' rest.length rest
    match rest with
    | ']' :: rest => return (.arrayItem key, rest)
    | _ => none
  | '[' :: rest =>
    let (key, rest) ← readKey ']' rest.length rest
    return (.table key, rest)
  | _ =>
    let (key, rest) ← readKey '=' cs.length cs
    let (value, rest) ← readTerm (cs.length + 1) rest
    return (.entry key value, rest)

/-- At most `count` statements. -/
def readStatements : (count : Nat) → List Char → Option (List Statement)
  | 0, cs => if (afterSpace false cs).isEmpty then some [] else none
  | count + 1, cs =>
    match afterSpace false cs with
    | [] => some []
    | c :: rest => do
      let (s, cs) ← Statement.read (c :: rest)
      return s :: (← readStatements count (← nextLine? cs))

/-- Whether all characters may stand in a TOML text. A carriage return has to be followed by a line
feed. -/
def isAllowed : List Rune → Bool
  | [] => true
  | .stray _ :: _ => false
  | .scalar c :: rest =>
    let isControl := (c.toNat < 0x20 && c ≠ '\t' && !isBreak c) || c.toNat = 0x7F
    !isControl && (c ≠ '\r' || rest.head? = some (.scalar '\n')) && isAllowed rest

/-- The text without a byte order mark. -/
def withoutMark (t : Text) : Text :=
  match t with
  | 0xFF :: 0xFE :: rest => rest
  | 0xFE :: 0xFF :: rest => rest
  | 0xEF :: 0xBB :: 0xBF :: rest => rest
  | _ => t

/-- The statements of a text. Every statement takes a character, so that there are no more of them
than characters. -/
def Statement.ofText (t : Text) : Option (List Statement) :=
  let rs := Text.runes (withoutMark t)
  if isAllowed rs then readStatements rs.length (rs.map Rune.char) else none

end Reroute.Toml
