import Reroute.Text.Binary

/-!
# MessagePack

Values in the MessagePack format. Reading accepts every form of the format; writing uses the few
forms that snapshots need.

## Main definitions

* `MessagePack.Value` — the values of the format
* `MessagePack.Value.read?` — the value at the front of a text
* `MessagePack.writeText`, `MessagePack.writeBytes`, `MessagePack.writeWord` — written values
-/

namespace Reroute.MessagePack

/-- The values of the format. -/
inductive Value where
  | nil
  | bool (value : Bool)
  | int (value : Int)
  /-- A floating point number by its bytes. -/
  | float (bytes : Text)
  | text (value : Text)
  | bytes (value : Text)
  /-- A value of an application's own kind. -/
  | ext (kind : UInt8) (data : Text)
  | array (items : List Value)
  | map (entries : List (Value × Value))

/-- Values one after the other. -/
def readMany {α : Type} (read : Text → Option (α × Text)) : Nat → Text → Option (List α × Text)
  | 0, t => some ([], t)
  | n + 1, t => do
    let (a, t) ← read t
    let (as, t) ← readMany read n t
    return (a :: as, t)

/-- Two values one after the other. -/
def readPair {α : Type} (read : Text → Option (α × Text)) (t : Text) : Option ((α × α) × Text) := do
  let (key, t) ← read t
  let (value, t) ← read t
  return ((key, value), t)

/-- A number of some bytes, the highest first. -/
def readNat (width : Nat) (t : Text) : Option (Nat × Text) := do
  let (bytes, t) ← Text.block? width t
  return (Text.ofBigEndian bytes, t)

/-- A number in two's complement. -/
def readInt (width : Nat) (t : Text) : Option (Int × Text) := do
  let (n, t) ← readNat width t
  return (Int.bmod n (Nat.pow 256 width), t)

/-- A block after a length of some bytes. -/
def readBlock (width : Nat) (t : Text) : Option (Text × Text) := do
  let (size, t) ← readNat width t
  Text.block? size t

/-- The kind and the data of a value of an application's own kind. -/
def readExt (size : Nat) (t : Text) : Option (Value × Text) := do
  let (kind, t) ← Text.block? 1 t
  let (data, t) ← Text.block? size t
  return (.ext (kind.headD 0) data, t)

/-- The rest of a value after its first byte. The contents of arrays and maps are read by `read`. -/
def readRest (read : Text → Option (Value × Text)) (code : UInt8) (t : Text) :
    Option (Value × Text) :=
  let array (size : Nat) (t : Text) := do
    let (items, t) ← readMany read size t
    return (Value.array items, t)
  let map (size : Nat) (t : Text) := do
    let (entries, t) ← readMany (readPair read) size t
    return (Value.map entries, t)
  let c := code.toNat
  if c < 0x80 then some (.int c, t)
  else if c < 0x90 then map (c - 0x80) t
  else if c < 0xa0 then array (c - 0x90) t
  else if c < 0xc0 then (Text.block? (c - 0xa0) t).map fun (s, t) => (.text s, t)
  else if 0xe0 ≤ c then some (.int (c - 256), t)
  else
    match c with
    | 0xc0 => some (.nil, t)
    | 0xc2 => some (.bool false, t)
    | 0xc3 => some (.bool true, t)
    | 0xc4 => (readBlock 1 t).map fun (s, t) => (.bytes s, t)
    | 0xc5 => (readBlock 2 t).map fun (s, t) => (.bytes s, t)
    | 0xc6 => (readBlock 4 t).map fun (s, t) => (.bytes s, t)
    | 0xc7 => (readNat 1 t).bind fun (size, t) => readExt size t
    | 0xc8 => (readNat 2 t).bind fun (size, t) => readExt size t
    | 0xc9 => (readNat 4 t).bind fun (size, t) => readExt size t
    | 0xca => (Text.block? 4 t).map fun (s, t) => (.float s, t)
    | 0xcb => (Text.block? 8 t).map fun (s, t) => (.float s, t)
    | 0xcc => (readNat 1 t).map fun (n, t) => (.int n, t)
    | 0xcd => (readNat 2 t).map fun (n, t) => (.int n, t)
    | 0xce => (readNat 4 t).map fun (n, t) => (.int n, t)
    | 0xcf => (readNat 8 t).map fun (n, t) => (.int n, t)
    | 0xd0 => (readInt 1 t).map fun (n, t) => (.int n, t)
    | 0xd1 => (readInt 2 t).map fun (n, t) => (.int n, t)
    | 0xd2 => (readInt 4 t).map fun (n, t) => (.int n, t)
    | 0xd3 => (readInt 8 t).map fun (n, t) => (.int n, t)
    | 0xd4 => readExt 1 t
    | 0xd5 => readExt 2 t
    | 0xd6 => readExt 4 t
    | 0xd7 => readExt 8 t
    | 0xd8 => readExt 16 t
    | 0xd9 => (readBlock 1 t).map fun (s, t) => (.text s, t)
    | 0xda => (readBlock 2 t).map fun (s, t) => (.text s, t)
    | 0xdb => (readBlock 4 t).map fun (s, t) => (.text s, t)
    | 0xdc => (readNat 2 t).bind fun (size, t) => array size t
    | 0xdd => (readNat 4 t).bind fun (size, t) => array size t
    | 0xde => (readNat 2 t).bind fun (size, t) => map size t
    | 0xdf => (readNat 4 t).bind fun (size, t) => map size t
    | _ => none

/-- The value at the front of a text, nested no deeper than `depth`. -/
def readWithin : (depth : Nat) → Text → Option (Value × Text)
  | _, [] => none
  | 0, _ => none
  | depth + 1, code :: t => readRest (readWithin depth) code t

/-- The value at the front of a text, and what follows. Every level of nesting takes a byte, so that
no value is nested deeper than the text is long. -/
def Value.read? (t : Text) : Option (Value × Text) := readWithin t.length t

/-! ### Writing -/

/-- A written text, shorter than 2^32 bytes. -/
def writeText (t : Text) : Text := 0xdb :: (Text.bigEndian 4 t.length ++ t)

/-- Written bytes, fewer than 2^32. -/
def writeBytes (t : Text) : Text := 0xc6 :: (Text.bigEndian 4 t.length ++ t)

/-- A written word of 64 bits. -/
def writeWord (w : UInt64) : Text := 0xcf :: Text.bigEndian 8 w.toNat

/-- A written name, shorter than 32 bytes. -/
def writeName (t : Text) : Text := (0xa0 + t.length).toUInt8 :: t

/-- A written map of fewer than sixteen entries, whose names and values are written already. -/
def writeMap (entries : List (Text × Text)) : Text :=
  (0x80 + entries.length).toUInt8 :: entries.flatMap fun (name, value) => writeName name ++ value

end Reroute.MessagePack
