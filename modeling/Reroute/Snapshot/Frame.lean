import Reroute.Fingerprint.XxHash
import Reroute.Text.Binary

/-!
# Zstandard frames

Texts in frames of the Zstandard format. A frame holds its text in blocks, here of two kinds: as it
is, or one byte with the number of its repetitions. A text may be spread over frames one after the
other, with frames to be skipped between them. Writing makes one frame of plain blocks and states
the length of the text.

Blocks that hold compressed text are refused.

## Main definitions

* `Frame.decode?` — the text of frames
* `Frame.encode` — a text as a frame
-/

namespace Reroute.Frame

/-- The four bytes at the start of a frame. -/
def magic : Text := [0x28, 0xb5, 0x2f, 0xfd]

/-- The largest block. -/
def blockLimit : Nat := 131072

/-- The smallest window. -/
def windowLimit : Nat := 1024

/-- What a frame says about itself before its first block. -/
structure Header where
  /-- How far back a block may refer, which also bounds its length. -/
  window : Nat
  /-- The length of the text, if it is stated. -/
  size? : Option Nat
  /-- Whether a checksum follows the last block. -/
  hasChecksum : Bool

/-- The window that a window descriptor stands for. -/
def windowOf (descriptor : UInt8) : Nat :=
  let base := Nat.pow 2 (10 + descriptor.toNat / 8)
  base + base / 8 * (descriptor.toNat % 8)

/-- The header after the magic bytes. A frame that needs a dictionary is refused. -/
def readHeader (t : Text) : Option (Header × Text) := do
  let (first, t) ← Text.block? 1 t
  let descriptor := (first.headD 0).toNat
  guard (descriptor / 8 % 2 = 0)
  let single := descriptor / 32 % 2 = 1
  let (windowByte, t) ← Text.block? (if single then 0 else 1) t
  let (dictionary, t) ← Text.block? ([0, 1, 2, 4].getD (descriptor % 4) 0) t
  guard (Text.ofLittleEndian dictionary = 0)
  let width := [if single then 1 else 0, 2, 4, 8].getD (descriptor / 64) 0
  let (sizeBytes, t) ← Text.block? width t
  let size := Text.ofLittleEndian sizeBytes + if width = 2 then 256 else 0
  let window := if single then max size windowLimit else windowOf (windowByte.headD 0)
  return (⟨window, if width = 0 then none else some size, descriptor / 4 % 2 = 1⟩, t)

/-- A block, and whether it is the last one. -/
def readBlock (window : Nat) (t : Text) : Option ((Text × Bool) × Text) := do
  let (bytes, t) ← Text.block? 3 t
  let word := Text.ofLittleEndian bytes
  let size := word / 8
  let isLast := word % 2 = 1
  guard (size ≤ window ∧ size ≤ blockLimit)
  match word / 2 % 4 with
  | 0 =>
    let (text, t) ← Text.block? size t
    return ((text, isLast), t)
  | 1 =>
    let (byte, t) ← Text.block? 1 t
    return ((List.replicate size (byte.headD 0), isLast), t)
  | _ => none

/-- The text of blocks up to the last one, of which there are at most `count`. -/
def readBlocks (window : Nat) : (count : Nat) → Text → Option (Text × Text)
  | 0, _ => none
  | count + 1, t => do
    let ((text, isLast), t) ← readBlock window t
    if isLast then return (text, t)
    else
      let (more, t) ← readBlocks window count t
      return (text ++ more, t)

/-- The checksum of a text: the lower half of its hash. -/
def checksum (t : Text) : Text := Text.littleEndian 4 (XxHash.sum t).toNat

/-- The text of a frame after the magic bytes. -/
def readFrame (t : Text) : Option (Text × Text) := do
  let (header, t) ← readHeader t
  let (text, t) ← readBlocks header.window t.length t
  guard (header.size?.getD text.length = text.length)
  if header.hasChecksum then
    let (sum, t) ← Text.block? 4 t
    guard (sum = checksum text)
    return (text, t)
  else return (text, t)

/-- What follows a frame that is to be skipped, after the magic bytes. -/
def skipFrame (t : Text) : Option Text := do
  let (sizeBytes, t) ← Text.block? 4 t
  let (_, t) ← Text.block? (Text.ofLittleEndian sizeBytes) t
  return t

/-- Whether these are the first four bytes of a frame that is to be skipped. -/
def isSkippable (t : Text) : Bool :=
  (t.headD 0).toNat / 16 = 5 && t.drop 1 = [0x2a, 0x4d, 0x18]

/-- The text of at most `count` frames one after the other. -/
def readFrames : (count : Nat) → Text → Option Text
  | _, [] => some []
  | 0, _ :: _ => none
  | count + 1, b :: rest => do
    let (lead, t) ← Text.block? 4 (b :: rest)
    if lead = magic then
      let (text, t) ← readFrame t
      let more ← readFrames count t
      return text ++ more
    else if isSkippable lead then readFrames count (← skipFrame t)
    else none

/-- The text of frames one after the other. Every frame takes a byte, so that there are no more
frames than bytes. -/
def decode? (t : Text) : Option Text := readFrames t.length t

/-! ### Writing -/

/-- A block that holds its text as it is. -/
def writeBlock (text : Text) (isLast : Bool) : Text :=
  Text.littleEndian 3 (text.length * 8 + if isLast then 1 else 0) ++ text

/-- A text in blocks. -/
def writeBlocks (t : Text) : Text :=
  if _h : t.length ≤ windowLimit then writeBlock t true
  else writeBlock (t.take windowLimit) false ++ writeBlocks (t.drop windowLimit)
termination_by t.length
decreasing_by
  simp only [List.length_drop, windowLimit] at _h ⊢
  omega

/-- A text as a frame. -/
def encode (t : Text) : Text := magic ++ (0xe0 :: (Text.littleEndian 8 t.length ++ writeBlocks t))

end Reroute.Frame
