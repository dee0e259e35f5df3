import Reroute.Text.Basic

/-!
# Runes

The view of a text as code points. A rune is a code point in its UTF-8 encoding, or a stray byte
that belongs to no encoding: an overlong, truncated or surrogate sequence falls apart into strays.
Every text has exactly one sequence of runes, so a reader may count, quote or trim by code points
without refusing any bytes.

## Main definitions

* `Rune` — a code point or a stray byte
* `Rune.next?` — the first rune of a text and the rest
* `Text.runes` — all runes of a text
* `Text.isUtf8`, `Text.toString?` — texts without stray bytes
-/

namespace Reroute

/-- A code point of a text, or a byte that belongs to no UTF-8 sequence. -/
inductive Rune where
  | scalar (c : Char)
  | stray (b : UInt8)
deriving DecidableEq, Repr

namespace Rune

/-- The code point that a reader of code points sees: the replacement character for a stray byte. -/
def char : Rune → Char
  | scalar c => c
  | stray _ => '�'

/-- The bytes of a rune. -/
def bytes : Rune → Text
  | scalar c => String.utf8EncodeChar c
  | stray b => [b]

/-- The number of bytes of a rune. -/
def width : Rune → Nat
  | scalar c => c.utf8Size
  | stray _ => 1

/-- Whether a rune is a code point. -/
def isScalar : Rune → Bool
  | scalar _ => true
  | stray _ => false

/-- Whether a byte lies in a closed range. -/
def within (lo hi b : UInt8) : Bool := lo ≤ b && b ≤ hi

/-- The six bits that a continuation byte carries. -/
def payload (b : UInt8) : Nat := b.toNat % 64

/-- The code point that starts with the byte `lead`, and the bytes after its encoding. The range
of the second byte shuts out overlong forms, surrogates and values past U+10FFFF. -/
def scalar? (lead : UInt8) (rest : Text) : Option (Char × Text) :=
  if lead < 0x80 then some (Char.ofNat lead.toNat, rest)
  else if within 0xC2 0xDF lead then
    match rest with
    | b :: rest =>
      if within 0x80 0xBF b then
        some (Char.ofNat (lead.toNat % 32 * 64 + payload b), rest)
      else none
    | _ => none
  else if within 0xE0 0xEF lead then
    match rest with
    | b :: c :: rest =>
      let lo := if lead = 0xE0 then 0xA0 else 0x80
      let hi := if lead = 0xED then 0x9F else 0xBF
      if within lo hi b && within 0x80 0xBF c then
        some (Char.ofNat (lead.toNat % 16 * 4096 + payload b * 64 + payload c), rest)
      else none
    | _ => none
  else if within 0xF0 0xF4 lead then
    match rest with
    | b :: c :: d :: rest =>
      let lo := if lead = 0xF0 then 0x90 else 0x80
      let hi := if lead = 0xF4 then 0x8F else 0xBF
      if within lo hi b && within 0x80 0xBF c && within 0x80 0xBF d then
        some (Char.ofNat (lead.toNat % 8 * 262144 + payload b * 4096 + payload c * 64 + payload d),
          rest)
      else none
    | _ => none
  else none

theorem length_le_of_scalar? {lead : UInt8} {rest after : Text} {c : Char}
    (h : scalar? lead rest = some (c, after)) : after.length ≤ rest.length := by
  unfold scalar? at h
  grind

/-- The first rune of a text and the rest. -/
def next? : Text → Option (Rune × Text)
  | [] => none
  | b :: rest =>
    match scalar? b rest with
    | some (c, after) => some (.scalar c, after)
    | none => some (.stray b, rest)

theorem length_lt_of_next? {t after : Text} {r : Rune} (h : next? t = some (r, after)) :
    after.length < t.length := by
  cases t with
  | nil => simp [next?] at h
  | cons b rest =>
    rw [next?] at h
    split at h
    · rename_i hs
      simp only [Option.some.injEq, Prod.mk.injEq] at h
      obtain ⟨-, rfl⟩ := h
      have := length_le_of_scalar? hs
      simp
      omega
    · simp only [Option.some.injEq, Prod.mk.injEq] at h
      obtain ⟨-, rfl⟩ := h
      simp

end Rune

namespace Text

/-- The runes of a text. -/
def runes (t : Text) : List Rune :=
  match h : Rune.next? t with
  | none => []
  | some (r, rest) =>
    have : rest.length < t.length := Rune.length_lt_of_next? h
    r :: runes rest
termination_by t.length

/-- The bytes of runes. -/
def ofRunes (rs : List Rune) : Text := rs.flatMap Rune.bytes

/-- The UTF-8 bytes of characters. -/
def ofChars (cs : List Char) : Text := cs.flatMap String.utf8EncodeChar

/-- The characters that a reader of code points sees. -/
def chars (t : Text) : List Char := (runes t).map Rune.char

/-- Whether a text is valid UTF-8. -/
def isUtf8 (t : Text) : Bool := (runes t).all Rune.isScalar

/-- The string of a text that is valid UTF-8. -/
def toString? (t : Text) : Option String :=
  if isUtf8 t then some (String.ofList (chars t)) else none

/-- The number of runes. -/
def width (t : Text) : Nat := (runes t).length

/-- The text, followed by blanks up to a number of runes. -/
def padRight (n : Nat) (t : Text) : Text := t ++ List.replicate (n - width t) (byte ' ')

end Text

end Reroute
