import Mathlib.Data.List.Nodup
import Mathlib.Tactic.Ring
import Reroute.Fingerprint
import Reroute.Text.Binary

/-!
# Fingerprints are read back from their texts

The text form of a fingerprint is the basE91 form of its eight bytes. How many bits a pair of
characters carries depends on the bits themselves, so a reader cannot know in advance where in the
text a byte begins. It does not have to: the bits of a pair tell their own number, and what a reader
holds and what the writer still has in its queue always make up whole bytes. From this every text is
read back, whatever its length. A character carries at most seven bits and a pair at least thirteen,
which leaves one length for eight bytes.

## Main definitions

* `Base91.decode?` — the bytes of a text form
* `Base91.Encodes` — the course of the encoder from a queue of bits
* `Base91.Aligned` — what a reader holds and what a writer has queued make up whole bytes
* `Fingerprint.parse?` — the fingerprint of a text form

## Main results

* `Base91.encode_subset` — the characters of a text form are those of the alphabet
* `Base91.length_encode_bounds` — how long a text form is
* `Base91.decode?_encode` — bytes are read back from their text form
* `Fingerprint.render_identifies` — ten characters that tell the fingerprint
-/

namespace Reroute

/-! ### Bytes of a number in two parts -/

namespace Text

/-- The lowest bytes of a number do not depend on what is added above them, and the bytes after them
are those of the carry and what was added. -/
theorem littleEndian_append_littleEndian (j k low high : Nat) :
    littleEndian j low ++ littleEndian k (low / 256 ^ j + high) =
      littleEndian (j + k) (low + high * 256 ^ j) := by
  induction j generalizing low with
  | zero => simp [littleEndian]
  | succ j ih =>
    have hsplit : low + high * 256 ^ (j + 1) = low + 256 * (high * 256 ^ j) := by ring
    have hbyte : (low + high * 256 ^ (j + 1)) % 256 = low % 256 := by
      rw [hsplit, Nat.add_mul_mod_self_left]
    have hrest : (low + high * 256 ^ (j + 1)) / 256 = low / 256 + high * 256 ^ j := by
      rw [hsplit, Nat.add_mul_div_left _ _ (by decide)]
    rw [Nat.succ_add, littleEndian, littleEndian, hbyte, hrest, ← ih, Nat.div_div_eq_div_mul,
      Nat.pow_succ', List.cons_append]

theorem littleEndian_append_singleton {k n : Nat} (h : n < 256 ^ k) (b : UInt8) :
    littleEndian k n ++ [b] = littleEndian (k + 1) (n + b.toNat * 256 ^ k) := by
  have hbyte : littleEndian 1 (n / 256 ^ k + b.toNat) = [b] := by
    simp [littleEndian, Nat.div_eq_of_lt h]
  rw [← littleEndian_append_littleEndian, hbyte]

end Text

namespace Base91

variable {value queue bits : Nat} {t out : Text}

/-! ### The alphabet -/

theorem length_alphabet : alphabet.length = 91 := by decide +kernel

theorem nodup_alphabet : alphabet.Nodup := by decide +kernel

/-- The value of a character, if it is one of the alphabet. -/
def value? (c : UInt8) : Option Nat := alphabet.idxOf? c

theorem symbol_eq (h : value < alphabet.length) : symbol value = alphabet[value] := by
  rw [symbol, List.getD_eq_getElem?_getD, List.getElem?_eq_getElem h, Option.getD_some]

theorem symbol_mem (h : value < 91) : symbol value ∈ alphabet := by
  rw [← length_alphabet] at h
  rw [symbol_eq h]
  exact List.getElem_mem h

/-- A value is read back from its character, since no character stands twice in the alphabet. -/
theorem value?_symbol (h : value < 91) : value? (symbol value) = some value := by
  rw [← length_alphabet] at h
  rw [value?, symbol_eq h, List.idxOf?_eq_some_iff]
  refine ⟨h, rfl, fun j hj heq => ?_⟩
  exact Nat.ne_of_lt hj (nodup_alphabet.getElem_inj_iff.1 heq)

/-! ### Pairs -/

/-- The number of bits in a pair: fourteen if the lowest thirteen leave room for one more. -/
def width (value : Nat) : Nat := if value % 2 ^ 13 > 88 then 13 else 14

theorem width_bounds (value : Nat) : 13 ≤ width value ∧ width value ≤ 14 := by
  unfold width
  split <;> decide

/-- As many bits as are taken for a pair fit into it. -/
theorem mod_width_lt (value : Nat) : value % 2 ^ width value < 91 * 91 := by
  unfold width
  -- fourteen bits come to 88 + 2 ^ 13 at most, the highest value of a pair
  split <;> omega

/-- The bits of a pair tell how many they are. -/
theorem width_mod_width (value : Nat) : width (value % 2 ^ width value) = width value := by
  have hlow : value % 2 ^ width value % 2 ^ 13 = value % 2 ^ 13 := by
    unfold width
    split <;> omega
  rw [width, hlow, width]

theorem pair_subset (h : value < 91 * 91) : pair value ⊆ alphabet := by
  have hlow : value % 91 < 91 := Nat.mod_lt _ (by decide)
  have hhigh : value / 91 < 91 := Nat.div_lt_of_lt_mul h
  simp [pair, symbol_mem hlow, symbol_mem hhigh]

/-! ### Decoding -/

/-- Decodes characters behind a queue of bits that do not fill a byte yet. A character without a
partner completes the last byte. -/
def decodeFrom (queue bits : Nat) : Text → Option Text
  | [] => some []
  | [c] => do
    let value ← value? c
    return Text.littleEndian 1 (queue + value * 2 ^ bits)
  | c :: d :: rest => do
    let low ← value? c
    let high ← value? d
    let value := low + high * 91
    let queue := queue + value * 2 ^ bits
    let bits := bits + width value
    -- the lowest bits fill whole bytes, and the others wait for the next pair
    let bytes ← decodeFrom (queue / 256 ^ (bits / 8)) (bits % 8) rest
    return Text.littleEndian (bits / 8) queue ++ bytes

/-- The bytes of a text form, if it has no other characters than those of the alphabet. -/
def decode? (t : Text) : Option Text := decodeFrom 0 0 t

theorem decodeFrom_symbol (h : value < 91) (queue bits : Nat) :
    decodeFrom queue bits [symbol value] =
      some (Text.littleEndian 1 (queue + value * 2 ^ bits)) := by
  rw [decodeFrom, value?_symbol h]
  rfl

theorem decodeFrom_pair_append (h : value < 91 * 91) (queue bits : Nat) (rest : Text) :
    decodeFrom queue bits (pair value ++ rest) =
      (decodeFrom ((queue + value * 2 ^ bits) / 256 ^ ((bits + width value) / 8))
        ((bits + width value) % 8) rest).map
      (Text.littleEndian ((bits + width value) / 8) (queue + value * 2 ^ bits) ++ ·) := by
  have hlow : value % 91 < 91 := Nat.mod_lt _ (by decide)
  have hhigh : value / 91 < 91 := Nat.div_lt_of_lt_mul h
  have hvalue : value % 91 + value / 91 * 91 = value := Nat.mod_add_div' value 91
  simp only [pair, List.cons_append, List.nil_append, decodeFrom, value?_symbol hlow,
    value?_symbol hhigh, Option.bind_eq_bind, Option.bind_some, hvalue]
  cases decodeFrom _ _ rest <;> rfl

/-! ### Queues of bits -/

theorem add_lt_two_pow {low n high m : Nat} (hlow : low < 2 ^ n) (hhigh : high < 2 ^ m) :
    low + high * 2 ^ n < 2 ^ (n + m) := by
  rw [Nat.mul_comm, Nat.pow_add]
  exact Nat.add_mul_lt_mul_of_lt_of_lt hlow hhigh

theorem div_lt_two_pow {w : Nat} (h : queue < 2 ^ bits) (hw : w ≤ bits) :
    queue / 2 ^ w < 2 ^ (bits - w) := by
  rw [Nat.div_lt_iff_lt_mul (Nat.two_pow_pos w), ← Nat.pow_add, Nat.sub_add_cancel hw]
  exact h

theorem two_pow_eight_mul (k : Nat) : 2 ^ (8 * k) = 256 ^ k := by rw [Nat.pow_mul]

theorem two_pow_mod_mul (m : Nat) : 2 ^ (m % 8) * 256 ^ (m / 8) = 2 ^ m := by
  rw [← two_pow_eight_mul, ← Nat.pow_add, Nat.mod_add_div]

/-! ### The course of the encoder -/

/-- The encoder turns a queue of at most thirteen bits and the bytes behind it into characters. A
byte is kept in the queue as long as there is room, and otherwise the queue gives off a pair. What
is left over is nothing, up to seven bits in one character, or a pair with room for at most six bits
more. -/
inductive Encodes : (queue bits : Nat) → Text → Text → Prop
  | nothing : Encodes 0 0 [] []
  | single (queue : Nat) {bits : Nat} (hpos : 0 < bits) (hbits : bits ≤ 7) (hvalue : queue < 91) :
    Encodes queue bits [] [symbol queue]
  | double (queue : Nat) {bits : Nat} (hleast : 7 ≤ bits) (hbits : bits ≤ 13)
    (hwidth : width queue ≤ bits + 6) (hvalue : queue < 91 * 91) :
    Encodes queue bits [] (pair queue)
  | keep {queue bits : Nat} (b : UInt8) {rest out : Text} (hroom : bits + 8 ≤ 13)
    (h : Encodes (queue + b.toNat * 2 ^ bits) (bits + 8) rest out) :
    Encodes queue bits (b :: rest) out
  | emit {queue bits : Nat} (b : UInt8) (next : Nat) {rest out : Text} (hbits : bits ≤ 13)
    (hfull : 13 < bits + 8) (hnext : next = queue + b.toNat * 2 ^ bits)
    (h : Encodes (next / 2 ^ width next) (bits + 8 - width next) rest out) :
    Encodes queue bits (b :: rest) (pair (next % 2 ^ width next) ++ out)

theorem encodes_finish (hqueue : queue < 2 ^ bits) (hbits : bits ≤ 13) :
    Encodes queue bits [] (finish queue bits) := by
  have hlimit : ∀ m, bits ≤ m → queue < 2 ^ m := fun m hm =>
    Nat.lt_of_lt_of_le hqueue (Nat.pow_le_pow_right (by decide) hm)
  by_cases hnone : bits = 0
  · have hzero := hlimit 0 hnone.le
    rw [finish, if_pos hnone, hnone, Nat.lt_one_iff.1 hzero]
    exact .nothing
  by_cases htwo : bits > 7 ∨ queue > 90
  · rw [finish, if_neg hnone, if_pos htwo]
    have hvalue := hlimit 13 hbits
    have hleast : 7 ≤ bits := by
      by_contra hless
      -- six bits stay below 64
      have hsmall := hlimit 6 (by omega)
      omega
    have hwidth : width queue ≤ bits + 6 := by
      -- a pair for seven bits has a value above 90, so that thirteen are read
      unfold width
      split <;> omega
    exact .double queue hleast hbits hwidth (by omega)
  · rw [finish, if_neg hnone, if_neg htwo, Nat.mod_eq_of_lt (by omega)]
    exact .single queue (by omega) (by omega) (by omega)

theorem encodeFrom_cons_of_le (h : bits + 8 ≤ 13) (b : UInt8) (rest : Text) :
    encodeFrom queue bits (b :: rest) =
      encodeFrom (queue + b.toNat * 2 ^ bits) (bits + 8) rest :=
  if_pos h

theorem encodeFrom_cons_of_lt (h : 13 < bits + 8) (b : UInt8) (rest : Text) :
    encodeFrom queue bits (b :: rest) =
      pair ((queue + b.toNat * 2 ^ bits) % 2 ^ width (queue + b.toNat * 2 ^ bits)) ++
        encodeFrom ((queue + b.toNat * 2 ^ bits) / 2 ^ width (queue + b.toNat * 2 ^ bits))
          (bits + 8 - width (queue + b.toNat * 2 ^ bits)) rest := by
  refine (if_neg (Nat.not_le.2 h)).trans ?_
  rw [width]
  split <;> rfl

theorem encodes_encodeFrom (hqueue : queue < 2 ^ bits) (hbits : bits ≤ 13) (t : Text) :
    Encodes queue bits t (encodeFrom queue bits t) := by
  induction t generalizing queue bits with
  | nil => exact encodes_finish hqueue hbits
  | cons b rest ih =>
    have hnext : queue + b.toNat * 2 ^ bits < 2 ^ (bits + 8) := add_lt_two_pow hqueue b.toNat_lt
    rcases Nat.lt_or_ge 13 (bits + 8) with hfull | hroom
    · have hwidth := width_bounds (queue + b.toNat * 2 ^ bits)
      rw [encodeFrom_cons_of_lt hfull]
      exact .emit b _ hbits hfull rfl (ih (div_lt_two_pow hnext (by omega)) (by omega))
    · rw [encodeFrom_cons_of_le hroom]
      exact .keep b hroom (ih hnext hroom)

theorem encodes_encode (t : Text) : Encodes 0 0 t (encode t) :=
  encodes_encodeFrom (by decide) (by decide) t

theorem Encodes.subset (h : Encodes queue bits t out) : out ⊆ alphabet := by
  induction h with
  | nothing => exact List.nil_subset _
  | single _ _ _ hvalue => simpa using symbol_mem hvalue
  | double _ _ _ _ hvalue => exact pair_subset hvalue
  | keep _ _ _ ih => exact ih
  | emit _ next _ _ _ _ ih =>
    exact List.append_subset.2 ⟨pair_subset (mod_width_lt next), ih⟩

theorem Encodes.length_bounds (h : Encodes queue bits t out) :
    bits + 8 * t.length ≤ 7 * out.length ∧
      13 * out.length ≤ 2 * (bits + 8 * t.length) + 12 := by
  induction h with
  | nothing => decide
  | single _ hpos hbits =>
    simp only [List.length_cons, List.length_nil]
    omega
  | double _ hleast hbits =>
    simp only [pair, List.length_cons, List.length_nil]
    omega
  | keep _ _ _ ih =>
    rw [List.length_cons]
    omega
  | emit _ next _ _ _ _ ih =>
    have hwidth := width_bounds next
    simp only [pair, List.length_append, List.length_cons, List.length_nil]
    omega

/-- A text form has no other characters than those of the alphabet. -/
theorem encode_subset (t : Text) : encode t ⊆ alphabet :=
  (encodes_encode t).subset

/-- A character carries at most seven bits, and two characters carry at least thirteen unless they
are the last. -/
theorem length_encode_bounds (t : Text) :
    8 * t.length ≤ 7 * (encode t).length ∧ 13 * (encode t).length ≤ 16 * t.length + 12 := by
  have hbounds := (encodes_encode t).length_bounds
  omega

/-! ### Decoding what was encoded -/

/-- The `n` bits that a reader holds and the bits in the queue of a writer, those of the reader
below the others, make up `k` bytes. -/
structure Aligned (held n queue bits k : Nat) : Prop where
  held_lt : held < 2 ^ n
  lt_byte : n < 8
  queue_lt : queue < 2 ^ bits
  bytes : n + bits = 8 * k

namespace Aligned

variable {held n k w : Nat}

/-- The writer puts a byte into its queue. -/
theorem keep (h : Aligned held n queue bits k) (b : UInt8) :
    Aligned held n (queue + b.toNat * 2 ^ bits) (bits + 8) (k + 1) where
  held_lt := h.held_lt
  lt_byte := h.lt_byte
  queue_lt := add_lt_two_pow h.queue_lt b.toNat_lt
  bytes := by rw [← Nat.add_assoc, h.bytes, Nat.mul_succ]

/-- The reader takes `w` bits from the queue and gives off the bytes that they complete. -/
theorem emit (h : Aligned held n queue bits k) (hw : w ≤ bits) :
    Aligned ((held + queue % 2 ^ w * 2 ^ n) / 256 ^ ((n + w) / 8)) ((n + w) % 8)
      (queue / 2 ^ w) (bits - w) (k - (n + w) / 8) where
  held_lt := by
    have hheld : held + queue % 2 ^ w * 2 ^ n < 2 ^ (n + w) :=
      add_lt_two_pow h.held_lt (Nat.mod_lt _ (Nat.two_pow_pos w))
    rw [Nat.div_lt_iff_lt_mul (Nat.pow_pos (by decide)), two_pow_mod_mul]
    exact hheld
  lt_byte := Nat.mod_lt _ (by decide)
  queue_lt := div_lt_two_pow h.queue_lt hw
  bytes := by
    have hbytes := h.bytes
    omega

/-- A byte that is put into the queue comes after the bytes that are on their way. -/
theorem littleEndian_keep (h : Aligned held n queue bits k) (b : UInt8) :
    Text.littleEndian (k + 1) (held + (queue + b.toNat * 2 ^ bits) * 2 ^ n) =
      Text.littleEndian k (held + queue * 2 ^ n) ++ [b] := by
  have hbytes : 256 ^ k = 2 ^ (n + bits) := by rw [h.bytes, two_pow_eight_mul]
  have hlt : held + queue * 2 ^ n < 256 ^ k := by
    rw [hbytes]
    exact add_lt_two_pow h.held_lt h.queue_lt
  rw [Text.littleEndian_append_singleton hlt, hbytes]
  congr 1
  ring

/-- The bytes that the reader gives off are the first of those that are on their way. -/
theorem littleEndian_emit (h : Aligned held n queue bits k) (hw : w ≤ bits) :
    Text.littleEndian ((n + w) / 8) (held + queue % 2 ^ w * 2 ^ n) ++
        Text.littleEndian (k - (n + w) / 8)
          ((held + queue % 2 ^ w * 2 ^ n) / 256 ^ ((n + w) / 8) +
            queue / 2 ^ w * 2 ^ ((n + w) % 8)) =
      Text.littleEndian k (held + queue * 2 ^ n) := by
  have htotal := h.bytes
  have hcount : (n + w) / 8 + (k - (n + w) / 8) = k := by omega
  have hnumber : held + queue % 2 ^ w * 2 ^ n + queue / 2 ^ w * 2 ^ (n + w) =
      held + queue * 2 ^ n := by
    calc held + queue % 2 ^ w * 2 ^ n + queue / 2 ^ w * 2 ^ (n + w)
        = held + (queue % 2 ^ w + queue / 2 ^ w * 2 ^ w) * 2 ^ n := by ring
      _ = held + queue * 2 ^ n := by rw [Nat.mod_add_div']
  rw [Text.littleEndian_append_littleEndian, hcount, Nat.mul_assoc, two_pow_mod_mul, hnumber]

end Aligned

/-- A reader that is aligned with the encoder gets what is on its way and what is still to come. -/
theorem Encodes.decodeFrom_eq {held n k : Nat} (h : Encodes queue bits t out)
    (ha : Aligned held n queue bits k) :
    decodeFrom held n out = some (Text.littleEndian k (held + queue * 2 ^ n) ++ t) := by
  induction h generalizing held n k with
  | nothing =>
    obtain ⟨-, hbyte, -, htotal⟩ := ha
    have hk : k = 0 := by omega
    rw [hk]
    rfl
  | single _ hpos hbits hvalue =>
    obtain ⟨-, hbyte, -, htotal⟩ := ha
    have hk : k = 1 := by omega
    rw [decodeFrom_symbol hvalue, hk, List.append_nil]
  | double queue hleast hbits hwidth hvalue =>
    -- the reader takes a few bits too many, but they do not make a byte
    have htotal := ha.bytes
    have hnarrow := (width_bounds queue).1
    have hk : (n + width queue) / 8 = k := by omega
    rw [← List.append_nil (pair queue), decodeFrom_pair_append hvalue, hk]
    rfl
  | keep b _ _ ih =>
    rw [ih (ha.keep b), ha.littleEndian_keep, List.append_assoc, List.singleton_append]
  | @emit _ bits b next _ _ hbits hfull hnext _ ih =>
    -- the byte joins the queue first, and then the bits of the pair go over to the reader
    have hkept := ha.keep b
    rw [← hnext] at hkept
    have hwide := (width_bounds next).2
    have hw : width next ≤ bits + 8 := by omega
    rw [decodeFrom_pair_append (mod_width_lt next), width_mod_width, ih (hkept.emit hw),
      Option.map_some, ← List.append_assoc, hkept.littleEndian_emit hw, hnext,
      ha.littleEndian_keep, List.append_assoc, List.singleton_append]

/-- Bytes are read back from their text form. -/
theorem decode?_encode (t : Text) : decode? (encode t) = some t :=
  (encodes_encode t).decodeFrom_eq (k := 0) ⟨by decide, by decide, by decide, rfl⟩

end Base91

/-! ### Fingerprints -/

namespace Fingerprint

/-- The fingerprint whose text form is given, if there are eight bytes in it. -/
def parse? (t : Text) : Option Fingerprint := do
  let bytes ← Base91.decode? t
  if bytes.length = 8 then return ⟨.ofNat (Text.ofBigEndian bytes)⟩ else none

theorem bigEndian_eq (w : UInt64) : bigEndian w = Text.bigEndian 8 w.toNat := by
  simp [bigEndian, Text.bigEndian, Text.littleEndian, ← UInt8.toNat_inj, Nat.shiftRight_eq_div_pow,
    Nat.div_div_eq_div_mul]

theorem parse?_render (f : Fingerprint) : parse? f.render = some f := by
  have hvalue : f.value.toNat < Nat.pow 256 8 := f.value.toNat_lt
  rw [parse?, render, Base91.decode?_encode, bigEndian_eq]
  simp [Text.ofBigEndian_bigEndian hvalue]

theorem length_render (f : Fingerprint) : f.render.length = 10 := by
  have hbounds := Base91.length_encode_bounds (bigEndian f.value)
  have hbytes : (bigEndian f.value).length = 8 := rfl
  rw [render]
  -- nine characters carry 63 bits at most, and eleven would carry more than there are
  omega

/-- The text form of a fingerprint has ten characters of the alphabet, which is one of 91 different
characters. The fingerprint is read back from it, so no other one has the same text form. -/
theorem render_identifies (f : Fingerprint) :
    f.render.length = 10 ∧ f.render ⊆ Base91.alphabet ∧
      Base91.alphabet.length = 91 ∧ Base91.alphabet.Nodup ∧
      parse? f.render = some f ∧ ∀ g : Fingerprint, g.render = f.render ↔ g = f := by
  refine ⟨length_render f, Base91.encode_subset _, Base91.length_alphabet, Base91.nodup_alphabet,
    parse?_render f, fun g => ⟨fun h => ?_, fun h => by rw [h]⟩⟩
  have hread : some g = some f := by rw [← parse?_render g, h, parse?_render]
  exact Option.some.inj hread

example : render ⟨8666379929374662555⟩ = Text.ofString "jPUa&S(~gb" := by decide +kernel

end Fingerprint

end Reroute
