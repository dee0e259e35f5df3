/-!
# Texts

A text is a string of bytes. Source files, unit names, markers and messages are texts, and every
offset, length and span in this library counts bytes. Nothing here asks for valid UTF-8; where
code points matter, `Reroute.Text.Rune` gives a view of a text as runes.

## Main definitions

* `Text` — strings of bytes, with the UTF-8 bytes of string literals as constants
* `Text.cut?` — the text before and after the first occurrence of a pattern
* `Text.pieces` — what the leftmost non-overlapping occurrences of a pattern leave standing
* `Text.lines` — the lines of a text, each with its newline

## Main results

* `Text.eq_append_of_cut?` — a cut only takes the pattern out
* `Text.intercalate_pieces` — putting the pattern back between the pieces gives the text
-/

namespace Reroute

/-- A string of bytes. -/
abbrev Text := List UInt8

namespace Text

/-- The UTF-8 bytes of a string. -/
def ofString (s : String) : Text := s.toList.flatMap String.utf8EncodeChar

instance : Coe String Text := ⟨ofString⟩

/-- The byte of an ASCII character. -/
def byte (c : Char) : UInt8 := c.toNat.toUInt8

/-- The line feed, which ends a line. -/
def newline : UInt8 := 10

/-! ### Search -/

/-- Whether the text starts with another. -/
def startsWith (t lead : Text) : Bool := lead.isPrefixOf t

/-- What stands before and after the first occurrence of `pattern`. -/
def cut? (t pattern : Text) : Option (Text × Text) :=
  match t with
  | [] => if pattern.isEmpty then some ([], []) else none
  | b :: rest =>
    if startsWith (b :: rest) pattern then some ([], (b :: rest).drop pattern.length)
    else (cut? rest pattern).map fun (before, after) => (b :: before, after)

/-- The offset of the first occurrence of `pattern`. -/
def indexOf? (t pattern : Text) : Option Nat :=
  (cut? t pattern).map fun (before, _) => before.length

/-- Whether `pattern` occurs in the text. -/
def includes (t pattern : Text) : Bool := (cut? t pattern).isSome

theorem eq_append_of_cut? {t pattern before after : Text}
    (h : cut? t pattern = some (before, after)) : t = before ++ (pattern ++ after) := by
  induction t generalizing before after with
  | nil => by_cases hp : pattern = [] <;> simp_all [cut?]
  | cons b rest ih =>
    rw [cut?] at h
    split at h
    · rename_i hp
      have hlead : pattern.isPrefixOf (b :: rest) = true := hp
      obtain ⟨tail, ht⟩ := List.isPrefixOf_iff_prefix.1 hlead
      simp only [Option.some.injEq, Prod.mk.injEq] at h
      obtain ⟨rfl, rfl⟩ := h
      simp [← ht]
    · obtain ⟨⟨before', after'⟩, hc, heq⟩ := Option.map_eq_some_iff.1 h
      simp only [Prod.mk.injEq] at heq
      obtain ⟨rfl, rfl⟩ := heq
      simp [ih hc]

theorem length_lt_of_cut? {t pattern before after : Text} (hp : pattern ≠ [])
    (h : cut? t pattern = some (before, after)) : after.length < t.length := by
  have hpos := List.length_pos_iff.2 hp
  simp [eq_append_of_cut? h]
  omega

/-- The pieces that the leftmost non-overlapping occurrences of `pattern` leave standing, in order.
Without an occurrence, or with an empty pattern, the text is its only piece. -/
def pieces (t pattern : Text) : List Text :=
  if hp : pattern = [] then [t]
  else
    match hc : cut? t pattern with
    | none => [t]
    | some (before, after) =>
      have : after.length < t.length := length_lt_of_cut? hp hc
      before :: pieces after pattern
termination_by t.length

theorem pieces_ne_nil (t pattern : Text) : pieces t pattern ≠ [] := by
  rw [pieces]
  split
  · simp
  · split <;> simp

/-- Putting the pattern back between the pieces gives the text. -/
theorem intercalate_pieces (t pattern : Text) :
    pattern.intercalate (pieces t pattern) = t := by
  fun_induction pieces t pattern with
  | case1 => simp [List.intercalate]
  | case2 => simp [List.intercalate]
  | case3 t hp before after hc _ ih =>
    obtain ⟨p, ps, hps⟩ := List.exists_cons_of_ne_nil (pieces_ne_nil after pattern)
    rw [eq_append_of_cut? hc]
    rw [hps] at ih ⊢
    simp only [List.intercalate, List.intersperse, List.flatten_cons] at ih ⊢
    rw [ih]

/-! ### Lines and lists -/

/-- The lines of a text, each with its newline. What follows the last newline, if only the empty
text, is a line too. -/
def lines : Text → List Text
  | [] => [[]]
  | b :: rest =>
    if b = newline then [b] :: lines rest
    else
      match lines rest with
      | [] => [[b]]
      | l :: ls => (b :: l) :: ls

/-- The parts of a text between occurrences of a separator byte. -/
def fields (sep : UInt8) : Text → List Text
  | [] => [[]]
  | b :: rest =>
    if b = sep then [] :: fields sep rest
    else
      match fields sep rest with
      | [] => [[b]]
      | l :: ls => (b :: l) :: ls

/-- The texts one after the other, with a separator between them. -/
def join (sep : Text) (ts : List Text) : Text := sep.intercalate ts

/-! ### Order -/

/-- The bytewise order of texts. -/
def lt : Text → Text → Bool
  | _, [] => false
  | [], _ :: _ => true
  | a :: as, b :: bs => a < b || (a == b && lt as bs)

/-- The bytewise order with equality. -/
def le (a b : Text) : Bool := !lt b a

/-- The texts in ascending bytewise order. -/
def sort (ts : List Text) : List Text := ts.mergeSort le

/-! ### Numbers -/

/-- The decimal text of a number. -/
def ofNat (n : Nat) : Text := ofString (toString n)

/-- The decimal text of an integer, with a sign only if it is negative. -/
def ofInt (n : Int) : Text := ofString (toString n)

/-- The decimal text of an integer, always with a sign. -/
def signed (n : Int) : Text := if n < 0 then ofInt n else "+" ++ ofInt n

/-- `true` or `false`. -/
def ofBool (b : Bool) : Text := if b then "true" else "false"

/-- The lower case hexadecimal digit of a number below sixteen. -/
def hexDigit (n : Nat) : UInt8 := if n < 10 then (48 + n).toUInt8 else (87 + n).toUInt8

/-- The lowest `width` hexadecimal digits of a number. -/
def hex (width n : Nat) : Text :=
  (List.range width).map fun i => hexDigit (n / Nat.pow 16 (width - 1 - i) % 16)

end Text

end Reroute
