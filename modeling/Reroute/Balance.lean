import Reroute.Text.Basic

/-!
# Bracket balance

How many more brackets a text opens than it closes, for each of the three kinds. Brackets are
counted as plain bytes, also inside string literals and comments.

## Main definitions

* `Balance` — the three counts
* `Balance.ofText` — the balance of a text

## Main results

* `Balance.ofText_append` — the balance of texts one after the other is the sum of their balances
-/

namespace Reroute

/-- Opened minus closed brackets of each kind. -/
structure Balance where
  round : Int
  square : Int
  curly : Int
deriving DecidableEq, Repr

namespace Balance

instance : Add Balance := ⟨fun a b => ⟨a.round + b.round, a.square + b.square, a.curly + b.curly⟩⟩

theorem add_def (a b : Balance) :
    a + b = ⟨a.round + b.round, a.square + b.square, a.curly + b.curly⟩ := rfl

/-- The number of `opening` bytes minus the number of `closing` bytes. -/
def excess (opening closing : Char) (t : Text) : Int :=
  (t.count (Text.byte opening) : Int) - t.count (Text.byte closing)

/-- The balance of a text. -/
def ofText (t : Text) : Balance where
  round := excess '(' ')' t
  square := excess '[' ']' t
  curly := excess '{' '}' t

theorem excess_append (opening closing : Char) (s t : Text) :
    excess opening closing (s ++ t) = excess opening closing s + excess opening closing t := by
  simp only [excess, List.count_append]
  omega

@[simp]
theorem ofText_append (s t : Text) : ofText (s ++ t) = ofText s + ofText t := by
  simp only [ofText, excess_append, add_def]

/-- The counts with their signs. -/
def render (b : Balance) : Text :=
  "()" ++ Text.signed b.round ++ " []" ++ Text.signed b.square ++ " \x7b\x7d" ++ Text.signed b.curly

end Balance

end Reroute
