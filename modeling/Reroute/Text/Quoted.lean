import Reroute.Text.Printable

/-!
# Quoted texts

The form in which messages show a text that may hold anything: between double quotes, printable
characters as they are, and everything else as an escape. Stray bytes and unprintable ASCII are
written `\xff`, other unprintable characters `\u200b` or `\U000e0001`.

## Main definitions

* `Rune.quoted` — a rune inside of quotes
* `Text.quote` — a text in quotes
-/

namespace Reroute

namespace Rune

/-- The escape of a character that has a short one. -/
def shortEscape? (c : Char) : Option Text :=
  match c.toNat with
  | 0x07 => some "\\a"
  | 0x08 => some "\\b"
  | 0x09 => some "\\t"
  | 0x0A => some "\\n"
  | 0x0B => some "\\v"
  | 0x0C => some "\\f"
  | 0x0D => some "\\r"
  | 0x22 => some "\\\""
  | 0x5C => some "\\\\"
  | _ => none

/-- A rune as it stands between quotes. -/
def quoted : Rune → Text
  | stray b => "\\x" ++ Text.hex 2 b.toNat
  | scalar c =>
    match shortEscape? c with
    | some escape => escape
    | none =>
      let n := c.toNat
      if isPrintable c then String.utf8EncodeChar c
      else if n < 0x80 then "\\x" ++ Text.hex 2 n
      else if n < 0x10000 then "\\u" ++ Text.hex 4 n
      else "\\U" ++ Text.hex 8 n

end Rune

/-- The text between double quotes, with escapes for all that is not printable. -/
def Text.quote (t : Text) : Text := "\"" ++ (Text.runes t).flatMap Rune.quoted ++ "\""

end Reroute
