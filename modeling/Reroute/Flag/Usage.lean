import Reroute.Flag.Basic

/-!
# The usage text

What a program says about its flags: one entry a flag, in the order of their names, with the value
by default unless it goes without saying. A word between backquotes in the description of a flag
stands for its value.

## Main definitions

* `Flag.entry` — the entry of a flag
* `Flag.usageText` — the usage text of a program
-/

namespace Reroute.Flag

/-- The byte around the word that stands for the value. -/
def backquote : Text := "\x60"

/-- The word between the first two backquotes, and the text without these two. -/
def unquote? (t : Text) : Option (Text × Text) := do
  let (before, rest) ← Text.cut? t backquote
  let (word, after) ← Text.cut? rest backquote
  return (word, before ++ word ++ after)

/-- What stands for the value of a flag, and its description. -/
def hint (f : Flag) : Text × Text :=
  match unquote? f.usage with
  | some found => found
  | none =>
    match f.default with
    | .text _ => ("string", f.usage)
    | .int _ => ("int", f.usage)
    | .switch _ => ([], f.usage)

/-- The value by default, unless it goes without saying. -/
def defaultNote (f : Flag) : Text :=
  if f.default.isZero then []
  else
    match f.default with
    | .text value => " (default " ++ value.quote ++ ")"
    | value => " (default " ++ value.render ++ ")"

/-- The start of a line of a description. -/
def indent : Text := "\n    \t"

/-- The longest heading that has the description on its own line. -/
def shortHeading : Nat := 4

/-- The entry of a flag. -/
def entry (f : Flag) : Text :=
  let (word, usage) := f.hint
  let value := if word = [] then [] else Text.ofString " " ++ word
  let heading : Text := "  -" ++ f.name ++ value
  let gap := if heading.length ≤ shortHeading then Text.ofString "\t" else indent
  heading ++ gap ++ Text.join indent (Text.fields Text.newline usage) ++ f.defaultNote ++ "\n"

/-- The usage text of a program. -/
def usageText (program : Text) (flags : List Flag) : Text :=
  "Usage of " ++ program ++ ":\n" ++
    (flags.mergeSort fun a b => Text.le a.name b.name).flatMap entry

end Reroute.Flag
