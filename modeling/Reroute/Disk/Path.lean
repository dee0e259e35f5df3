import Reroute.Text.Basic

/-!
# Paths

Paths as texts, with slashes between their components. The operations here look at the text only and
never at a disk: a doubled slash and a `.` say nothing, and `..` takes back the component before it.

## Main definitions

* `Path.ofComponents` — the path from the root with given components
* `Path.clean` — the shortest path that says the same
* `Path.absolute` — the clean path that a path means in a working directory
* `Path.folder`, `Path.extension` — the part before the last slash, the part from the last dot
-/

namespace Reroute

namespace Path

/-- The byte between components. -/
def slash : UInt8 := Text.byte '/'

/-- Whether a path starts at the root. -/
def isAbsolute (p : Text) : Bool := p.head? = some slash

/-- One more component after those kept so far, the last one first. -/
def follow (rooted : Bool) (kept : List Text) (component : Text) : List Text :=
  if component = [] ∨ component = Text.ofString "." then kept
  else if component = Text.ofString ".." then
    match kept with
    | [] => if rooted then [] else [component]
    | last :: before => if last = component then component :: kept else before
  else component :: kept

/-- The components of a path that matter. -/
def components (p : Text) : List Text :=
  ((Text.fields slash p).foldl (follow (isAbsolute p)) []).reverse

/-- The path from the root with given components. -/
def ofComponents (cs : List Text) : Text := slash :: Text.join [slash] cs

/-- The shortest path that says the same. -/
def clean (p : Text) : Text :=
  if isAbsolute p then ofComponents (components p)
  else
    match components p with
    | [] => "."
    | cs => Text.join [slash] cs

/-- A path below a folder. -/
def below (folder p : Text) : Text := clean (folder ++ slash :: p)

/-- The clean path that a path means in a working directory. -/
def absolute (cwd p : Text) : Text := if isAbsolute p then clean p else below cwd p

/-- The text up to its last slash, and what follows. -/
def splitLast (p : Text) : Text × Text :=
  let name := (p.reverse.takeWhile (· != slash)).reverse
  (p.take (p.length - name.length), name)

/-- The folder that a path lies in. -/
def folder (p : Text) : Text := clean (splitLast p).1

/-- The path without the slashes at its end. -/
def withoutSlashes (p : Text) : Text := (p.reverse.dropWhile (· == slash)).reverse

/-- The path of the folder that has to exist before a folder can be made, if the path names one. -/
def upper? (p : Text) : Option Text :=
  let lead := (splitLast (withoutSlashes p)).1
  if 1 < lead.length then some lead.dropLast else none

theorem length_lt_of_upper? {p q : Text} (h : upper? p = some q) : q.length < p.length := by
  have hw : (withoutSlashes p).length ≤ p.length := by
    simpa [withoutSlashes] using (List.dropWhile_suffix (l := p.reverse) (· == slash)).length_le
  have hs : (splitLast (withoutSlashes p)).1.length ≤ (withoutSlashes p).length := by
    simp [splitLast]
  rw [upper?] at h
  split at h
  · simp only [Option.some.injEq] at h
    subst h
    rw [List.length_dropLast]
    omega
  · simp at h

/-- The last component from its last dot on, empty if it has none. -/
def extension (p : Text) : Text :=
  let name := (splitLast p).2
  if Text.byte '.' ∈ name then
    Text.byte '.' :: (name.reverse.takeWhile (· != Text.byte '.')).reverse
  else []

end Path

end Reroute
