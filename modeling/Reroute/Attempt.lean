import Reroute.Pass

/-!
# Attempts

The steps of a pass one by one, with all that can break off a run. Texts are cut at offsets that
were computed before, and a cut that is out of range breaks off the run. So does a signature that
cannot be formed, because the declaration to look for is not valid UTF-8. A run that breaks off has
the answer `none`.

A step that gives up in an orderly way still hands back a text. That is the text it was given,
whatever has become of the copy it has been working on.

## Main definitions

* `Text.slice?` — the bytes between two offsets
* `Handover` — what a step hands back
* `Helper.attempt?`, `Landmarks.attempt?`, `CallRule.attempt?` — the steps
* `Profile.turn?`, `Profile.work?` — the turns of routes on a working copy
* `Profile.attempt?` — a pass
-/

namespace Reroute

/-- The bytes from one offset up to another, if the offsets are in order and inside of the text. -/
def Text.slice? (t : Text) (start stop : Int) : Option Text :=
  if (⟨start, stop⟩ : Span).Fits t then some ((⟨start, stop⟩ : Span).body t) else none

/-- What is left behind an occurrence is shorter. -/
theorem Text.length_lt_of_slice? {t w rest : Text} {i : Nat} {stop : Int} (hw : w ≠ [])
    (h : t.slice? (i + w.length : Nat) stop = some rest) : rest.length < t.length := by
  have hpos := List.length_pos_iff.2 hw
  rw [slice?] at h
  split at h
  · rename_i hfits
    obtain ⟨-, hle, hstop⟩ := hfits
    simp only at hle hstop
    cases h
    simp only [Span.body, List.length_drop, List.length_take]
    omega
  · cases h

/-- What a step hands back: a text in any case, and with it a value or the cause for which the step
has given up. -/
structure Handover (α : Type) where
  text : Text
  result : Except PatchError α

/-- Puts the definition behind the anchor, unless the text has the helper already. -/
def Helper.attempt? (h : Helper) (anchor t : Text) : Option (Handover Bool) :=
  match if anchor.isEmpty then none else t.indexOf? anchor with
  | none => some ⟨t, .error (.anchorMissing anchor)⟩
  | some i =>
    if !h.ident.isEmpty && t.includes h.ident then some ⟨t, .ok false⟩
    else do
      let insertAt := i + anchor.length
      let front ← t.slice? 0 insertAt
      let back ← t.slice? insertAt t.length
      return ⟨front ++ h.definition ++ back, .ok true⟩

namespace Landmarks

/-- The pattern with which the signature of a unit starts. None can be formed from bytes that are
not valid UTF-8. -/
def signature? (l : Landmarks) (name : Text) : Option (List Char) :=
  if (l.declaration ++ name).isUtf8 then some ((l.declaration ++ name).chars ++ ['(']) else none

/-- The span from an offset up to the next unit. -/
def spanFrom? (l : Landmarks) (start : Int) (t : Text) : Option Span :=
  if l.nextUnit.isEmpty then some ⟨start, t.length⟩
  else do
    let rest ← t.slice? start t.length
    match rest.indexOf? l.nextUnit with
    | none => return ⟨start, t.length⟩
    | some i => return ⟨start, start + i⟩

/-- Looks for the body of a unit. -/
def attempt? (l : Landmarks) (name t : Text) : Option (Except PatchError Span) :=
  if name.isEmpty then some (.error .unitUnnamed)
  else do
    let pattern ← l.signature? name
    match bodyRunes? pattern t.runes with
    | none => return .error (.unitMissing name)
    | some body => return .ok (← l.spanFrom? (t.length - byteCount body) t)

end Landmarks

namespace CallRule

/-- Goes through the rest of a span from call to call. `built` is what has been written so far, and
`sites` are the offsets of the helper calls in it, if the span starts at `start`. The search goes on
behind each call, never inside of what was written for it. -/
def scan? (c : CallRule) (hc : c.target ≠ []) (r : Route) (start : Nat) (built : Text)
    (sites : List Nat) (rest : Text) : Option (Text × List Nat) :=
  match rest.indexOf? c.target with
  | none => some (built ++ rest, sites)
  | some i =>
    match rest.slice? 0 i with
    | none => none
    | some lead =>
      match _htail : rest.slice? (i + c.target.length : Nat) rest.length with
      | none => none
      | some tail =>
        scan? c hc r start (built ++ lead ++ c.opening r)
          (sites ++ [start + (built ++ lead).length]) tail
termination_by rest.length
decreasing_by exact Text.length_lt_of_slice? hc _htail

/-- Reroutes every call inside of a span. -/
def attempt? (c : CallRule) (t : Text) (span : Span) (r : Route) : Option (Handover (List Nat)) :=
  if ¬ span.Fits t then some ⟨t, .error (.spanOutOfRange span t.length)⟩
  else if hc : c.target = [] then some ⟨t, .ok []⟩
  else do
    let body ← t.slice? span.start span.stop
    let (rerouted, sites) ← c.scan? hc r span.start.toNat [] [] body
    if sites.isEmpty then return ⟨t, .ok []⟩
    else if Balance.ofText body ≠ Balance.ofText rerouted then
      return ⟨t, .error (.unbalanced r.name (Balance.ofText body) (Balance.ofText rerouted))⟩
    else
      let front ← t.slice? 0 span.start
      let back ← t.slice? span.stop t.length
      return ⟨front ++ rerouted ++ back, .ok sites⟩

end CallRule

namespace Profile

/-- One route's turn on a working copy. -/
def turn? (p : Profile) (r : Route) (now : Text) : Option (Handover UnitOutcome) := do
  match ← p.landmarks.attempt? r.name now with
  | .error e =>
    if e.isSkippable then return ⟨now, .ok ⟨r.name, .skipped, []⟩⟩ else return ⟨now, .error e⟩
  | .ok span =>
    let done ← p.callRule.attempt? now span r
    match done.result with
    | .error e => return ⟨done.text, .error e⟩
    | .ok sites =>
      let lines ← sites.mapM fun offset : Nat => lineOf? done.text offset
      let status := if sites.isEmpty then .untouched else .rerouted
      return ⟨done.text, .ok ⟨r.name, status, lines.map fun line : Nat => (line : Int)⟩⟩

/-- The turns of routes on a working copy, with the log. The copy comes back as the last turn has
left it. -/
def work? (p : Profile) : List Route → Text → Option (List Text × Handover (List UnitOutcome))
  | [], now => some ([], ⟨now, .ok []⟩)
  | r :: rs, now => do
    let turn ← p.turn? r now
    match turn.result with
    | .error e => return ([], ⟨turn.text, .error e⟩)
    | .ok u =>
      let (log, rest) ← p.work? rs turn.text
      return (u.log ++ log, ⟨rest.text, rest.result.map (u :: ·)⟩)

/-- A pass over a text, with the log. If a turn gives up, the working copy is dropped. -/
def attempt? (p : Profile) (t : Text) : Option (List Text × Handover Report) := do
  let start ← p.helper.attempt? p.anchor t
  match start.result with
  | .error e => return ([], ⟨t, .error e⟩)
  | .ok installed =>
    let (log, done) ← p.work? p.routes start.text
    match done.result with
    | .error e => return (log, ⟨t, .error e⟩)
    | .ok units =>
      let report : Report :=
        ⟨[], installed, units, Fingerprint.ofText t, Fingerprint.ofText done.text⟩
      return (log, ⟨done.text, .ok report⟩)

end Profile

end Reroute
