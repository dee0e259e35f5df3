import Reroute.Proofs.Convergence
import Reroute.Proofs.Scanning

/-!
# How a pass can fail

A pass of an accepted profile ends in one of four ways. It gives up at once if the text has no
anchor. It gives up at the turn of a route if there is a call to reroute and the opening does not
balance like the target. It breaks off at the turn of a route if the declaration to look for is not
valid UTF-8. Otherwise it gets to the end. All offsets at which it cuts a text are in range, however
much earlier turns have changed, and whenever it gives up, the text that it was given comes back.

## Main definitions

* `Profile.TurnAt` — the turn of a route, and the text that it finds

## Main results

* `Landmarks.fits_of_locate` — a body that is located fits the text
* `Profile.attempt?_eq` — an attempt at a pass does what the pass says
* `Profile.apply_eq_error_iff` — when a pass gives up, and with which error
* `Profile.attempt?_error_iff` — all ways in which a pass gives up
* `Profile.attempt?_eq_none_iff` — when a pass breaks off
-/

namespace Reroute

open Text

/-! ### Installing the helper -/

namespace Helper

variable {h : Helper} {anchor t : Text}

theorem attempt?_eq (h : Helper) (anchor t : Text) :
    h.attempt? anchor t = handed? t (h.install anchor t) := by
  rw [attempt?, install]
  by_cases hanchor : anchor.isEmpty = true
  · simp [hanchor, handed?_error]
  · cases hcut : t.cut? anchor with
    | none => simp [hanchor, indexOf?, hcut, handed?_error]
    | some parts =>
      obtain ⟨before, after⟩ := parts
      have ht : t = before ++ anchor ++ after := by
        rw [List.append_assoc]
        exact eq_append_of_cut? hcut
      -- the cut is made behind the anchor
      have hfront : t.slice? 0 (before.length + anchor.length : Nat) = some (before ++ anchor) := by
        rw [ht, ← List.length_append, slice?_front]
      have hback : t.slice? (before.length + anchor.length : Nat) t.length = some after := by
        rw [ht, ← List.length_append, slice?_back]
      rw [if_neg hanchor, if_neg hanchor, indexOf?_of_cut? hcut]
      simp only [hfront, hback, Option.bind_eq_bind, Option.bind_some]
      split <;> rfl

theorem install_ne_malformed (h : Helper) : h.install anchor t ≠ .error .malformedSignature := by
  rw [install]
  split
  · simp
  · split <;> simp

/-- The helper is not installed just if the anchor is not found. -/
theorem install_eq_error_iff {e : PatchError} (hanchor : anchor ≠ []) :
    h.install anchor t = .error e ↔ ¬ anchor <:+: t ∧ e = .anchorMissing anchor := by
  rw [← cut?_eq_none_iff, install, if_neg (by simpa using hanchor)]
  cases hcut : t.cut? anchor with
  | none => simp [eq_comm]
  | some parts =>
    simp only [reduceCtorEq, false_and, iff_false]
    split <;> simp

end Helper

/-! ### Locating a unit -/

namespace Landmarks

variable {l : Landmarks} {name t : Text} {span : Span} {start : Nat}

theorem byteCount_append (xs ys : List Rune) :
    byteCount (xs ++ ys) = byteCount xs + byteCount ys := by
  induction xs with
  | nil => simp [byteCount]
  | cons x xs ih =>
    simp only [byteCount, List.cons_append, List.foldr_cons] at ih ⊢
    omega

theorem suffix_of_consume {cs : List Char} {rs rest : List Rune} (h : consume cs rs = some rest) :
    rest <:+ rs := by
  induction cs generalizing rs with
  | nil =>
    cases h
    exact List.suffix_rfl
  | cons c cs ih =>
    cases rs with
    | nil => cases h
    | cons r rs =>
      rw [consume] at h
      split at h
      · exact (ih h).trans (List.suffix_cons r rs)
      · cases h

theorem suffix_of_enterBody {rs body : List Rune} (h : enterBody rs = some body) : body <:+ rs := by
  cases rs with
  | nil => cases h
  | cons r rs =>
    rw [enterBody] at h
    split at h
    · cases h
    split at h
    · cases h
    · rename_i brace rest hdrop
      cases h
      have hrest : brace :: body <:+ rs := hdrop ▸ List.dropWhile_suffix _
      exact ((List.suffix_cons brace body).trans hrest).trans (List.suffix_cons r rs)

/-- What follows a signature is an end of the runes in which it was found. -/
theorem suffix_of_bodyRunes? {pattern : List Char} {rs body : List Rune}
    (h : bodyRunes? pattern rs = some body) : body <:+ rs := by
  induction rs with
  | nil => cases h
  | cons r rs ih =>
    rw [bodyRunes?] at h
    split at h
    · rename_i found hfound
      cases h
      obtain ⟨rest, hconsume, henter⟩ := Option.bind_eq_some_iff.1 hfound
      exact (suffix_of_enterBody henter).trans (suffix_of_consume hconsume)
    · exact (ih h).trans (List.suffix_cons r rs)

/-- What follows a signature has no more bytes than the text. -/
theorem byteCount_le_length {pattern : List Char} {body : List Rune}
    (h : bodyRunes? pattern t.runes = some body) : byteCount body ≤ t.length := by
  obtain ⟨front, hfront⟩ := suffix_of_bodyRunes? h
  rw [← byteCount_runes t, ← hfront, byteCount_append]
  exact Nat.le_add_left _ _

theorem spanFrom?_eq (h : start ≤ t.length) :
    l.spanFrom? start t = some (l.spanFrom start t) := by
  have hfits : (⟨start, start⟩ : Span).Fits t := ⟨by simp, Int.le_refl _, by simpa using h⟩
  have hslice : t.slice? start t.length = some (t.drop start) := (slice?_of_fits hfits).2.2
  rw [spanFrom?, spanFrom]
  by_cases hnext : l.nextUnit.isEmpty = true
  · simp [hnext]
  · rw [if_neg hnext, if_neg hnext]
    simp only [hslice, Option.bind_eq_bind, Option.bind_some]
    cases Text.indexOf? (t.drop start) l.nextUnit <;> rfl

theorem fits_spanFrom (h : start ≤ t.length) : (l.spanFrom start t).Fits t := by
  rw [spanFrom]
  split
  · exact ⟨by simp, by simpa using h, Int.le_refl _⟩
  · rename_i i hfound
    -- the mark is looked for behind `start` only
    have hi : i ≤ t.length - start := by
      split at hfound
      · cases hfound
      · obtain ⟨⟨before, after⟩, hcut, rfl⟩ := Option.map_eq_some_iff.1 hfound
        rw [← List.length_drop, eq_append_of_cut? hcut, List.length_append]
        exact Nat.le_add_right _ _
    refine ⟨by simp, ?_, ?_⟩
    · simp only
      omega
    · simp only
      omega

/-- A body that is located fits the text. -/
theorem fits_of_locate (h : l.locate name t = .ok span) : span.Fits t := by
  rw [locate] at h
  split at h
  · cases h
  split at h
  · cases h
  split at h
  · cases h
  · cases h
    exact fits_spanFrom (Nat.sub_le _ _)

/-- A unit is not located because it has no name, no signature can be formed, or none is found. -/
theorem locate_eq_error_iff {e : PatchError} :
    l.locate name t = .error e ↔
      name = [] ∧ e = .unitUnnamed ∨
        name ≠ [] ∧ (l.declaration ++ name).isUtf8 = false ∧ e = .malformedSignature ∨
        name ≠ [] ∧ (l.declaration ++ name).isUtf8 = true ∧ e = .unitMissing name ∧
          bodyRunes? ((l.declaration ++ name).chars ++ ['(']) t.runes = none := by
  rw [locate]
  by_cases hname : name = []
  · simp [hname, eq_comm (a := e)]
  · cases hutf8 : (l.declaration ++ name).isUtf8 with
    | false => simp [hname, eq_comm (a := e)]
    | true =>
      cases bodyRunes? ((l.declaration ++ name).chars ++ ['(']) t.runes with
      | none => simp [hname, eq_comm (a := e)]
      | some body => simp [hname]

theorem attempt?_eq (l : Landmarks) (name t : Text) :
    l.attempt? name t = formed? (l.locate name t) := by
  rw [attempt?, locate, signature?]
  by_cases hname : name.isEmpty = true
  · simp [hname, formed?]
  · cases hutf8 : (l.declaration ++ name).isUtf8 with
    | false => simp [hname, formed?]
    | true =>
      simp only [hname, if_false, if_true, Bool.not_true, Bool.false_eq_true, Option.bind_eq_bind,
        Option.bind_some]
      cases hbody : bodyRunes? ((l.declaration ++ name).chars ++ ['(']) t.runes with
      | none => rfl
      | some body =>
        -- no more than the text is left behind the signature
        have hle := byteCount_le_length hbody
        have hstart : (t.length : Int) - byteCount body = (t.length - byteCount body : Nat) := by
          omega
        simp only [hstart, spanFrom?_eq (Nat.sub_le _ _)]
        rfl

end Landmarks

/-- A table has the routes that it is made of. -/
theorem RouteTable.routes_of_ofList {routes : List Route} {table : RouteTable}
    (h : ofList routes = .ok table) : table.routes = routes := by
  rw [ofList] at h
  split at h
  · cases h
  split at h
  · cases h
  · cases h
    rfl

namespace Profile

variable {p : Profile} {r : Route} {rs : List Route} {t now out : Text} {e : PatchError}
  {u : UnitOutcome}

/-! ### The turn of a route -/

/-- The lines of offsets inside of a text can be told. -/
theorem mapM_lineOf? {sites : List Nat} (h : ∀ site ∈ sites, site ≤ out.length) :
    (sites.mapM fun site : Nat => lineOf? out site) = some (sites.map (lineOf out)) := by
  induction sites with
  | nil => rfl
  | cons site sites ih =>
    have hsite : lineOf? out site = some (lineOf out site) := by
      have := h site List.mem_cons_self
      rw [lineOf?, if_pos (by omega), Int.toNat_natCast]
    rw [List.mapM_cons, hsite, ih fun s hs => h s (List.mem_cons_of_mem site hs)]
    rfl

/-- The offsets of the helper calls lie inside of the new text. -/
theorem le_length_of_apply {c : CallRule} {span : Span} {sites : List Nat}
    (h : c.apply t span r = .ok (out, sites)) : ∀ site ∈ sites, site ≤ out.length := by
  have hfit := CallRule.fits_of_apply h
  by_cases hc : c.target = []
  · rw [CallRule.apply_of_target_nil hfit hc] at h
    cases h
    simp
  · obtain ⟨-, rfl, rfl⟩ := (CallRule.apply_eq_ok_iff hfit hc).1 h
    intro site hsite
    -- an opening starts there, so the text has not come to its end
    obtain ⟨x, y, hjoin, rfl⟩ := CallRule.exists_of_mem_siteOffsets hsite
    obtain ⟨-, hle, hstop⟩ := hfit
    rw [CallRule.reroute, hjoin, Span.before]
    simp only [List.length_append, List.length_take]
    omega

/-- An attempt at a turn does what the turn says. -/
theorem turn?_eq (p : Profile) (r : Route) (now : Text) :
    p.turn? r now = handed? now (p.patchUnit r now) := by
  rw [turn?, patchUnit, Landmarks.attempt?_eq]
  cases hlocate : p.landmarks.locate r.name now with
  | error e =>
    by_cases hmalformed : e = .malformedSignature
    · subst hmalformed
      rfl
    · rw [formed?_of_ne (by simpa using hmalformed)]
      simp only [Option.bind_eq_bind, Option.bind_some]
      split
      · rfl
      · rw [handed?_error hmalformed]
        rfl
  | ok span =>
    rw [formed?_of_ne (by simp)]
    simp only [Option.bind_eq_bind, Option.bind_some, CallRule.attempt?_eq]
    cases happly : p.callRule.apply now span r with
    | error e =>
      -- rerouting can be refused, but it forms no signature
      have hne : e ≠ .malformedSignature := by
        rintro rfl
        exact CallRule.apply_ne_malformed _ _ _ _ happly
      simp only [handed?_error hne, Option.bind_some]
      rfl
    | ok done =>
      obtain ⟨out, sites⟩ := done
      simp only [handed?_ok, Option.bind_some, mapM_lineOf? (le_length_of_apply happly), outcome,
        List.map_map]
      rfl

/-- A turn fails because no signature can be formed, or because there is a call in the body of the
unit and the opening does not balance like the target. -/
theorem patchUnit_eq_error_iff (htarget : p.target ≠ []) (hname : r.name ≠ []) :
    p.patchUnit r now = .error e ↔
      (p.declaration ++ r.name).isUtf8 = false ∧ e = .malformedSignature ∨
        ∃ span, p.landmarks.locate r.name now = .ok span ∧ p.target <:+: span.body now ∧
          Balance.ofText (p.callRule.opening r) ≠ Balance.ofText p.target ∧
          e = .unbalanced r.name (Balance.ofText (span.body now))
            (Balance.ofText (p.callRule.reroute r (span.body now))) := by
  rw [patchUnit]
  cases hlocate : p.landmarks.locate r.name now with
  | error e' =>
    -- a unit that is not found is passed over
    rcases Landmarks.locate_eq_error_iff.1 hlocate with
      ⟨hnil, -⟩ | ⟨-, hutf8, rfl⟩ | ⟨-, hutf8, rfl, -⟩
    · exact absurd hnil hname
    · have hutf8' : (p.declaration ++ r.name).isUtf8 = false := hutf8
      simp [PatchError.isSkippable, hutf8', eq_comm (a := e)]
    · have hutf8' : (p.declaration ++ r.name).isUtf8 = true := hutf8
      simp [PatchError.isSkippable, hutf8']
  | ok span =>
    -- a unit that is found has a signature
    have hutf8 : (p.declaration ++ r.name).isUtf8 = true := by
      by_contra hfalse
      have herror := Landmarks.locate_eq_error_iff (l := p.landmarks) (t := now).2
        (.inr (.inl ⟨hname, Bool.eq_false_of_not_eq_true hfalse, rfl⟩))
      rw [hlocate] at herror
      cases herror
    have hrefused := CallRule.apply_eq_error_iff (c := p.callRule) (r := r) (e := e)
      (Landmarks.fits_of_locate hlocate) htarget
    simp only [hutf8, Bool.true_eq_false, false_and, false_or, Except.ok.injEq, exists_eq_left']
    refine Iff.trans ?_ hrefused
    cases p.callRule.apply now span r with
    | error e' => simp
    | ok done => simp

/-! ### The turns of routes -/

private theorem map_eq_error_iff {α β : Type} {f : α → β} {answer : Except PatchError α} :
    answer.map f = .error e ↔ answer = .error e := by
  cases answer <;> simp [Except.map]

theorem patchUnits_cons_of_error (h : p.patchUnit r t = .error e) :
    p.patchUnits (r :: rs) t = ⟨[], .error e⟩ := by
  rw [patchUnits, h]

theorem patchUnits_cons_of_ok (h : p.patchUnit r t = .ok (out, u)) :
    p.patchUnits (r :: rs) t =
      ⟨u.log ++ (p.patchUnits rs out).log,
        (p.patchUnits rs out).result.map fun done => (done.1, u :: done.2)⟩ := by
  rw [patchUnits, h]

/-- The turns of routes fail with the error of the first turn that fails. -/
theorem patchUnits_eq_error_iff :
    (p.patchUnits rs t).result = .error e ↔
      ∃ done r rest now us, rs = done ++ r :: rest ∧
        (p.patchUnits done t).result = .ok (now, us) ∧ p.patchUnit r now = .error e := by
  induction rs generalizing t with
  | nil => simp [patchUnits]
  | cons r rs ih =>
    cases hturn : p.patchUnit r t with
    | error e' =>
      rw [patchUnits_cons_of_error hturn]
      constructor
      · intro h
        cases h
        exact ⟨[], r, rs, t, [], rfl, rfl, hturn⟩
      · rintro ⟨done, r', rest, now, us, hsplit, hdone, hfail⟩
        cases done with
        | nil =>
          obtain ⟨rfl, -⟩ := List.cons.inj hsplit
          cases hdone
          rw [hturn] at hfail
          cases hfail
          rfl
        | cons _ done =>
          -- the turns before it would not have gone through
          obtain ⟨rfl, -⟩ := List.cons.inj hsplit
          rw [patchUnits_cons_of_error hturn] at hdone
          cases hdone
    | ok next =>
      obtain ⟨out, u⟩ := next
      rw [patchUnits_cons_of_ok hturn]
      simp only [map_eq_error_iff, ih]
      constructor
      · rintro ⟨done, r', rest, now, us, rfl, hdone, hfail⟩
        refine ⟨r :: done, r', rest, now, u :: us, rfl, ?_, hfail⟩
        rw [patchUnits_cons_of_ok hturn, hdone]
        rfl
      · rintro ⟨done, r', rest, now, us, hsplit, hdone, hfail⟩
        cases done with
        | nil =>
          obtain ⟨rfl, -⟩ := List.cons.inj hsplit
          cases hdone
          rw [hturn] at hfail
          cases hfail
        | cons _ done =>
          obtain ⟨rfl, rfl⟩ := List.cons.inj hsplit
          rw [patchUnits_cons_of_ok hturn] at hdone
          cases hrest : (p.patchUnits done out).result with
          | error e' =>
            rw [hrest] at hdone
            cases hdone
          | ok last =>
            rw [hrest] at hdone
            cases hdone
            exact ⟨done, r', rest, _, _, rfl, hrest, hfail⟩

/-- An attempt at the turns of routes does what the turns say. A copy that is left behind by a turn
that has failed is not looked at. -/
theorem work?_eq (p : Profile) (rs : List Route) (now : Text) :
    (p.work? rs now).map (fun done => (done.1, done.2.result.map fun us => (done.2.text, us))) =
      (formed? (p.patchUnits rs now).result).map ((p.patchUnits rs now).log, ·) := by
  induction rs generalizing now with
  | nil => rfl
  | cons r rs ih =>
    rw [work?, turn?_eq]
    cases hturn : p.patchUnit r now with
    | error e =>
      rw [patchUnits_cons_of_error hturn]
      by_cases hmalformed : e = .malformedSignature
      · subst hmalformed
        rfl
      · rw [handed?_error hmalformed, formed?_of_ne (by simpa using hmalformed)]
        rfl
    | ok next =>
      obtain ⟨out, u⟩ := next
      -- the outcome of this turn is put in front of those that follow
      have hmap := congrArg (Option.map fun done : List Text × Except PatchError _ =>
        (u.log ++ done.1, done.2.map fun last : Text × List UnitOutcome => (last.1, u :: last.2)))
        (ih out)
      rw [patchUnits_cons_of_ok hturn, formed?_map]
      simp only [handed?_ok, Option.bind_eq_bind, Option.bind_some, Option.map_map] at hmap ⊢
      refine Eq.trans ?_ hmap
      cases p.work? rs out with
      | none => rfl
      | some done =>
        obtain ⟨log, text, result⟩ := done
        cases result <;> rfl

/-! ### Passes -/

/-- An attempt at a pass does what the pass says. With an error it hands back the text that it was
given. -/
theorem attempt?_eq (p : Profile) (t : Text) :
    p.attempt? t = (handed? t (p.apply t).result).map ((p.apply t).log, ·) := by
  rw [attempt?, apply, Helper.attempt?_eq]
  cases hinstall : p.helper.install p.anchor t with
  | error e =>
    have hne : e ≠ .malformedSignature := by
      rintro rfl
      exact p.helper.install_ne_malformed hinstall
    simp only [handed?_error hne]
    rfl
  | ok next =>
    obtain ⟨start, installed⟩ := next
    have hwork := p.work?_eq p.routes start
    simp only [handed?_ok, Option.bind_eq_bind, Option.bind_some]
    cases hdone : p.work? p.routes start with
    | none =>
      rw [hdone, Option.map_none, eq_comm, Option.map_eq_none_iff, formed?_eq_none_iff] at hwork
      rw [hwork]
      rfl
    | some done =>
      obtain ⟨log, text, result⟩ := done
      rw [hdone, Option.map_some, eq_comm, Option.map_eq_some_iff] at hwork
      obtain ⟨answer, hanswer, hpair⟩ := hwork
      obtain ⟨hresult, hne⟩ := formed?_eq_some_iff.1 hanswer
      obtain ⟨hlog, rfl⟩ := Prod.mk.inj hpair
      rw [hlog, hresult]
      cases result with
      | error e =>
        rw [hresult] at hne
        have hne' : e ≠ .malformedSignature := by
          rintro rfl
          exact hne rfl
        simp only [Except.map, handed?_error hne', Option.bind_some, Option.map_some]
        rfl
      | ok units => rfl

/-- The turn of a route comes, and it finds the text `now`: the helper was installed, and the turns
before it have gone through and have left that text. -/
def TurnAt (p : Profile) (t : Text) (r : Route) (now : Text) : Prop :=
  ∃ start installed done rest us, p.helper.install p.anchor t = .ok (start, installed) ∧
    p.routes = done ++ r :: rest ∧ (p.patchUnits done start).result = .ok (now, us)

theorem TurnAt.mem_routes (h : p.TurnAt t r now) : r ∈ p.routes := by
  obtain ⟨-, -, done, rest, -, -, hroutes, -⟩ := h
  rw [hroutes]
  simp

theorem exists_table_of_validate (h : p.validate = .ok ()) : ∃ table, p.table = .ok table := by
  simp only [validate] at h
  split_ifs at h
  split at h
  · cases h
  split at h
  · cases h
  · rename_i table htable
    exact ⟨table, htable⟩

/-- What an accepted profile has: an anchor, a target, and a name for every route. -/
theorem required_of_validate (h : p.validate = .ok ()) :
    p.anchor ≠ [] ∧ p.target ≠ [] ∧ ∀ r ∈ p.routes, r.name ≠ [] := by
  refine ⟨?_, target_ne_nil_of_validate h, ?_⟩
  · intro hanchor
    simp [validate, hanchor] at h
  · intro r hr hname
    obtain ⟨table, htable⟩ := exists_table_of_validate h
    have hnamed := table.named r (RouteTable.routes_of_ofList htable ▸ hr)
    rw [hname] at hnamed
    simp [isBlankText] at hnamed

/-- The standard profile is accepted. -/
theorem validate_standard : standard.validate = .ok () := by decide +kernel

/-- When a pass of an accepted profile fails, and with which error. -/
theorem apply_eq_error_iff (haccept : p.validate = .ok ()) :
    (p.apply t).result = .error e ↔
      ¬ p.anchor <:+: t ∧ e = .anchorMissing p.anchor ∨
        ∃ r now, p.TurnAt t r now ∧
          ((p.declaration ++ r.name).isUtf8 = false ∧ e = .malformedSignature ∨
            ∃ span, p.landmarks.locate r.name now = .ok span ∧ p.target <:+: span.body now ∧
              Balance.ofText (p.callRule.opening r) ≠ Balance.ofText p.target ∧
              e = .unbalanced r.name (Balance.ofText (span.body now))
                (Balance.ofText (p.callRule.reroute r (span.body now)))) := by
  obtain ⟨hanchor, htarget, hnames⟩ := required_of_validate haccept
  -- either the helper is not installed, or the turn of some route fails
  have hfail : (p.apply t).result = .error e ↔
      p.helper.install p.anchor t = .error e ∨
        ∃ r now, p.TurnAt t r now ∧ p.patchUnit r now = .error e := by
    rw [apply]
    cases hinstall : p.helper.install p.anchor t with
    | error e' =>
      simp [TurnAt, hinstall]
    | ok next =>
      obtain ⟨start, installed⟩ := next
      simp only [map_eq_error_iff, patchUnits_eq_error_iff, reduceCtorEq, false_or]
      constructor
      · rintro ⟨done, r, rest, now, us, hroutes, hdone, hturn⟩
        exact ⟨r, now, ⟨start, installed, done, rest, us, hinstall, hroutes, hdone⟩, hturn⟩
      · rintro ⟨r, now, ⟨start', installed', done, rest, us, hinstall', hroutes, hdone⟩, hturn⟩
        rw [hinstall] at hinstall'
        cases hinstall'
        exact ⟨done, r, rest, now, us, hroutes, hdone, hturn⟩
  rw [hfail, Helper.install_eq_error_iff hanchor]
  refine or_congr_right (exists_congr fun r => exists_congr fun now => ?_)
  refine and_congr_right fun hturn => ?_
  exact patchUnit_eq_error_iff htarget (hnames r hturn.mem_routes)

/-- An attempt that does not break off has the errors of the pass, and with each of them it hands
back the text that it was given. -/
theorem error_of_attempt? {log : List Text} {done : Handover Report}
    (h : p.attempt? t = some (log, done)) :
    (done.result = .error e ↔ (p.apply t).result = .error e) ∧
      (done.result = .error e → e ≠ .malformedSignature ∧ done.text = t) := by
  rw [attempt?_eq, Option.map_eq_some_iff] at h
  obtain ⟨⟨text, result⟩, hdone, hpair⟩ := h
  obtain ⟨-, rfl⟩ := Prod.mk.inj hpair
  refine ⟨⟨?_, ?_⟩, ?_⟩
  · rintro rfl
    exact (handed?_eq_error_iff.1 hdone).1
  · intro hpass
    have hne : e ≠ .malformedSignature := by
      rintro rfl
      rw [handed?_eq_none_iff.2 hpass] at hdone
      cases hdone
    rw [hpass, handed?_error hne] at hdone
    cases hdone
    rfl
  · rintro rfl
    exact (handed?_eq_error_iff.1 hdone).2

/-! ### All ways to fail -/

/-- A pass of an accepted profile that does not break off gives up for the missing anchor just if
the text lacks the anchor. With the anchor, it gives up for the balance just if the turn of some
route finds a call in the body of its unit, and the opening does not balance like the target. There
is no other error, and with every error the text comes back as it was. -/
theorem attempt?_error_iff {p : Profile} (haccept : p.validate = .ok ()) {t : Text}
    {log : List Text} {done : Handover Report} (h : p.attempt? t = some (log, done)) :
    ((∃ anchor, done.result = .error (.anchorMissing anchor)) ↔ ¬ p.anchor <:+: t) ∧
    (p.anchor <:+: t →
      ((∃ unit before after, done.result = .error (.unbalanced unit before after)) ↔
        ∃ r now span, p.TurnAt t r now ∧ p.landmarks.locate r.name now = .ok span ∧
          p.target <:+: span.body now ∧
          Balance.ofText (p.callRule.opening r) ≠ Balance.ofText p.target)) ∧
    (∀ e, done.result = .error e →
      ((∃ anchor, e = .anchorMissing anchor) ∨
        ∃ unit before after, e = .unbalanced unit before after) ∧ done.text = t) := by
  have herror : ∀ e, done.result = .error e ↔ (p.apply t).result = .error e :=
    fun e => (error_of_attempt? h).1
  simp only [apply_eq_error_iff haccept] at herror
  refine ⟨?_, fun hanchor => ?_, fun e he => ?_⟩
  · simp only [herror]
    constructor
    · rintro ⟨anchor, ⟨hmissing, -⟩ | ⟨r, now, -, ⟨-, he⟩ | ⟨span, -, -, -, he⟩⟩⟩
      · exact hmissing
      · cases he
      · cases he
    · intro hmissing
      exact ⟨p.anchor, .inl ⟨hmissing, rfl⟩⟩
  · simp only [herror]
    constructor
    · rintro ⟨unit, before, after, ⟨hmissing, -⟩ | ⟨r, now, hturn, ⟨-, he⟩ |
        ⟨span, hlocate, hin, hbalance, -⟩⟩⟩
      · exact absurd hanchor hmissing
      · cases he
      · exact ⟨r, now, span, hturn, hlocate, hin, hbalance⟩
    · rintro ⟨r, now, span, hturn, hlocate, hin, hbalance⟩
      exact ⟨_, _, _, .inr ⟨r, now, hturn, .inr ⟨span, hlocate, hin, hbalance, rfl⟩⟩⟩
  · -- the error at which a run breaks off is not handed back
    obtain ⟨hne, htext⟩ := (error_of_attempt? h).2 he
    refine ⟨?_, htext⟩
    rcases (herror e).1 he with ⟨-, rfl⟩ | ⟨r, now, -, ⟨-, rfl⟩ | ⟨span, -, -, -, rfl⟩⟩
    · exact .inl ⟨_, rfl⟩
    · exact absurd rfl hne
    · exact .inr ⟨_, _, _, rfl⟩

/-- The first route has rerouted its call in the working copy when the second one fails on its own,
whose summary closes a bracket too many. -/
theorem attempt?_error_iff_second_turn :
    let p : Profile := ⟨"use A;", ⟨"log", "fn log(", "fn log(x);"⟩, "fn ", "fn ", "ok(",
      [⟨"f", "c", "p", "1"⟩, ⟨"g", "c", "q", "2)"⟩]⟩
    let t : Text := "use A; fn f() \x7bok(1)\x7d fn g() \x7bok(2)\x7d"
    p.validate = .ok () ∧
    p.attempt? t = some ([], ⟨t, .error (.unbalanced "g" ⟨0, 0, -1⟩ ⟨-1, 0, -1⟩)⟩) ∧
    ∃ r now span, p.TurnAt t r now ∧ p.landmarks.locate r.name now = .ok span ∧
      p.target <:+: span.body now ∧
      Balance.ofText (p.callRule.opening r) ≠ Balance.ofText p.target := by
  intro p t
  have haccept : p.validate = .ok () := by decide +kernel
  have hrun : p.attempt? t =
      some ([], ⟨t, .error (.unbalanced "g" ⟨0, 0, -1⟩ ⟨-1, 0, -1⟩)⟩) := by decide +kernel
  have hanchor : p.anchor <:+: t := by decide +kernel
  exact ⟨haccept, hrun, ((attempt?_error_iff haccept hrun).2.1 hanchor).1 ⟨_, _, _, rfl⟩⟩

/-- A pass of an accepted profile breaks off just if the turn of some route comes whose declaration
mark and name together are not valid UTF-8. So it never does if they are valid for every route: all
cuts that it makes are in range. -/
theorem attempt?_eq_none_iff {p : Profile} (haccept : p.validate = .ok ()) (t : Text) :
    p.attempt? t = none ↔
      ∃ r now, p.TurnAt t r now ∧ (p.declaration ++ r.name).isUtf8 = false := by
  rw [attempt?_eq, Option.map_eq_none_iff, handed?_eq_none_iff, apply_eq_error_iff haccept]
  constructor
  · rintro (⟨-, he⟩ | ⟨r, now, hturn, ⟨hutf8, -⟩ | ⟨span, -, -, -, he⟩⟩)
    · cases he
    · exact ⟨r, now, hturn, hutf8⟩
    · cases he
  · rintro ⟨r, now, hturn, hutf8⟩
    exact .inr ⟨r, now, hturn, .inl ⟨hutf8, rfl⟩⟩

/-- Passes of the standard profile never break off. -/
theorem standard_attempt?_ne_none :
    standard.validate = .ok () ∧ ∀ t, standard.attempt? t ≠ none := by
  refine ⟨validate_standard, fun t hnone => ?_⟩
  obtain ⟨r, now, hturn, hutf8⟩ := (attempt?_eq_none_iff validate_standard t).1 hnone
  -- its marks and names are ASCII
  have hascii : IsAscii (standard.declaration ++ r.name) :=
    (standard_separated.readable r hturn.mem_routes).ascii
  rw [Landmarks.isUtf8_of_isAscii hascii] at hutf8
  cases hutf8

/-- A profile is accepted although its declaration mark is a stray byte, and a pass breaks off at
the first turn. -/
theorem attempt?_eq_none_of_stray_mark :
    let p : Profile := ⟨"A", ⟨"h", "h(", "h()"⟩, [0xFF], "fn ", "ok(", [⟨"f", "c", "p", "s"⟩]⟩
    p.validate = .ok () ∧ p.attempt? "A" = none := by
  decide +kernel

end Profile

end Reroute
