import BracketCss.Proofs.Value.Quantity
import BracketCss.Value.Color

/-!
# The arguments of colour functions

At each place of a colour function stands a reference to a custom property or a number. The place
says which units the number may have, and the greatest number for each of them; the least is zero.
The four checks of arguments accept exactly what their place takes.

## Main definitions

* `IsReference cs`: a call of `var` without parentheses inside
* `ColorPlace`, `ColorPlace.ranges`: the places, with their units and greatest numbers
* `ColorPlace.Takes place cs`: what may stand at a place

## Main results

* `isReference_iff`: the texts that are references
* `checkChannel_eq_ok_iff`, `checkHue_eq_ok_iff`, `checkShare_eq_ok_iff`, `checkAlpha_eq_ok_iff`:
  the checks accept what the places take
* `ColorPlace.takes_strict_iff`: what is left where a percentage must stand
-/

namespace BracketCss

open Text

/-! ## References -/

/-- The name of a custom property between blanks, and perhaps a comma and a fallback without
parentheses. -/
def IsReferenceBody (cs : List Char) : Prop :=
  ∃ lead name trail fallback, cs = lead ++ (name ++ (trail ++ fallback)) ∧
    (∀ c ∈ lead, isBlank c) ∧ isCustomProperty name ∧ (∀ c ∈ trail, isBlank c) ∧
    (fallback = [] ∨ ∃ text, fallback = ',' :: text ∧ ∀ c ∈ text, c ≠ '(' ∧ c ≠ ')')

/-- A reference to a custom property: a call of `var`, in any case. -/
def IsReference (cs : List Char) : Prop :=
  ∃ called body, cs = called ++ '(' :: (body ++ [')']) ∧ called.map caseKey = "var".toList ∧
    IsReferenceBody body

theorem isNameChar_of_isCustomProperty {cs : List Char} (h : isCustomProperty cs) :
    (∃ rest, cs = '-' :: rest) ∧ ∀ c ∈ cs, isNameChar c := by
  unfold isCustomProperty at h
  split at h
  · rw [Bool.and_eq_true, List.all_eq_true] at h
    refine ⟨⟨_, rfl⟩, ?_⟩
    simp only [List.forall_mem_cons]
    exact ⟨rfl, rfl, h⟩
  · cases h

/-- Blanks in front of a text that starts with none are left out. -/
theorem trimStart_append {lead cs : List Char} (blank : ∀ c ∈ lead, isBlank c)
    (solid : ∀ c ∈ cs.head?, isBlank c = false) : trimStart (lead ++ cs) = cs := by
  rw [trimStart, List.dropWhile_append_of_pos blank]
  cases cs with
  | nil => rfl
  | cons c cs => exact List.dropWhile_cons_of_neg (Bool.eq_false_iff.1 (solid c rfl))

theorem exists_trimStart (cs : List Char) :
    ∃ lead, cs = lead ++ trimStart cs ∧ ∀ c ∈ lead, isBlank c :=
  ⟨cs.takeWhile isBlank, List.takeWhile_append_dropWhile.symm,
    fun _ hc => List.all_eq_true.1 List.all_takeWhile _ hc⟩

theorem isReferenceBody_iff {cs : List Char} : isReferenceBody cs ↔ IsReferenceBody cs := by
  rw [isReferenceBody, Bool.and_eq_true]
  constructor
  · rintro ⟨property, after⟩
    obtain ⟨lead, same, leadBlank⟩ := exists_trimStart cs
    have cut := Scan.takeWhile_append_drop isNameChar (trimStart cs)
    generalize (trimStart cs).takeWhile isNameChar = name at property after cut
    generalize (trimStart cs).drop name.length = rest at after cut
    obtain ⟨trail, trailed, trailBlank⟩ := exists_trimStart rest
    refine ⟨lead, name, trail, trimStart rest, ?_, leadBlank, property, trailBlank, ?_⟩
    · rw [← trailed, cut, ← same]
    · split at after
      · next none_ => exact .inl none_
      · next fallback found =>
        rw [List.all_eq_true] at after
        refine .inr ⟨fallback, found, fun c hc => ?_⟩
        simpa using after c hc
      · cases after
  · rintro ⟨lead, name, trail, fallback, rfl, leadBlank, property, trailBlank, last⟩
    obtain ⟨⟨others, hyphen⟩, chars⟩ := isNameChar_of_isCustomProperty property
    have comma : ∀ c ∈ fallback.head?, c = ',' := by
      rcases last with rfl | ⟨text, rfl, -⟩
      · exact fun c hc => by cases hc
      · exact fun c hc => (Option.some.inj hc).symm
    have stop : ∀ c ∈ (trail ++ fallback).head?, isNameChar c = false := by
      intro c hc
      rw [← Bool.not_eq_true]
      intro nameChar
      cases trail with
      | nil =>
        obtain rfl := comma c hc
        exact absurd nameChar (by decide)
      | cons d trail =>
        obtain rfl : d = c := Option.some.inj hc
        have solid := isBlank_of_isNameChar nameChar
        rw [trailBlank d List.mem_cons_self] at solid
        cases solid
    have start : trimStart (lead ++ (name ++ (trail ++ fallback))) = name ++ (trail ++ fallback) :=
      trimStart_append leadBlank fun c hc => by
        rw [hyphen] at hc
        obtain rfl : '-' = c := Option.some.inj hc
        decide
    have rest : trimStart (trail ++ fallback) = fallback :=
      trimStart_append trailBlank fun c hc => by
        rw [comma c hc]
        decide
    rw [start, takeWhile_append_of_stop chars stop, List.drop_left, rest]
    refine ⟨property, ?_⟩
    rcases last with rfl | ⟨text, rfl, plain⟩
    · rfl
    · simpa using plain

/-- **The references** are the calls of `var` with the name of a custom property. -/
theorem isReference_iff {cs : List Char} : isReference cs ↔ IsReference (trim cs) := by
  unfold isReference IsReference
  constructor
  · intro h
    split at h
    · next v a r rest same =>
      simp only [Bool.and_eq_true, beq_iff_eq] at h
      obtain ⟨⟨called, last⟩, body⟩ := h
      refine ⟨[v, a, r], rest.dropLast, ?_, called, isReferenceBody_iff.1 body⟩
      rw [same, List.dropLast_append_getLast? ')' last]
      rfl
    · cases h
  · rintro ⟨called, body, same, spelled, parts⟩
    obtain ⟨v, a, r, rfl⟩ : ∃ v a r, called = [v, a, r] := by
      apply List.length_eq_three.1
      rw [← List.length_map caseKey, spelled]
      rfl
    rw [same]
    simp only [List.cons_append, List.nil_append, List.getLast?_concat, List.dropLast_concat]
    rw [isReferenceBody_iff.2 parts, spelled]
    rfl

theorem isAsciiLetter_of_caseKey {c : Char} (h : caseKey c = 'v') : isAsciiLetter c := by
  unfold caseKey at h
  split at h
  · next upper => simp [isAsciiLetter, upper]
  · split at h
    · cases h
    · split at h
      · cases h
      · split at h
        · cases h
        · rw [h]
          rfl

/-- A reference starts with a letter, so it is no number. -/
theorem IsReference.not_isQuantityOf {cs : List Char} (h : IsReference cs)
    {value : Rat} {unit : String} : ¬ IsQuantityOf cs value unit := by
  obtain ⟨called, body, rfl, spelled, -⟩ := h
  rintro ⟨sign, numeral, written, same, signs, form, -⟩
  obtain ⟨v, others, rfl⟩ : ∃ v others, called = v :: others := by
    cases called with
    | nil => cases spelled
    | cons v others => exact ⟨v, others, rfl⟩
  obtain ⟨c, rest, rfl, starts⟩ := startsNumber_of_head form
  have letter : isAsciiLetter v := isAsciiLetter_of_caseKey (List.cons.inj spelled).1
  simp only [List.mem_cons, List.not_mem_nil, or_false] at signs
  rcases signs with rfl | rfl | rfl
  · obtain rfl : v = c := (List.cons.inj same).1
    rw [not_startsNumber_of_isAsciiLetter letter] at starts
    cases starts
  · obtain rfl : v = '-' := (List.cons.inj same).1
    cases letter
  · obtain rfl : v = '+' := (List.cons.inj same).1
    cases letter

/-! ## Places -/

/-- The places of arguments; a share is a saturation or a lightness, and where it is strict a
percentage must stand. -/
inductive ColorPlace where
  /-- Red, green or blue. -/
  | channel
  /-- The hue. -/
  | hue
  /-- The saturation or the lightness. -/
  | share (strict : Bool)
  /-- The alpha value. -/
  | alpha

namespace ColorPlace

/-- The units that a number may have at a place, each with its greatest number. -/
def ranges : ColorPlace → List (String × Rat)
  | channel => [("", 255), ("%", 100)]
  | hue => [("", 360), ("deg", 360), ("grad", 400), ("rad", 62832 / 10000), ("turn", 1)]
  | share true => [("%", 100)]
  | share false => [("", 100), ("%", 100)]
  | alpha => [("", 1), ("%", 100)]

/-- A number with a unit of a place, from zero to the greatest number. -/
def Holds (place : ColorPlace) (value : Rat) (unit : String) : Prop :=
  ∃ high, (unit, high) ∈ place.ranges ∧ 0 ≤ value ∧ value ≤ high

/-- What may stand at a place: a reference, or a number in the range of its unit. -/
def Takes (place : ColorPlace) (cs : List Char) : Prop :=
  IsReference cs ∨ ∃ value unit, IsQuantityOf cs value unit ∧ place.Holds value unit

variable {place : ColorPlace} {cs : List Char}

/-- What a place takes, in terms of what is read. -/
theorem takes_trim_iff : place.Takes (trim cs) ↔ isReference cs ∨
    ∃ d, Dimension.ofChars? cs = some d ∧ place.Holds d.number.toRat d.unit := by
  rw [Takes, isReference_iff]
  apply or_congr_right
  constructor
  · rintro ⟨value, unit, quantity, holds⟩
    obtain ⟨d, read, rfl, rfl⟩ := Dimension.exists_ofChars?_iff.2 quantity
    exact ⟨d, read, holds⟩
  · rintro ⟨d, read, holds⟩
    exact ⟨_, _, Dimension.exists_ofChars?_iff.1 ⟨d, read, rfl, rfl⟩, holds⟩

/-- A check that lets references pass and judges numbers accepts what the place takes. -/
theorem takes_iff_of_check {check : Except ColorFault Unit} {fault : ColorFault}
    {verdict : Dimension → Except ColorFault Unit}
    (reference : isReference cs → check = .ok ())
    (unread : isReference cs = false → Dimension.ofChars? cs = none → check = .error fault)
    (read : isReference cs = false → ∀ d, Dimension.ofChars? cs = some d → check = verdict d)
    (judged : ∀ d, verdict d = .ok () ↔ place.Holds d.number.toRat d.unit) :
    check = .ok () ↔ place.Takes (trim cs) := by
  rw [takes_trim_iff]
  cases isRef : isReference cs with
  | true => exact iff_of_true (reference isRef) (.inl rfl)
  | false =>
    cases found : Dimension.ofChars? cs with
    | none =>
      rw [unread isRef found]
      simp
    | some d =>
      rw [read isRef d found, judged d]
      simp

end ColorPlace

/-! ## Checks -/

theorem ite_error_eq_ok_iff {p : Prop} [Decidable p] {fault : ColorFault} :
    (if p then .ok () else .error fault : Except ColorFault Unit) = .ok () ↔ p := by
  split
  · next holds => exact iff_of_true rfl holds
  · next fails => exact iff_of_false nofun fails

theorem isWithin_bound_iff {d high : Decimal} :
    d.isWithin (bound 0) (some high) ↔ 0 ≤ d.toRat ∧ d.toRat ≤ high.toRat := by
  rw [Decimal.isWithin_iff, bound]
  simp [Decimal.toRat_ofNat]

theorem isWithin_bound_bound_iff {d : Decimal} {limit : Nat} :
    d.isWithin (bound 0) (bound limit) ↔ 0 ≤ d.toRat ∧ d.toRat ≤ limit := by
  rw [← Decimal.toRat_ofNat limit]
  exact isWithin_bound_iff

/-- The verdict on a percentage, and another one on other numbers. -/
theorem percentageOr_eq_ok_iff {d : Dimension} {what : String} {other : Except ColorFault Unit} :
    (if d.isPercentage then checkPercentage d what else other) = .ok () ↔
      (d.unit = "%" ∧ 0 ≤ d.number.toRat ∧ d.number.toRat ≤ 100) ∨
        (d.unit ≠ "%" ∧ other = .ok ()) := by
  by_cases percentage : d.unit = "%"
  · have accepted := @isWithin_bound_bound_iff d.number 100
    rw [Nat.cast_ofNat] at accepted
    rw [if_pos (by simp [Dimension.isPercentage, percentage]), checkPercentage,
      ite_error_eq_ok_iff, accepted]
    simp [percentage]
  · rw [if_neg (by simp [Dimension.isPercentage, percentage])]
    simp [percentage]

/-- The verdict on a percentage, or on a number without unit up to a limit. -/
theorem percentageOrNumber_eq_ok_iff {d : Dimension} {what : String} {limit : Nat}
    {hasUnit outside : ColorFault} :
    (if d.isPercentage then checkPercentage d what
      else if !d.isUnitless then .error hasUnit
      else if d.number.isWithin (bound 0) (bound limit) then .ok ()
      else .error outside) = .ok () ↔
    ∃ high, (d.unit, high) ∈ [("", (limit : Rat)), ("%", 100)] ∧ 0 ≤ d.number.toRat ∧
      d.number.toRat ≤ high := by
  rw [percentageOr_eq_ok_iff]
  by_cases unitless : d.unit = ""
  · rw [if_neg (by simp [Dimension.isUnitless, unitless]), ite_error_eq_ok_iff,
      isWithin_bound_bound_iff]
    simp [unitless]
  · rw [if_pos (by simp [Dimension.isUnitless, unitless])]
    simp [unitless]

/-- With distinct keys, the value found for a key is the one listed with it. -/
theorem lookup_eq_some_iff_mem {α : Type} {table : List (String × α)}
    (distinct : (table.map Prod.fst).Nodup) {key : String} {value : α} :
    table.lookup key = some value ↔ (key, value) ∈ table := by
  induction table with
  | nil => simp
  | cons entry table ih =>
    obtain ⟨first, others⟩ := List.nodup_cons.1 distinct
    rw [List.lookup_cons, List.mem_cons]
    cases same : key == entry.1 with
    | true =>
      obtain rfl := eq_of_beq same
      have elsewhere : (entry.1, value) ∉ table := fun mem =>
        first (List.mem_map.2 ⟨_, mem, rfl⟩)
      simp [elsewhere, Prod.ext_iff, eq_comm]
    | false =>
      have other : key ≠ entry.1 := ne_of_beq_false same
      simp [ih others, Prod.ext_iff, other]

/-- The table of hues has the greatest numbers that the place has. -/
theorem ranges_hue :
    ColorPlace.hue.ranges = greatestHues.map fun entry => (entry.1, entry.2.toRat) := by
  have radians : Decimal.toRat ⟨false, 62832, -4⟩ = 62832 / 10000 := by
    rw [Decimal.toRat_eq]
    norm_num [Decimal.signed]
  simp [ColorPlace.ranges, greatestHues, Decimal.toRat_ofNat, radians]

section Checks

variable {cs : List Char}

theorem checkChannel_eq_ok_iff :
    checkChannel cs = .ok () ↔ ColorPlace.channel.Takes (trim cs) := by
  apply ColorPlace.takes_iff_of_check
  · intro isRef
    rw [checkChannel, if_pos isRef]
  · intro isRef unread
    simp only [checkChannel, isRef, unread]
    rfl
  · intro isRef d read
    simp only [checkChannel, isRef, read]
    rfl
  · exact fun d => percentageOrNumber_eq_ok_iff

theorem checkAlpha_eq_ok_iff : checkAlpha cs = .ok () ↔ ColorPlace.alpha.Takes (trim cs) := by
  apply ColorPlace.takes_iff_of_check
  · intro isRef
    rw [checkAlpha, if_pos isRef]
  · intro isRef unread
    simp only [checkAlpha, isRef, unread]
    rfl
  · intro isRef d read
    simp only [checkAlpha, isRef, read]
    rfl
  · exact fun d => percentageOrNumber_eq_ok_iff

theorem checkShare_eq_ok_iff {what : String} {strict : Bool} :
    checkShare what strict cs = .ok () ↔ (ColorPlace.share strict).Takes (trim cs) := by
  apply ColorPlace.takes_iff_of_check
  · intro isRef
    rw [checkShare, if_pos isRef]
  · intro isRef unread
    simp only [checkShare, isRef, unread]
    rfl
  · intro isRef d read
    simp only [checkShare, isRef, read]
    rfl
  · intro d
    cases strict with
    | false => exact percentageOrNumber_eq_ok_iff
    | true =>
      refine percentageOr_eq_ok_iff.trans ?_
      simp [ColorPlace.Holds, ColorPlace.ranges]

theorem checkHue_eq_ok_iff : checkHue cs = .ok () ↔ ColorPlace.hue.Takes (trim cs) := by
  apply ColorPlace.takes_iff_of_check
  · intro isRef
    rw [checkHue, if_pos isRef]
  · intro isRef unread
    simp only [checkHue, isRef, unread]
    rfl
  · intro isRef d read
    simp only [checkHue, isRef, read]
    rfl
  · intro d
    rw [ColorPlace.Holds, ranges_hue]
    cases found : greatestHues.lookup d.unit with
    | none =>
      have unknown : ∀ high, (d.unit, high) ∉ greatestHues := by
        intro high entry
        rw [(lookup_eq_some_iff_mem (by decide)).2 entry] at found
        cases found
      simp [unknown]
    | some high =>
      have entry : ∀ other, (d.unit, other) ∈ greatestHues ↔ other = high := by
        intro other
        rw [← lookup_eq_some_iff_mem (by decide), found, Option.some.injEq, eq_comm]
      simp [isWithin_bound_iff, entry]

end Checks

/-- **Where a percentage must stand**, everything but a plain number may stand that may stand
elsewhere. -/
theorem ColorPlace.takes_strict_iff {cs : List Char} : (share true).Takes cs ↔
    (share false).Takes cs ∧ ¬ ∃ value, IsQuantityOf cs value "" := by
  constructor
  · rintro (reference | ⟨value, unit, quantity, high, entry, range⟩)
    · exact ⟨.inl reference, fun ⟨_, plain⟩ => reference.not_isQuantityOf plain⟩
    · have percentage : unit = "%" := (Prod.mk.inj (List.mem_singleton.1 entry)).1
      refine ⟨.inr ⟨value, unit, quantity, high, List.mem_cons_of_mem _ entry, range⟩, ?_⟩
      rintro ⟨other, plain⟩
      rw [percentage] at quantity
      exact absurd (quantity.unit_unique plain) (by decide)
  · rintro ⟨reference | ⟨value, unit, quantity, high, entry, range⟩, noNumber⟩
    · exact .inl reference
    · rcases List.mem_cons.1 entry with unitless | entry
      · obtain ⟨rfl, -⟩ := Prod.mk.inj unitless
        exact absurd ⟨value, quantity⟩ noNumber
      · exact .inr ⟨value, unit, quantity, high, entry, range⟩

end BracketCss
