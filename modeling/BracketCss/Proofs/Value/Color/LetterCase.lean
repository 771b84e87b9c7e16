import BracketCss.Proofs.Value.Color.Call
import BracketCss.Proofs.Value.LetterCase

/-!
# Colours and the case of letters

Names, keywords and hexadecimal digits are compared in lower case; the arguments of a colour
function are numbers with units, which have no case, and references, of which only `var` is looked
at without regard to case and the rest is read by classes of characters. So a colour in lower case
has the verdict of the colour, and its normal form differs in the case of letters at most.

## Main results

* `isReference_map_toLower`: references
* `ColorPlace.takes_trim_map_toLower_iff`: what a place takes
* `checkColorCall_map_toLower_iff`: which calls are accepted
* `validateColor_map_toLower`: the verdicts agree
-/

namespace BracketCss

open Text

/-! ## References -/

theorem isReferenceBody_map_toLower (cs : List Char) :
    isReferenceBody (cs.map Char.toLower) = isReferenceBody cs := by
  have plain : IsCaseBlind fun c => c != '(' && c != ')' := .of_table (by decide)
  simp only [isReferenceBody, trimStart_map_toLower, isCaseBlind_isNameChar.takeWhile,
    List.length_map, ← List.map_drop, isCustomProperty_map_toLower]
  congr 1
  generalize trimStart ((trimStart cs).drop _) = rest
  by_cases comma : rest.head? = some ','
  · obtain ⟨fallback, rfl⟩ := List.head?_eq_some_iff.1 comma
    exact plain.all fallback
  · cases rest with
    | nil => rfl
    | cons c rest =>
      have noComma : c ≠ ',' := fun same => comma (congrArg some same)
      have noComma' : c.toLower ≠ ',' := mt (toLower_eq_iff (by decide)).1 noComma
      simp [noComma, noComma']

/-- A reference in lower case is a reference. -/
theorem isReference_map_toLower (cs : List Char) :
    isReference (cs.map Char.toLower) = isReference cs := by
  rw [isReference, trim_map_toLower, isReference]
  rcases trim cs with _ | ⟨v, _ | ⟨a, _ | ⟨r, _ | ⟨c, rest⟩⟩⟩⟩
  · rfl
  · rfl
  · rfl
  · rfl
  · by_cases opening : c = '('
    · subst opening
      have called := isCaseBlind_caseKey.map [v, a, r]
      have closing : (rest.map Char.toLower).getLast? = some ')' ↔ rest.getLast? = some ')' :=
        getLast?_map_iff_of_mark (by decide)
      have low : '('.toLower = '(' := rfl
      simp only [List.map_cons, List.map_nil, low] at called ⊢
      simp only [called, beq_eq_decide, closing, ← List.map_dropLast, isReferenceBody_map_toLower]
    · have opening' : c.toLower ≠ '(' := mt (toLower_eq_iff (by decide)).1 opening
      simp [opening, opening']

/-! ## Arguments -/

namespace ColorPlace

/-- **A place takes** a text in lower case if it takes the text. -/
theorem takes_trim_map_toLower_iff {place : ColorPlace} {cs : List Char} :
    place.Takes (trim (cs.map Char.toLower)) ↔ place.Takes (trim cs) := by
  rw [takes_trim_iff, takes_trim_iff, isReference_map_toLower, Dimension.ofChars?_map_toLower]
  apply or_congr_right
  constructor
  · rintro ⟨_, read, holds⟩
    obtain ⟨d, found, rfl⟩ := Option.map_eq_some_iff.1 read
    exact ⟨d, found, holds⟩
  · rintro ⟨d, read, holds⟩
    exact ⟨d.recased, by rw [read, Option.map_some], holds⟩

end ColorPlace

/-- The arguments of a colour call with their letters in lower case. -/
def ColorArguments.recased (split : ColorArguments) : ColorArguments where
  first := split.first.map Char.toLower
  second := split.second.map Char.toLower
  third := split.third.map Char.toLower
  alpha := split.alpha.map (List.map Char.toLower)

/-- Arguments in lower case are split at the same places. -/
theorem ColorArguments.split_map_toLower (name : String) (cs : List Char) :
    split name (cs.map Char.toLower) = (split name cs).map recased := by
  have slash : IsCaseBlind (· == '/') := .of_table (by decide)
  have lowNil : List.map Char.toLower [] = [] := rfl
  have noText : ∀ parts : List (List Char),
      (parts.map (List.map Char.toLower)).contains [] = parts.contains [] := by
    simp [List.contains_eq_mem]
  have front : ∀ parts : List (List Char),
      (parts.map (List.map Char.toLower)).headD [] = (parts.headD []).map Char.toLower := by
    rintro (_ | _) <;> rfl
  have missing : ∀ alpha : Option (List Char),
      alpha.map (List.map Char.toLower) = some [] ↔ alpha = some [] := by
    simp [Option.map_eq_some_iff]
  simp only [split, Scan.commaParts_map_toLower, Scan.parts_map_toLower slash, List.length_map,
    noText, front, Scan.topWords_map_toLower, List.getElem?_map, missing]
  split
  · split
    · rfl
    · split
      · rfl
      · rcases Scan.commaParts cs with _ | ⟨a, _ | ⟨b, _ | ⟨c, _ | ⟨d, _ | ⟨e, rest⟩⟩⟩⟩⟩ <;> rfl
  · split
    · rfl
    · generalize Scan.topWords _ = channels
      rcases channels with _ | ⟨a, _ | ⟨b, _ | ⟨c, _ | ⟨d, rest⟩⟩⟩⟩
      · rfl
      · rfl
      · rfl
      · simp only [List.map_cons, List.map_nil]
        split <;> rfl
      · simp [Except.map]

section Checks

variable {cs : List Char}

theorem checkChannel_map_toLower_iff :
    checkChannel (cs.map Char.toLower) = .ok () ↔ checkChannel cs = .ok () := by
  rw [checkChannel_eq_ok_iff, ColorPlace.takes_trim_map_toLower_iff, checkChannel_eq_ok_iff]

theorem checkHue_map_toLower_iff :
    checkHue (cs.map Char.toLower) = .ok () ↔ checkHue cs = .ok () := by
  rw [checkHue_eq_ok_iff, ColorPlace.takes_trim_map_toLower_iff, checkHue_eq_ok_iff]

theorem checkShare_map_toLower_iff {what : String} {strict : Bool} :
    checkShare what strict (cs.map Char.toLower) = .ok () ↔ checkShare what strict cs = .ok () := by
  rw [checkShare_eq_ok_iff, ColorPlace.takes_trim_map_toLower_iff, checkShare_eq_ok_iff]

theorem checkAlpha_map_toLower_iff :
    checkAlpha (cs.map Char.toLower) = .ok () ↔ checkAlpha cs = .ok () := by
  rw [checkAlpha_eq_ok_iff, ColorPlace.takes_trim_map_toLower_iff, checkAlpha_eq_ok_iff]

end Checks

/-- **A colour call in lower case** is accepted if the colour call is. -/
theorem checkColorCall_map_toLower_iff (name : String) (cs : List Char) :
    checkColorCall name (cs.map Char.toLower) = .ok () ↔ checkColorCall name cs = .ok () := by
  have comma : (cs.map Char.toLower).contains ',' = cs.contains ',' := by
    rw [Bool.eq_iff_iff, List.contains_iff_mem, List.contains_iff_mem,
      mem_map_iff_of_mark (by decide)]
  rw [checkColorCall, checkColorCall, ColorArguments.split_map_toLower, comma, bind_eq_ok_iff,
    bind_eq_ok_iff]
  simp only [map_eq_ok_iff, exists_exists_and_eq_and]
  refine exists_congr fun split => and_congr_right fun _ => ?_
  obtain ⟨first, second, third, alpha⟩ := split
  dsimp only [ColorArguments.recased]
  split
  · simp only [bind_unit_eq_ok_iff, checkChannel_map_toLower_iff]
    refine and_congr_right' (and_congr_right' (and_congr_right' ?_))
    cases alpha with
    | none => rfl
    | some alpha => exact checkAlpha_map_toLower_iff
  · simp only [bind_unit_eq_ok_iff, checkHue_map_toLower_iff, checkShare_map_toLower_iff]
    refine and_congr_right' (and_congr_right' (and_congr_right' ?_))
    cases alpha with
    | none => rfl
    | some alpha => exact checkAlpha_map_toLower_iff

/-! ## Verdicts -/

theorem normalizeHex?_map_toLower (cs : List Char) :
    normalizeHex? (cs.map Char.toLower) = normalizeHex? cs := by
  rw [normalizeHex?, trim_map_toLower, normalizeHex?]
  by_cases mark : (trim cs).head? = some '#'
  · obtain ⟨digits, same⟩ := List.head?_eq_some_iff.1 mark
    have low : ('#' :: digits).map Char.toLower = '#' :: digits.map Char.toLower := rfl
    simp only [same, low, isCaseBlind_isHexDigit.all, lower_map_toLower]
  · have mark' := mt (head?_map_iff_of_mark (by decide)).1 mark
    split
    · next same => exact absurd (congrArg List.head? same) mark'
    · split
      · next same => exact absurd (congrArg List.head? same) mark
      · rfl

/-- **A colour in lower case** has the verdict of the colour. -/
theorem validateColor_map_toLower (keywords : List String) (cs : List Char) :
    Outcome.AgreeUpToCase (validateColor keywords (.ofList (cs.map Char.toLower)))
      (validateColor keywords (.ofList cs)) := by
  have hash : ((trim cs).map Char.toLower).head? = some '#' ↔ (trim cs).head? = some '#' :=
    head?_map_iff_of_mark (by decide)
  simp only [validateColor, trimText, fullLowerText, String.toList_ofList, trim_map_toLower,
    fullLower_map_toLower, hash, normalizeHex?_map_toLower, Scan.callOf?_map_toLower]
  split
  · rfl
  · split
    · rfl
    · split
      · rfl
      · cases Scan.callOf? colorFunctionNames (trim cs) with
        | none => exact .rejected
        | some call =>
          simp only [Option.map_some, Scan.Call.changed]
          rcases ok_or_error (checkColorCall_map_toLower_iff call.name call.arguments) with
            ⟨fine', fine⟩ | ⟨⟨_, refused'⟩, _, refused⟩
          · rw [fine', fine]
            exact .accepted .color (by simp [lowerText, lower_cons, trim_map_toLower])
          · rw [refused', refused]
            exact .rejected

end BracketCss
