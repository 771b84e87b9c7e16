import BracketCss.Proofs.Value.Color.Argument
import BracketCss.Proofs.Value.Verdict

/-!
# Calls of colour functions

The arguments of a colour function stand between top-level commas, as many as the function takes,
or, without a top-level comma, the channels stand between blanks and the alpha value after a slash.
A call is accepted if every argument is what its place takes. A comma anywhere in the arguments,
also within a reference, asks for percentages as saturation and lightness, so that a plain number
beside a reference with a fallback is refused.

## Main definitions

* `ColorArguments.BetweenCommas`, `ColorArguments.BetweenBlanks`: the two ways to write arguments
* `ColorArguments.Suit name strict split`: every argument is what its place takes

## Main results

* `ColorArguments.split_eq_ok_iff`: how arguments are split
* `checkColorCall_eq_ok_iff`: which calls are accepted
* `checkColorCall_betweenBlanks_iff`: the newer form of `hsl` and `hsla`
* `validateColor_call_spec`: what an accepted colour function is made of
-/

namespace BracketCss

open Text

namespace ColorArguments

/-- The channels in order. -/
def channels (split : ColorArguments) : List (List Char) :=
  [split.first, split.second, split.third]

/-- The arguments stand between top-level commas: as many as the function takes, none of them
empty. -/
def BetweenCommas (name : String) (cs : List Char) (split : ColorArguments) : Prop :=
  ∃ segments, Scan.CutsInto (· == ',') cs segments ∧ (name, segments.length) ∈ colorFunctions ∧
    segments.map trim = split.channels ++ split.alpha.toList ∧ [] ∉ segments.map trim

/-- There is no top-level comma, and no more than one top-level slash: three words stand before it,
and the alpha value, which is not empty, after it. -/
def BetweenBlanks (cs : List Char) (split : ColorArguments) : Prop :=
  Scan.IsUncut (· == ',') cs ∧ ∃ front rest words,
    Scan.CutsInto (· == '/') cs (front :: rest) ∧ rest.map trim = split.alpha.toList ∧
    split.alpha ≠ some [] ∧ Scan.CutsInto isBlank (trim front) words ∧
    (words.map trim).filter (· ≠ []) = split.channels

variable {name : String} {cs : List Char} {split : ColorArguments}

/-- Arguments are read back from the list of them. -/
theorem match_channels_append (split : ColorArguments) (fault : ColorFault) :
    (match split.channels ++ split.alpha.toList with
      | [a, b, c] => .ok ⟨a, b, c, none⟩
      | [a, b, c, alpha] => .ok ⟨a, b, c, some alpha⟩
      | _ => .error fault : Except ColorFault ColorArguments) = .ok split := by
  obtain ⟨a, b, c, _ | alpha⟩ := split <;> rfl

theorem BetweenCommas.split_eq (h : split.BetweenCommas name cs) :
    ColorArguments.split name cs = .ok split := by
  obtain ⟨segments, cuts, entry, parts_, some_⟩ := h
  have byComma : Scan.commaParts cs = split.channels ++ split.alpha.toList :=
    Scan.parts_eq_iff.2 ⟨segments, cuts, parts_⟩
  have expected : colorFunctions.lookup name = some (Scan.commaParts cs).length := by
    rw [byComma, ← parts_, List.length_map]
    exact (lookup_eq_some_iff_mem (by decide)).2 entry
  have several : 1 < (Scan.commaParts cs).length := by
    rw [byComma]
    simp [channels]
  have full : ¬ (Scan.commaParts cs).contains [] := by
    rwa [byComma, ← parts_, List.contains_iff_mem]
  rw [ColorArguments.split, expected, if_pos several, if_neg (by simp), if_neg full, byComma]
  exact match_channels_append split _

theorem BetweenCommas.trimmed (h : split.BetweenCommas name cs) :
    (∀ text ∈ split.channels, trim text = text) ∧ ∀ text ∈ split.alpha, trim text = text := by
  obtain ⟨segments, -, -, parts_, -⟩ := h
  have all : ∀ text ∈ split.channels ++ split.alpha.toList, trim text = text := by
    rw [← parts_, List.forall_mem_map]
    exact fun segment _ => Scan.trim_trim segment
  simpa [or_imp, forall_and] using all

theorem BetweenBlanks.trimmed (h : split.BetweenBlanks cs) :
    (∀ text ∈ split.channels, trim text = text) ∧ ∀ text ∈ split.alpha, trim text = text := by
  obtain ⟨-, front, rest, words, -, alpha, -, -, channels_⟩ := h
  constructor
  · intro text mem
    rw [← channels_] at mem
    obtain ⟨word, -, rfl⟩ := List.mem_map.1 (List.mem_of_mem_filter mem)
    exact Scan.trim_trim word
  · intro text mem
    have mem : text ∈ rest.map trim := alpha ▸ Option.mem_toList.2 mem
    obtain ⟨word, -, rfl⟩ := List.mem_map.1 mem
    exact Scan.trim_trim word

theorem BetweenBlanks.split_eq (h : split.BetweenBlanks cs) :
    ColorArguments.split name cs = .ok split := by
  obtain ⟨uncut, front, rest, words, cuts, alpha, some_, wordCuts, channels_⟩ := h
  have single : ¬ 1 < (Scan.commaParts cs).length :=
    Nat.not_lt.2 (Scan.length_parts_le_one_iff.2 uncut)
  have bySlash : Scan.parts (· == '/') cs = trim front :: split.alpha.toList :=
    Scan.parts_eq_iff.2 ⟨_, cuts, by rw [List.map_cons, alpha]⟩
  have three : Scan.topWords (trim front) = [split.first, split.second, split.third] := by
    rw [Scan.topWords, Scan.parts_eq_iff.2 ⟨words, wordCuts, rfl⟩, channels_]
    rfl
  rw [ColorArguments.split, if_neg single, bySlash]
  obtain ⟨a, b, c, _ | text⟩ := split
  · simp [three]
  · have full : text ≠ [] := fun empty => some_ (congrArg some empty)
    simp [three, full]

theorem betweenCommas_of_split (known : name ∈ colorFunctionNames)
    (several : 1 < (Scan.commaParts cs).length) (h : ColorArguments.split name cs = .ok split) :
    split.BetweenCommas name cs := by
  obtain ⟨⟨_, expected⟩, entry, rfl⟩ := List.mem_map.1 known
  have found := (@lookup_eq_some_iff_mem _ colorFunctions (by decide) _ _).2 entry
  rw [ColorArguments.split, if_pos several, found, Option.getD_some] at h
  split at h
  · cases h
  · next count =>
    split at h
    · cases h
    · next full =>
      rw [List.contains_iff_mem] at full
      obtain ⟨segments, cuts, parts_⟩ := Scan.parts_eq_iff.1 (rfl : Scan.commaParts cs = _)
      have arity : segments.length = expected := by
        rw [← not_not.1 count, ← parts_, List.length_map]
      refine ⟨segments, cuts, arity ▸ entry, ?_, parts_ ▸ full⟩
      rw [parts_]
      split at h
      · next a b c same =>
        obtain rfl := Except.ok.inj h
        exact same
      · next a b c alpha same =>
        obtain rfl := Except.ok.inj h
        exact same
      · cases h

theorem betweenBlanks_of_split (single : (Scan.commaParts cs).length ≤ 1)
    (h : ColorArguments.split name cs = .ok split) : split.BetweenBlanks cs := by
  obtain ⟨front, rest, same⟩ := List.exists_cons_of_ne_nil (Scan.segments_ne_nil (· == '/') cs)
  have bySlash : Scan.parts (· == '/') cs = trim front :: rest.map trim := by
    rw [Scan.parts, same, List.map_cons]
  rw [ColorArguments.split, if_neg (Nat.not_lt.2 single), bySlash] at h
  dsimp only at h
  split at h
  · cases h
  · next few =>
    split at h
    · next a b c words =>
      split at h
      · cases h
      · next some_ =>
        obtain rfl := Except.ok.inj h
        refine ⟨Scan.length_parts_le_one_iff.1 single, front, rest, _,
          Scan.segments_eq_iff.1 same, ?_, some_, Scan.cutsInto_segments (trim front), words⟩
        cases rest with
        | nil => rfl
        | cons text rest =>
          obtain rfl : rest = [] := by simpa using few
          rfl
    · cases h

/-- **How arguments are split**: at top-level commas, or at blanks and a slash. -/
theorem split_eq_ok_iff (known : name ∈ colorFunctionNames) :
    ColorArguments.split name cs = .ok split ↔
      split.BetweenCommas name cs ∨ split.BetweenBlanks cs := by
  constructor
  · intro h
    rcases Nat.lt_or_ge 1 (Scan.commaParts cs).length with several | single
    · exact .inl (betweenCommas_of_split known several h)
    · exact .inr (betweenBlanks_of_split single h)
  · rintro (between | between)
    · exact between.split_eq
    · exact between.split_eq

/-- A text with a top-level comma has a comma. -/
theorem BetweenCommas.contains (h : split.BetweenCommas name cs) : cs.contains ',' := by
  obtain ⟨segments, cuts, -, parts_, -⟩ := h
  cases cuts with
  | whole =>
    have single := congrArg List.length parts_
    simp [channels] at single
  | first _ _ comma _ _ =>
    obtain rfl := eq_of_beq comma
    simp

end ColorArguments

/-- The places of the channels of a function; `strict` asks for percentages. -/
def ColorPlace.channels (name : String) (strict : Bool) : List ColorPlace :=
  if name = "rgb" ∨ name = "rgba" then [channel, channel, channel]
  else [hue, share strict, share strict]

/-- Every argument is what its place takes; `strict` asks for percentages. -/
def ColorArguments.Suit (name : String) (strict : Bool) (split : ColorArguments) : Prop :=
  List.Forall₂ ColorPlace.Takes (ColorPlace.channels name strict) split.channels ∧
    ∀ text ∈ split.alpha, ColorPlace.alpha.Takes text

/-- One check after the other. -/
theorem bind_unit_eq_ok_iff {ε : Type} {x y : Except ε Unit} :
    (x >>= fun _ => y) = .ok () ↔ x = .ok () ∧ y = .ok () := by
  rw [bind_eq_ok_iff]
  exact ⟨fun ⟨(), first, second⟩ => ⟨first, second⟩, fun ⟨first, second⟩ => ⟨(), first, second⟩⟩

/-- An alpha value is checked if there is one. -/
theorem alphaVerdict_eq_ok_iff {alpha : Option (List Char)} {verdict : Except ColorFault Unit}
    (trimmed : ∀ text ∈ alpha, trim text = text)
    (given : ∀ text, alpha = some text → verdict = checkAlpha text)
    (missing : alpha = none → verdict = .ok ()) :
    verdict = .ok () ↔ ∀ text ∈ alpha, ColorPlace.alpha.Takes text := by
  cases alpha with
  | none => simp [missing]
  | some text =>
    rw [given text rfl, checkAlpha_eq_ok_iff, trimmed text rfl]
    simp

/-- **Which calls are accepted**: those whose arguments are what their places take, where a comma
asks for percentages. -/
theorem checkColorCall_eq_ok_iff {name : String} {cs : List Char}
    (known : name ∈ colorFunctionNames) :
    checkColorCall name cs = .ok () ↔ ∃ split : ColorArguments,
      (split.BetweenCommas name cs ∨ split.BetweenBlanks cs) ∧
        split.Suit name (cs.contains ',') := by
  rw [checkColorCall, bind_eq_ok_iff]
  apply exists_congr
  intro split
  rw [ColorArguments.split_eq_ok_iff known]
  apply and_congr_right
  intro between
  obtain ⟨channels, alpha⟩ := between.elim (·.trimmed) (·.trimmed)
  obtain ⟨first, second, third⟩ : trim split.first = split.first ∧
      trim split.second = split.second ∧ trim split.third = split.third := by
    simpa [ColorArguments.channels] using channels
  dsimp only
  by_cases rgb : name = "rgb" ∨ name = "rgba"
  · rw [if_pos (by simpa using rgb), ColorArguments.Suit, ColorPlace.channels, if_pos rgb]
    simp only [ColorArguments.channels, List.forall₂_cons, List.Forall₂.nil, and_true, and_assoc,
      bind_unit_eq_ok_iff, checkChannel_eq_ok_iff, first, second, third]
    refine and_congr_right' (and_congr_right' (and_congr_right' ?_))
    exact alphaVerdict_eq_ok_iff alpha (fun text same => by rw [same]) fun same => by rw [same]
  · rw [if_neg (by simpa using rgb), ColorArguments.Suit, ColorPlace.channels, if_neg rgb]
    simp only [ColorArguments.channels, List.forall₂_cons, List.Forall₂.nil, and_true, and_assoc,
      bind_unit_eq_ok_iff, checkHue_eq_ok_iff, checkShare_eq_ok_iff, first, second, third]
    refine and_congr_right' (and_congr_right' (and_congr_right' ?_))
    exact alphaVerdict_eq_ok_iff alpha (fun text same => by rw [same]) fun same => by rw [same]

/-- Arguments are split in one way only. -/
theorem checkColorCall_iff_suit {name : String} {cs : List Char} {split : ColorArguments}
    (known : name ∈ colorFunctionNames)
    (between : split.BetweenCommas name cs ∨ split.BetweenBlanks cs) :
    checkColorCall name cs = .ok () ↔ split.Suit name (cs.contains ',') := by
  rw [checkColorCall_eq_ok_iff known]
  constructor
  · rintro ⟨other, written, suit⟩
    have same := (ColorArguments.split_eq_ok_iff known).2 between
    rw [(ColorArguments.split_eq_ok_iff known).2 written] at same
    obtain rfl := Except.ok.inj same
    exact suit
  · intro suit
    exact ⟨split, between, suit⟩

/-! ## Hues, saturations and lightnesses -/

theorem suit_hsl_iff {name : String} (hsl : name = "hsl" ∨ name = "hsla") {strict : Bool}
    {split : ColorArguments} : split.Suit name strict ↔
      ColorPlace.hue.Takes split.first ∧ (ColorPlace.share strict).Takes split.second ∧
        (ColorPlace.share strict).Takes split.third ∧
        ∀ text ∈ split.alpha, ColorPlace.alpha.Takes text := by
  have other : ¬ (name = "rgb" ∨ name = "rgba") := by
    rcases hsl with rfl | rfl <;> decide
  rw [ColorArguments.Suit, ColorPlace.channels, if_neg other]
  simp only [ColorArguments.channels, List.forall₂_cons, List.Forall₂.nil, and_true, and_assoc]

/-- **The newer form of `hsl` and `hsla`**: a hue, a saturation, a lightness and perhaps an alpha
value, each a reference or a number in its range. A saturation or lightness may be a plain number,
unless there is a comma within a reference. -/
theorem checkColorCall_betweenBlanks_iff {name : String} {cs : List Char} {split : ColorArguments}
    (hsl : name = "hsl" ∨ name = "hsla") (between : split.BetweenBlanks cs) :
    checkColorCall name cs = .ok () ↔
      (ColorPlace.hue.Takes split.first ∧ (ColorPlace.share false).Takes split.second ∧
        (ColorPlace.share false).Takes split.third ∧
        ∀ text ∈ split.alpha, ColorPlace.alpha.Takes text) ∧
      (',' ∈ cs → (¬ ∃ value, IsQuantityOf split.second value "") ∧
        ¬ ∃ value, IsQuantityOf split.third value "") := by
  have known : name ∈ colorFunctionNames := by
    rcases hsl with rfl | rfl <;> decide
  rw [checkColorCall_iff_suit known (.inr between), suit_hsl_iff hsl, ← List.contains_iff_mem]
  cases cs.contains ',' with
  | false => simp
  | true =>
    simp only [ColorPlace.takes_strict_iff]
    tauto

/-- A comma within a reference as alpha value, beside percentages. -/
theorem checkColorCall_betweenBlanks_iff_fallback : ∃ cs, ∃ split : ColorArguments,
    ',' ∈ cs ∧ split.BetweenBlanks cs ∧ checkColorCall "hsla" cs = .ok () ∧
      (ColorPlace.hue.Takes split.first ∧ (ColorPlace.share false).Takes split.second ∧
        (ColorPlace.share false).Takes split.third ∧
        ∀ text ∈ split.alpha, ColorPlace.alpha.Takes text) ∧
      (¬ ∃ value, IsQuantityOf split.second value "") ∧
      ¬ ∃ value, IsQuantityOf split.third value "" := by
  let cs := ".5turn 50% 40% / var(--a, 1)".toList
  let split : ColorArguments :=
    ⟨".5turn".toList, "50%".toList, "40%".toList, some "var(--a, 1)".toList⟩
  have comma : ',' ∈ cs := by decide
  have between : split.BetweenBlanks cs :=
    @ColorArguments.betweenBlanks_of_split "hsla" cs split (by decide) (by decide)
  have accepted : checkColorCall "hsla" cs = .ok () := by decide
  obtain ⟨places, noNumbers⟩ := (checkColorCall_betweenBlanks_iff (.inr rfl) between).1 accepted
  exact ⟨cs, split, comma, between, accepted, places, noNumbers comma⟩

/-- A comma within a reference as hue refuses the plain numbers beside it, though every argument is
what its place takes. -/
theorem exists_colorCall_refused : ∃ cs, ∃ split : ColorArguments,
    split.BetweenBlanks cs ∧
      (ColorPlace.hue.Takes split.first ∧ (ColorPlace.share false).Takes split.second ∧
        (ColorPlace.share false).Takes split.third ∧
        ∀ text ∈ split.alpha, ColorPlace.alpha.Takes text) ∧
      checkColorCall "hsl" cs ≠ .ok () := by
  let split : ColorArguments := ⟨"var(--h, 10)".toList, "50".toList, "50".toList, none⟩
  have between : split.BetweenBlanks "var(--h, 10) 50 50".toList :=
    @ColorArguments.betweenBlanks_of_split "hsl" _ split (by decide) (by decide)
  have hue : ColorPlace.hue.Takes (trim "var(--h, 10)".toList) :=
    checkHue_eq_ok_iff.1 (by decide)
  have share : (ColorPlace.share false).Takes (trim "50".toList) :=
    (@checkShare_eq_ok_iff _ "saturation" false).1 (by decide)
  exact ⟨_, split, between, ⟨hue, share, share, nofun⟩, by decide⟩

/-! ## Accepted colours -/

/-- Where no percentage must stand, more is taken. -/
theorem ColorArguments.Suit.of_strict {name : String} {strict : Bool} {split : ColorArguments}
    (known : name ∈ colorFunctionNames) (h : split.Suit name strict) : split.Suit name false := by
  cases strict with
  | false => exact h
  | true =>
    have table : ∀ name ∈ colorFunctionNames,
        (name = "rgb" ∨ name = "rgba") ∨ name = "hsl" ∨ name = "hsla" := by decide
    rcases table name known with rgb | hsl
    · rw [ColorArguments.Suit, ColorPlace.channels, if_pos rgb] at h ⊢
      exact h
    · rw [suit_hsl_iff hsl] at h ⊢
      obtain ⟨hue, second, third, alpha⟩ := h
      exact ⟨hue, (ColorPlace.takes_strict_iff.1 second).1, (ColorPlace.takes_strict_iff.1 third).1,
        alpha⟩

/-- Only a call is reported with the name of a function. -/
theorem exists_call_of_validateColor {keywords : List String} {s v name : String}
    (known : name ∈ colorFunctionNames)
    (h : validateColor keywords s = .accepted v .color (.color name)) :
    ∃ cs, Scan.call? (trim s.toList) = some ⟨name, cs⟩ ∧ checkColorCall name cs = .ok () ∧
      v = name ++ "(" ++ .ofList (trim cs) ++ ")" := by
  have notations : ∀ name ∈ colorFunctionNames, name ∉ ["keyword", "named", "hex"] := by decide
  have other : ∀ {kind u type}, kind ∈ ["keyword", "named", "hex"] →
      (Outcome.accepted u type (.color kind) : Outcome ColorFault) ≠
        .accepted v .color (.color name) := by
    intro kind u type mem same
    obtain ⟨-, -, detail⟩ := Outcome.accepted.inj same
    rw [Detail.color.inj detail] at mem
    exact notations name known mem
  simp only [validateColor, trimText, String.toList_ofList] at h
  split at h
  · exact absurd h (other (by simp))
  · split at h
    · exact absurd h (other (by simp))
    · split at h
      · split at h
        · exact absurd h (other (by simp))
        · cases h
      · split at h
        · next call found =>
          split at h
          · next fine =>
            obtain ⟨rfl, -, detail⟩ := Outcome.accepted.inj h
            obtain rfl := Detail.color.inj detail
            exact ⟨call.arguments, (Option.filter_eq_some_iff.1 found).1, fine, rfl⟩
          · cases h
        · cases h

/-- **An accepted colour function** has its arguments between top-level commas or between blanks,
and each is a reference or a number in the range of its place, a percentage where there are commas.
Its name is written in lower case, and its arguments stay as they are. -/
theorem validateColor_call_spec {keywords : List String} {s v name : String}
    (known : name ∈ colorFunctionNames)
    (h : validateColor keywords s = .accepted v .color (.color name)) :
    ∃ called cs, ∃ split : ColorArguments, trim s.toList = called ++ '(' :: (cs ++ [')']) ∧
      lower called = name.toList ∧ v = name ++ "(" ++ .ofList (trim cs) ++ ")" ∧
      ((split.BetweenCommas name cs ∧ split.Suit name true) ∨
        (split.BetweenBlanks cs ∧ split.Suit name false)) := by
  obtain ⟨cs, called, fine, rfl⟩ := exists_call_of_validateColor known h
  obtain ⟨written, text, named, -⟩ := Scan.exists_of_call? called (Scan.trim_trim _)
  obtain ⟨split, between, suit⟩ := (checkColorCall_eq_ok_iff known).1 fine
  refine ⟨written, cs, split, text, ?_, rfl, ?_⟩
  · rw [show name = .ofList (lower written) from named, String.toList_ofList]
  · rcases between with commas | blanks
    · rw [commas.contains] at suit
      exact .inl ⟨commas, suit⟩
    · exact .inr ⟨blanks, suit.of_strict known⟩

/-- A hue in turns, and a reference as alpha value. -/
theorem validateColor_call_spec_turn :
    validateColor [] " HSLA(.5turn 50% 40% / var(--a, 1)) " =
        .accepted "hsla(.5turn 50% 40% / var(--a, 1))" .color (.color "hsla") ∧
      ∃ called cs, ∃ split : ColorArguments,
        trim " HSLA(.5turn 50% 40% / var(--a, 1)) ".toList = called ++ '(' :: (cs ++ [')']) ∧
        lower called = "hsla".toList ∧
        "hsla(.5turn 50% 40% / var(--a, 1))" = "hsla" ++ "(" ++ .ofList (trim cs) ++ ")" ∧
        ((split.BetweenCommas "hsla" cs ∧ split.Suit "hsla" true) ∨
          (split.BetweenBlanks cs ∧ split.Suit "hsla" false)) := by
  have accepted : validateColor [] " HSLA(.5turn 50% 40% / var(--a, 1)) " =
      .accepted "hsla(.5turn 50% 40% / var(--a, 1))" .color (.color "hsla") := by decide +kernel
  exact ⟨accepted, validateColor_call_spec (by decide) accepted⟩

end BracketCss
