import BracketCss.Proofs.Text.Reference

/-!
# Decoding around firm characters

What stands before a firm character and what stands after it are decoded apart, by each of the
decoders. A blank ends an escape as well, but an escape of a style sheet takes the blank with it.

## Main definitions

* `Decoder decode`: what all decoders have in common
* `decoders`: the ways to read a text, as it stands and decoded

## Main results

* `CssEscape.decode_cut`: escapes of a style sheet end before a firm character
* `decoder_of_mem`: every way to read a text is a decoder
-/

namespace BracketCss.Text

namespace CssEscape

/-- An escape of digits before a place where a name stops. -/
theorem decodeCodePoints_digits_append {xs digits : List Char}
    (hdigits : digits = (xs.take 6).takeWhile isHexDigit) (some_ : digits ≠ []) {c : Char}
    (stop : IsStop c) (ys : List Char) :
    decodeCodePoints ('\\' :: xs ++ c :: ys) =
      escapedChar (hexNat digits) :: decodeCodePoints
        ((xs.drop digits.length ++ c :: ys).drop
          (blankAfter (xs.drop digits.length ++ c :: ys))) := by
  have short : digits.length ≤ xs.length := by
    rw [hdigits]
    exact ((List.takeWhile_prefix _).trans (List.take_prefix 6 xs)).length_le
  rw [List.cons_append, decodeCodePoints]
  simp only [takeWhile_take_append_cons stop.not_hex, ← hdigits]
  rw [if_pos (by simpa using some_), ← List.drop_drop, List.drop_append_of_le_length short]

/-- A character that starts no escape of digits before a place where a name stops. -/
theorem decodeCodePoints_append_cons {x : Char} {xs : List Char}
    (plain : ¬ (x = '\\' ∧ (xs.take 6).takeWhile isHexDigit ≠ [])) {c : Char} (stop : IsStop c)
    (ys : List Char) :
    decodeCodePoints (x :: xs ++ c :: ys) = x :: decodeCodePoints (xs ++ c :: ys) := by
  rw [List.cons_append, decodeCodePoints]
  simp only [takeWhile_take_append_cons stop.not_hex]
  rw [if_neg plain]

/-- Before a firm character and before a space a text is decoded in one way, but a space may go. -/
theorem decodeCodePoints_cut (xs : List Char) :
    ∃ zs, (∀ c, IsFirm c → ∀ ys,
        decodeCodePoints (xs ++ c :: ys) = zs ++ c :: decodeCodePoints ys) ∧
      ∀ ys, zs <+: decodeCodePoints (xs ++ ' ' :: ys) := by
  induction size : xs.length using Nat.strongRecOn generalizing xs with
  | ind n ih =>
    subst size
    match xs, fun rest shorter => ih _ shorter rest rfl with
    | [], _ =>
      refine ⟨[], fun c firm ys => ?_, fun ys => List.nil_prefix⟩
      rw [List.nil_append, List.nil_append, decodeCodePoints_cons]
      exact fun same => firm.not_startsEscape (.inr (.inr same))
    | x :: xs, ih =>
      -- an escape takes its digits and one blank, so the induction is on the length
      by_cases escape : x = '\\' ∧ (xs.take 6).takeWhile isHexDigit ≠ []
      · obtain ⟨rfl, some_⟩ := escape
        obtain ⟨digits, hdigits⟩ : ∃ digits, digits = (xs.take 6).takeWhile isHexDigit := ⟨_, rfl⟩
        rw [← hdigits] at some_
        have first := fun {c} => @decodeCodePoints_digits_append xs digits hdigits some_ c
        cases after : xs.drop digits.length with
        | nil =>
          rw [after] at first
          refine ⟨[escapedChar (hexNat digits)], fun c firm ys => ?_, fun ys => ?_⟩
          · have unblank : blankAfter ([] ++ c :: ys) = 0 := by
              rcases firm with rfl | rfl | rfl | rfl <;> rfl
            rw [first (.inl firm), unblank, List.drop_zero, List.nil_append,
              decodeCodePoints_cons fun same => firm.not_startsEscape (.inr (.inr same))]
            rfl
          · rw [first (.inr rfl)]
            exact List.prefix_append _ _
        | cons r rest =>
          have blank : ∀ (c : Char) ys,
              blankAfter (r :: rest ++ c :: ys) = blankAfter (r :: rest) := fun _ _ => rfl
          have le : blankAfter (r :: rest) ≤ (r :: rest).length := by
            rw [blankAfter, List.length_cons]
            split <;> omega
          have shorter :
              ((r :: rest).drop (blankAfter (r :: rest))).length < ('\\' :: xs).length := by
            rw [← after, List.drop_drop, List.length_drop, List.length_cons]
            omega
          obtain ⟨zs, cut, start⟩ := ih _ shorter
          rw [after] at first
          refine ⟨escapedChar (hexNat digits) :: zs, fun c firm ys => ?_, fun ys => ?_⟩
          · rw [first (.inl firm), blank, List.drop_append_of_le_length le, cut c firm,
              List.cons_append]
          · rw [first (.inr rfl), blank, List.drop_append_of_le_length le]
            exact (List.prefix_cons_inj _).2 (start ys)
      · obtain ⟨zs, cut, start⟩ := ih xs (by simp)
        refine ⟨x :: zs, fun c firm ys => ?_, fun ys => ?_⟩
        · rw [decodeCodePoints_append_cons escape (.inl firm), cut c firm, List.cons_append]
        · rw [decodeCodePoints_append_cons escape (.inr rfl)]
          exact (List.prefix_cons_inj _).2 (start ys)

/-- A backslash at the end of a text waits for the next character. -/
theorem dropBackslashes_cut (xs : List Char) :
    ∃ zs, (∀ c, IsFirm c → ∀ ys,
        dropBackslashes (xs ++ c :: ys) = zs ++ c :: dropBackslashes ys) ∧
      ∀ ys, zs <+: dropBackslashes (xs ++ ys) := by
  fun_induction dropBackslashes xs with
  | case1 rest ih =>
    obtain ⟨zs, firm, start⟩ := ih
    refine ⟨'\\' :: zs, fun c h ys => ?_, fun ys => ?_⟩
    · rw [List.cons_append, List.cons_append, dropBackslashes, if_pos rfl, ← List.cons_append,
        firm c h ys, List.cons_append]
    · rw [List.cons_append, List.cons_append, dropBackslashes, if_pos rfl, ← List.cons_append]
      exact (List.prefix_cons_inj _).2 (start ys)
  | case2 d rest other ih =>
    obtain ⟨zs, firm, start⟩ := ih
    refine ⟨d :: zs, fun c h ys => ?_, fun ys => ?_⟩
    · rw [List.cons_append, List.cons_append, dropBackslashes, if_neg other, firm c h ys,
        List.cons_append]
    · rw [List.cons_append, List.cons_append, dropBackslashes, if_neg other]
      exact (List.prefix_cons_inj _).2 (start ys)
  | case3 d rest plain ih =>
    by_cases backslash : d = '\\'
    -- the last backslash: whether it goes is decided by what follows
    · have last : rest = [] := by
        cases rest with
        | nil => rfl
        | cons e rest => exact (plain e rest backslash rfl).elim
      subst backslash last
      refine ⟨[], fun c h ys => ?_, fun ys => List.nil_prefix⟩
      have inLine : c ≠ '\n' := by rcases h with rfl | rfl | rfl | rfl <;> decide
      rw [List.cons_append, List.nil_append, dropBackslashes, if_neg inLine, List.nil_append]
    · obtain ⟨zs, firm, start⟩ := ih
      refine ⟨d :: zs, fun c h ys => ?_, fun ys => ?_⟩
      · rw [List.cons_append, dropBackslashes_cons backslash, firm c h ys, List.cons_append]
      · rw [List.cons_append, dropBackslashes_cons backslash]
        exact (List.prefix_cons_inj _).2 (start ys)
  | case4 =>
    refine ⟨[], fun c h ys => ?_, fun ys => List.nil_prefix⟩
    rw [List.nil_append, List.nil_append, dropBackslashes_cons]
    exact fun same => h.not_startsEscape (.inr (.inr same))

/-- Before a firm character and before a space a text is decoded in one way, but a space may go. -/
theorem decode_cut (xs : List Char) :
    ∃ zs, (∀ c, IsFirm c → ∀ ys, decode (xs ++ c :: ys) = zs ++ c :: decode ys) ∧
      ∀ ys, zs <+: decode (xs ++ ' ' :: ys) := by
  obtain ⟨zs, cut, start⟩ := decodeCodePoints_cut xs
  obtain ⟨us, cut', start'⟩ := dropBackslashes_cut zs
  refine ⟨us, fun c firm ys => ?_, fun ys => ?_⟩
  · rw [decode, cut c firm, cut' c firm, ← decode]
  · obtain ⟨rest, same⟩ := start ys
    rw [decode, ← same]
    exact start' rest

theorem decode_cons {c : Char} (h : c ≠ '\\') (cs : List Char) :
    decode (c :: cs) = c :: decode cs := by
  rw [decode, decodeCodePoints_cons h, dropBackslashes_cons h, ← decode]

@[simp] theorem decode_nil : decode [] = [] := by simp [decode, dropBackslashes]

end CssEscape

/-! ## What decoders have in common -/

/-- A way to read a text that leaves most characters alone and is cut by firm ones. -/
structure Decoder (decode : List Char → List Char) : Prop where
  /-- No text is read as no text. -/
  nil : decode [] = []
  /-- A character that starts no escape stays. -/
  cons : ∀ {c : Char}, ¬ StartsEscape c → ∀ cs, decode (c :: cs) = c :: decode cs
  /-- A percent sign without digits after it stays. -/
  percent : ∀ {cs : List Char}, (∀ c ∈ cs.head?, isHexDigit c = false) →
    decode ('%' :: cs) = '%' :: decode cs
  /-- What stands before a firm character or a space is read in one way, but the space may go. -/
  cut : ∀ xs, ∃ zs, (∀ c, IsFirm c → ∀ ys, decode (xs ++ c :: ys) = zs ++ c :: decode ys) ∧
    ∀ ys, zs <+: decode (xs ++ ' ' :: ys)

section

variable {decode : List Char → List Char}

theorem Decoder.append (dec : Decoder decode) {xs : List Char}
    (plain : ∀ c ∈ xs, ¬ StartsEscape c) (cs : List Char) : decode (xs ++ cs) = xs ++ decode cs :=
  append_of_cons dec.cons plain cs

/-- A text without escapes stays as it is. -/
theorem Decoder.eq_self (dec : Decoder decode) {xs : List Char}
    (plain : ∀ c ∈ xs, ¬ StartsEscape c) : decode xs = xs := by
  simpa [dec.nil] using dec.append plain []

/-- What ends in a firm character is decoded on its own, and the character stays at its end. -/
theorem Decoder.concat_firm (dec : Decoder decode) {c : Char} (firm : IsFirm c)
    (xs : List Char) :
    ∃ zs, decode (xs ++ [c]) = zs ++ [c] ∧
      ∀ ys, decode (xs ++ c :: ys) = decode (xs ++ [c]) ++ decode ys := by
  obtain ⟨zs, cut, -⟩ := dec.cut xs
  have alone := cut c firm []
  rw [dec.nil] at alone
  refine ⟨zs, alone, fun ys => ?_⟩
  rw [cut c firm ys, alone, List.append_assoc, List.singleton_append]

end

theorem Cuts.firm {decode : List Char → List Char} {xs : List Char} (h : Cuts decode xs) :
    ∃ zs, (∀ c, IsFirm c → ∀ ys, decode (xs ++ c :: ys) = zs ++ c :: decode ys) ∧
      ∀ ys, zs <+: decode (xs ++ ' ' :: ys) := by
  obtain ⟨zs, cut⟩ := h
  refine ⟨zs, fun c firm ys => cut c (.inl firm) ys, fun ys => ?_⟩
  rw [cut ' ' (.inr rfl)]
  exact List.prefix_append _ _

theorem decoder_id : Decoder id where
  nil := rfl
  cons _ _ := rfl
  percent _ := rfl
  cut xs := ⟨xs, fun _ _ _ => rfl, fun _ => List.prefix_append _ _⟩

theorem decoder_percent : Decoder Percent.decode where
  nil := Percent.decode_nil
  cons plain cs := Percent.decode_cons (fun same => plain (.inl same)) cs
  percent plain := Percent.decode_percent plain
  cut xs := (Percent.decode_cut xs).firm

theorem decoder_reference : Decoder CharacterReference.decode where
  nil := CharacterReference.decode_nil
  cons plain cs := CharacterReference.decode_cons (fun same => plain (.inr (.inl same))) cs
  percent _ := CharacterReference.decode_cons (by decide) _
  cut xs := (CharacterReference.decode_cut xs).firm

theorem decoder_sheet : Decoder CssEscape.decode where
  nil := CssEscape.decode_nil
  cons plain cs := CssEscape.decode_cons (fun same => plain (.inr (.inr same))) cs
  percent _ := CssEscape.decode_cons (by decide) _
  cut := CssEscape.decode_cut

/-- The three decodings one after the other. -/
def decodeAll (cs : List Char) : List Char :=
  CssEscape.decode (CharacterReference.decode (Percent.decode cs))

theorem decoder_all : Decoder decodeAll where
  nil := by simp [decodeAll]
  cons plain cs := by
    rw [decodeAll, decoder_percent.cons plain, decoder_reference.cons plain,
      decoder_sheet.cons plain, ← decodeAll]
  percent plain := by
    rw [decodeAll, Percent.decode_percent plain, CharacterReference.decode_cons (by decide),
      CssEscape.decode_cons (by decide), ← decodeAll]
  cut xs := by
    obtain ⟨zs, cut₁⟩ := Percent.decode_cut xs
    obtain ⟨us, cut₂⟩ := CharacterReference.decode_cut zs
    obtain ⟨vs, cut₃, start⟩ := CssEscape.decode_cut us
    refine ⟨vs, fun c firm ys => ?_, fun ys => ?_⟩
    · rw [decodeAll, cut₁ c (.inl firm), cut₂ c (.inl firm), cut₃ c firm, ← decodeAll]
    · rw [decodeAll, cut₁ ' ' (.inr rfl), cut₂ ' ' (.inr rfl)]
      exact start _

/-- The ways to read a text: as it stands, and decoded in each of the four ways. -/
def decoders : List (List Char → List Char) :=
  [id, Percent.decode, CharacterReference.decode, CssEscape.decode, decodeAll]

theorem decoder_of_mem {decode : List Char → List Char} (h : decode ∈ decoders) :
    Decoder decode := by
  simp only [decoders, List.mem_cons, List.not_mem_nil, or_false] at h
  rcases h with rfl | rfl | rfl | rfl | rfl
  · exact decoder_id
  · exact decoder_percent
  · exact decoder_reference
  · exact decoder_sheet
  · exact decoder_all

end BracketCss.Text
