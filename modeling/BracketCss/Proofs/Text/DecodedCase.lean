import BracketCss.Proofs.Text.Firm
import BracketCss.Proofs.Text.LetterCase

/-!
# Decoding and the case of letters

Escapes are decoded without a look at the case of letters: in a text and in its lower case the same
escapes stand at the same places, since the digits of an escape count the same in either case. Up to
the case of letters the decoded texts are therefore equal.

## Main definitions

* `Utf8.lowerByte b`: the byte of an ASCII letter in lower case
* `HasNoAmpersand cs`: a text from which no character reference comes out

## Main results

* `Utf8.decode_map_lowerByte`: only ASCII bytes stand for ASCII letters
* `Percent.decode_map_toLower`, `CssEscape.decode_map_toLower`: the decoders are blind
* `HasNoAmpersand.not_mem_decode`: an ampersand is there already, or its escape is
-/

namespace BracketCss.Text

namespace Utf8

/-- The byte of an ASCII letter in lower case; any other byte stays. -/
def lowerByte (b : UInt8) : UInt8 := if 65 ≤ b ∧ b ≤ 90 then b + 32 else b

theorem lowerByte_of_not_ascii {b : UInt8} (h : ¬ b < 0x80) : lowerByte b = b := by
  rw [lowerByte, if_neg]
  rintro ⟨-, high⟩
  exact h (UInt8.lt_of_le_of_lt high (by decide))

theorem lowerByte_ascii {b : UInt8} (h : b < 0x80) :
    lowerByte b < 0x80 ∧ Char.ofNat (lowerByte b).toNat = (Char.ofNat b.toNat).toLower := by
  have table : ∀ n < 128, lowerByte (.ofNat n) < 0x80 ∧
      Char.ofNat (lowerByte (.ofNat n)).toNat = (Char.ofNat (UInt8.ofNat n).toNat).toLower := by
    decide +kernel
  have entry := table b.toNat h
  rwa [UInt8.ofNat_toNat] at entry

theorem le_toNat_replacementChar : 128 ≤ replacementChar.toNat := by decide

theorem le_toNat_charOfCode {n : Nat} (h : 128 ≤ n) : 128 ≤ (charOfCode n).toNat := by
  unfold charOfCode
  split
  · next valid =>
    have isChar : n.isValidChar := by
      simp only [Nat.isValidChar]
      omega
    rw [Char.ofNat, dif_pos isChar]
    exact h
  · exact le_toNat_replacementChar

/-- A sequence with some bits already comes to no ASCII character. -/
theorem le_toNat_continueSequence {bits following : Nat} (low high : UInt8) (bytes : List UInt8)
    (some_ : 2 ≤ bits) (done : following = 0 → 128 ≤ bits) :
    128 ≤ (continueSequence bits following low high bytes).1.toNat := by
  fun_induction continueSequence with
  | case1 => exact le_toNat_charOfCode (done rfl)
  | case2 => exact le_toNat_replacementChar
  | case3 bits n low high b rest inside ih => exact ih (by omega) (by omega)
  | case4 => exact le_toNat_replacementChar

/-- The first byte to follow brings some bits, and enough of them if it is the only one. -/
theorem bits_of_lead? {b : UInt8} {lead : Lead} (h : lead? b = some lead) :
    ∃ n, lead.following = n + 1 ∧ 2 ≤ 64 * lead.bits + (lead.low.toNat - 0x80) ∧
      (n = 0 → 128 ≤ 64 * lead.bits + (lead.low.toNat - 0x80)) := by
  have found : ∀ lead ∈ lead? b,
      ∃ n, lead.following = n + 1 ∧ 2 ≤ 64 * lead.bits + (lead.low.toNat - 0x80) ∧
        (n = 0 → 128 ≤ 64 * lead.bits + (lead.low.toNat - 0x80)) := by
    simp only [lead?]
    repeat' split
    all_goals simp
    all_goals omega
  exact found lead h

theorem continueSequence_map_lowerByte (bits following : Nat) {low : UInt8} (high : UInt8)
    (hlow : 0x80 ≤ low) (bytes : List UInt8) :
    continueSequence bits following low high (bytes.map lowerByte) =
      ((continueSequence bits following low high bytes).1,
        (continueSequence bits following low high bytes).2.map lowerByte) := by
  fun_induction continueSequence bits following low high bytes with
  | case1 => simp [continueSequence]
  | case2 => simp [continueSequence]
  | case3 bits n low high b rest inside ih =>
    have other : ¬ b < 0x80 := UInt8.not_lt.2 (UInt8.le_trans hlow inside.1)
    rw [List.map_cons, lowerByte_of_not_ascii other, continueSequence, if_pos inside,
      ih (by decide)]
  | case4 bits n low high b rest outside =>
    have outside' : ¬ (low ≤ lowerByte b ∧ lowerByte b ≤ high) := by
      by_cases ascii : b < 0x80
      · rintro ⟨above, -⟩
        exact UInt8.not_lt.2 (UInt8.le_trans hlow above) (lowerByte_ascii ascii).1
      · rwa [lowerByte_of_not_ascii ascii]
    rw [List.map_cons, continueSequence, if_neg outside']

/-- A byte beyond ASCII starts no ASCII character. -/
theorem le_toNat_decodeFirst {b : UInt8} (h : ¬ b < 0x80) (rest : List UInt8) :
    128 ≤ (decodeFirst b rest).1.toNat := by
  rw [decodeFirst, if_neg h]
  split
  · next lead found =>
    obtain ⟨n, following, some_, enough⟩ := bits_of_lead? found
    rw [following]
    cases rest with
    | nil => exact le_toNat_replacementChar
    | cons c rest =>
      rw [continueSequence]
      split
      · next inside =>
        have above : lead.low.toNat ≤ c.toNat := inside.1
        exact le_toNat_continueSequence _ _ _ (by omega) (by omega)
      · exact le_toNat_replacementChar
  · exact le_toNat_replacementChar

theorem toLower_of_not_ascii {c : Char} (h : 128 ≤ c.toNat) : c.toLower = c := by
  have letters : ∀ n < 26, decide (128 ≤ (Char.ofNat (65 + n)).toNat) = false := by decide
  exact toLower_eq_self (p := fun c => decide (128 ≤ c.toNat)) letters (decide_eq_true h)

theorem decodeFirst_map_lowerByte (b : UInt8) (rest : List UInt8) :
    decodeFirst (lowerByte b) (rest.map lowerByte) =
      ((decodeFirst b rest).1.toLower, (decodeFirst b rest).2.map lowerByte) := by
  by_cases ascii : b < 0x80
  · obtain ⟨stays, same⟩ := lowerByte_ascii ascii
    rw [decodeFirst, if_pos stays, decodeFirst, if_pos ascii, same]
  · have high := le_toNat_decodeFirst ascii rest
    rw [toLower_of_not_ascii high, lowerByte_of_not_ascii ascii]
    simp only [decodeFirst, if_neg ascii]
    split
    · next lead found => rw [continueSequence_map_lowerByte _ _ _ (low_lead? found)]
    · rfl

/-- Only ASCII bytes stand for ASCII letters. -/
theorem decode_map_lowerByte (bytes : List UInt8) :
    decode (bytes.map lowerByte) = (decode bytes).map Char.toLower := by
  fun_induction decode bytes with
  | case1 => simp
  | case2 b rest first ih =>
    rw [List.map_cons, decode]
    simp only [decodeFirst_map_lowerByte]
    rw [ih, List.map_cons]

theorem suffix_continueSequence (bits following : Nat) (low high : UInt8) (bytes : List UInt8) :
    (continueSequence bits following low high bytes).2 <:+ bytes := by
  fun_induction continueSequence with
  | case1 => exact List.suffix_rfl
  | case2 => exact List.suffix_rfl
  | case3 _ _ _ _ _ _ _ ih => exact ih.trans (List.suffix_cons _ _)
  | case4 => exact List.suffix_rfl

theorem suffix_decodeFirst (b : UInt8) (rest : List UInt8) : (decodeFirst b rest).2 <:+ rest := by
  unfold decodeFirst
  split
  · exact List.suffix_rfl
  · split
    · exact suffix_continueSequence ..
    · exact List.suffix_rfl

/-- Only an ASCII byte stands for an ASCII character. -/
theorem mem_of_mem_decode {c : Char} (ascii : c.toNat < 128) {bytes : List UInt8}
    (h : c ∈ decode bytes) : UInt8.ofNat c.toNat ∈ bytes := by
  fun_induction decode bytes with
  | case1 => cases h
  | case2 b rest first ih =>
    rcases List.mem_cons.1 h with same | later
    · by_cases low : b < 0x80
      · have value : c = Char.ofNat b.toNat := by
          rw [same]
          exact congrArg Prod.fst (if_pos low)
        have table : ∀ n < 128, (Char.ofNat n).toNat = n := by decide
        rw [value, table b.toNat low, UInt8.ofNat_toNat]
        exact List.mem_cons_self
      · have high := le_toNat_decodeFirst low rest
        rw [same] at ascii
        exact absurd ascii (Nat.not_lt.2 high)
    · exact List.mem_cons_of_mem _ ((suffix_decodeFirst b rest).subset (ih later))

end Utf8

namespace Percent

open Utf8

variable {pending pending' : List UInt8} {cs : List Char}

theorem decode_reverse_congr (same : pending'.map lowerByte = pending.map lowerByte) :
    (Utf8.decode pending'.reverse).map Char.toLower =
      (Utf8.decode pending.reverse).map Char.toLower := by
  rw [← decode_map_lowerByte, ← decode_map_lowerByte, List.map_reverse, List.map_reverse, same]

/-- An ASCII character stays one, and its byte is put into lower case. -/
theorem toLower_ascii {c : Char} (h : c.toNat < 128) : c.toLower.toNat < 128 ∧
    lowerByte (.ofNat c.toLower.toNat) = lowerByte (.ofNat c.toNat) := by
  have table : ∀ n < 128, (Char.ofNat n).toLower.toNat < 128 ∧
      lowerByte (.ofNat (Char.ofNat n).toLower.toNat) =
        lowerByte (.ofNat (Char.ofNat n).toNat) := by decide +kernel
  have entry := table c.toNat h
  rwa [Char.ofNat_toNat] at entry

/-- No escape starts in the lower case where none starts in the text. -/
theorem not_escape_map_toLower {c : Char} {rest : List Char}
    (other : ∀ a b after, c = '%' → rest = a :: b :: after → False) :
    ∀ a b after, c.toLower = '%' → rest.map Char.toLower = a :: b :: after → False := by
  intro a b after percent longer
  obtain ⟨a', behind, rfl, -, longer⟩ := List.map_eq_cons_iff.1 longer
  obtain ⟨b', after', rfl, -, -⟩ := List.map_eq_cons_iff.1 longer
  exact other a' b' after' ((toLower_eq_iff (by decide)).1 percent) rfl

theorem decodeAfter_map_toLower (same : pending'.map lowerByte = pending.map lowerByte) :
    (decodeAfter pending' (cs.map Char.toLower)).map Char.toLower =
      (decodeAfter pending cs).map Char.toLower := by
  fun_induction decodeAfter pending cs generalizing pending' with
  | case1 pending => exact decode_reverse_congr same
  | case2 pending a b rest hex ih =>
    have hex' : (isHexDigit a.toLower && isHexDigit b.toLower) = true := by
      rwa [isCaseBlind_isHexDigit a, isCaseBlind_isHexDigit b]
    have escape : ('%' :: a :: b :: rest).map Char.toLower =
        '%' :: a.toLower :: b.toLower :: rest.map Char.toLower := rfl
    rw [escape, decodeAfter, if_pos hex', isCaseBlind_hexValue a, isCaseBlind_hexValue b]
    exact ih (by rw [List.map_cons, same, List.map_cons])
  | case3 pending a b rest other ih =>
    have other' : ¬ (isHexDigit a.toLower && isHexDigit b.toLower) = true := by
      rwa [isCaseBlind_isHexDigit a, isCaseBlind_isHexDigit b]
    have escape : ('%' :: a :: b :: rest).map Char.toLower =
        '%' :: a.toLower :: b.toLower :: rest.map Char.toLower := rfl
    rw [escape, decodeAfter, if_neg other']
    exact ih (by rw [List.map_cons, same, List.map_cons])
  | case4 pending c rest other ascii ih =>
    obtain ⟨stays, byte⟩ := toLower_ascii ascii
    rw [List.map_cons, decodeAfter.eq_3 _ _ _ (not_escape_map_toLower other), if_pos stays]
    exact ih (by rw [List.map_cons, byte, same, List.map_cons])
  | case5 pending c rest other beyond ih =>
    have stays := toLower_of_not_ascii (Nat.not_lt.1 beyond)
    rw [List.map_cons, decodeAfter.eq_3 _ _ _ (not_escape_map_toLower other), stays,
      if_neg beyond, List.map_append, List.map_append, decode_reverse_congr same, List.map_cons,
      List.map_cons, ih rfl]

/-- Percent escapes are decoded without a look at the case of letters. -/
theorem decode_map_toLower (cs : List Char) :
    (decode (cs.map Char.toLower)).map Char.toLower = (decode cs).map Char.toLower :=
  decodeAfter_map_toLower rfl

theorem hexValue_cases {c : Char} (h : isHexDigit c) :
    hexValue c < 16 ∧ (hexValue c = 2 → c = '2') ∧ (hexValue c = 6 → c = '6') := by
  have ascii : c.toNat < 128 := by
    simp only [isHexDigit, Bool.or_eq_true, Bool.and_eq_true, decide_eq_true_eq] at h
    rcases h with (⟨-, high⟩ | ⟨-, high⟩) | ⟨-, high⟩
    all_goals exact Nat.lt_of_le_of_lt high (by decide)
  have table : ∀ n < 128, isHexDigit (Char.ofNat n) → hexValue (Char.ofNat n) < 16 ∧
      (hexValue (Char.ofNat n) = 2 → Char.ofNat n = '2') ∧
      (hexValue (Char.ofNat n) = 6 → Char.ofNat n = '6') := by decide +kernel
  have entry := table c.toNat ascii
  rw [Char.ofNat_toNat] at entry
  exact entry h

/-- The two digits of an ampersand. -/
theorem eq_of_hexValue {a b : Char} (ha : isHexDigit a) (hb : isHexDigit b)
    (h : UInt8.ofNat (16 * hexValue a + hexValue b) = 38) : a = '2' ∧ b = '6' := by
  obtain ⟨high, two, -⟩ := hexValue_cases ha
  obtain ⟨low, -, six⟩ := hexValue_cases hb
  have value : (16 * hexValue a + hexValue b) % 2 ^ 8 = 38 := by
    rw [← UInt8.toNat_ofNat', h]
    rfl
  exact ⟨two (by omega), six (by omega)⟩

/-- An ampersand in the decoded text stands in the text already, or its escape does. -/
theorem ampersand_of_decodeAfter (h : '&' ∈ decodeAfter pending cs) :
    38 ∈ pending ∨ '&' ∈ cs ∨ "%26".toList <:+: cs := by
  have run : ∀ {pending : List UInt8}, '&' ∈ Utf8.decode pending.reverse → 38 ∈ pending :=
    fun inside => List.mem_reverse.1 (mem_of_mem_decode (by decide) inside)
  fun_induction decodeAfter pending cs with
  | case1 pending => exact .inl (run h)
  | case2 pending a b rest hex ih =>
    rcases ih h with byte | plain | escape
    · rcases List.mem_cons.1 byte with same | byte
      · rw [Bool.and_eq_true] at hex
        obtain ⟨rfl, rfl⟩ := eq_of_hexValue hex.1 hex.2 same.symm
        exact .inr (.inr ⟨[], rest, rfl⟩)
      · exact .inl byte
    · exact .inr (.inl (by simp [plain]))
    · exact .inr (.inr (escape.trans (List.suffix_append ['%', a, b] rest).isInfix))
  | case3 pending a b rest other ih =>
    rcases ih h with byte | plain | escape
    · exact .inl ((List.mem_cons.1 byte).resolve_left (by decide))
    · exact .inr (.inl (List.mem_cons_of_mem _ plain))
    · exact .inr (.inr (List.infix_cons escape))
  | case4 pending c rest other ascii ih =>
    rcases ih h with byte | plain | escape
    · rcases List.mem_cons.1 byte with same | byte
      · have value : c.toNat = 38 := by
          rw [← (ofNat_toNat_byte ascii).2, ← same]
          rfl
        have ampersand : c = '&' := by
          rw [← Char.ofNat_toNat c, value]
        exact .inr (.inl (ampersand ▸ List.mem_cons_self))
      · exact .inl byte
    · exact .inr (.inl (List.mem_cons_of_mem _ plain))
    · exact .inr (.inr (List.infix_cons escape))
  | case5 pending c rest other beyond ih =>
    rcases List.mem_append.1 h with inside | later
    · exact .inl (run inside)
    · rcases List.mem_cons.1 later with rfl | later
      · exact absurd (by decide) beyond
      · rcases ih later with byte | plain | escape
        · cases byte
        · exact .inr (.inl (List.mem_cons_of_mem _ plain))
        · exact .inr (.inr (List.infix_cons escape))

end Percent

/-- No ampersand stands in a text, neither itself nor as an escape, so that no character reference
comes out of it. -/
structure HasNoAmpersand (cs : List Char) : Prop where
  /-- No ampersand stands there. -/
  plain : '&' ∉ cs
  /-- No escape of an ampersand stands there. -/
  escaped : ¬ "%26".toList <:+: cs

namespace HasNoAmpersand

variable {cs : List Char}

theorem of_infix (h : HasNoAmpersand cs) {part : List Char} (inside : part <:+: cs) :
    HasNoAmpersand part :=
  ⟨fun mem => h.plain (inside.subset mem), fun escape => h.escaped (escape.trans inside)⟩

theorem not_mem_decode (h : HasNoAmpersand cs) : '&' ∉ Percent.decode cs := by
  intro decoded
  rcases Percent.ampersand_of_decodeAfter decoded with byte | inside | inside
  · cases byte
  · exact h.plain inside
  · exact h.escaped inside

end HasNoAmpersand

namespace CssEscape

variable {cs : List Char}

theorem hexNat_map_toLower (digits : List Char) :
    hexNat (digits.map Char.toLower) = hexNat digits := by
  rw [hexNat, List.foldl_map]
  simp only [isCaseBlind_hexValue _]
  rfl

theorem takeWhile_take_map_toLower (cs : List Char) :
    ((cs.map Char.toLower).take 6).takeWhile isHexDigit =
      ((cs.take 6).takeWhile isHexDigit).map Char.toLower := by
  rw [← List.map_take, isCaseBlind_isHexDigit.takeWhile]

theorem blankAfter_map_toLower (cs : List Char) :
    blankAfter (cs.map Char.toLower) = blankAfter cs := by
  rw [blankAfter, isCaseBlind_isBlank.any_head?, blankAfter]

theorem decodeCodePoints_map_toLower (cs : List Char) :
    (decodeCodePoints (cs.map Char.toLower)).map Char.toLower =
      (decodeCodePoints cs).map Char.toLower := by
  fun_induction decodeCodePoints cs with
  | case1 => rw [List.map_nil, decodeCodePoints_nil, List.map_nil]
  | case2 c rest digits escape ih =>
    have run := takeWhile_take_map_toLower rest
    obtain ⟨rfl, some_⟩ := escape
    have escape' : '\\'.toLower = '\\' ∧
        ((rest.map Char.toLower).take 6).takeWhile isHexDigit ≠ [] := by
      rw [run, ne_eq, List.map_eq_nil_iff]
      exact ⟨rfl, some_⟩
    rw [List.map_cons, decodeCodePoints, if_pos escape', run, hexNat_map_toLower, List.length_map,
      ← List.map_drop (i := digits.length), blankAfter_map_toLower, ← List.map_drop, List.map_cons,
      ih, List.map_cons]
  | case3 c rest digits other ih =>
    have run := takeWhile_take_map_toLower rest
    have other' : ¬ (c.toLower = '\\' ∧
        ((rest.map Char.toLower).take 6).takeWhile isHexDigit ≠ []) := by
      rw [run, toLower_eq_iff (by decide), ne_eq, List.map_eq_nil_iff]
      exact other
    rw [List.map_cons, decodeCodePoints, if_neg other', List.map_cons, List.map_cons, ih,
      toLower_toLower]

theorem dropBackslashes_map_toLower (cs : List Char) :
    dropBackslashes (cs.map Char.toLower) = (dropBackslashes cs).map Char.toLower := by
  fun_induction dropBackslashes cs with
  | case1 rest ih =>
    have here : ('\\' :: '\n' :: rest).map Char.toLower =
        '\\' :: '\n' :: rest.map Char.toLower := rfl
    rw [here, dropBackslashes, if_pos rfl, List.map_cons, ← ih]
    rfl
  | case2 c rest other ih =>
    have other' : ¬ c.toLower = '\n' := by rwa [toLower_eq_iff (by decide)]
    have here : ('\\' :: c :: rest).map Char.toLower =
        '\\' :: c.toLower :: rest.map Char.toLower := rfl
    rw [here, dropBackslashes, if_neg other', ih, List.map_cons]
  | case3 c rest other ih =>
    have other' : ∀ d after, c.toLower = '\\' → rest.map Char.toLower = d :: after → False := by
      intro d after backslash longer
      obtain ⟨d', after', rfl, -, -⟩ := List.map_eq_cons_iff.1 longer
      exact other d' after' ((toLower_eq_iff (by decide)).1 backslash) rfl
    rw [List.map_cons, dropBackslashes, ih, List.map_cons]
    exact other'
  | case4 => rfl

/-- The escapes of a sheet are decoded without a look at the case of letters. -/
theorem decode_map_toLower (cs : List Char) :
    (decode (cs.map Char.toLower)).map Char.toLower = (decode cs).map Char.toLower := by
  rw [decode, decode, ← dropBackslashes_map_toLower, decodeCodePoints_map_toLower,
    dropBackslashes_map_toLower]

end CssEscape

end BracketCss.Text
