import BracketCss.Text.CharacterReference
import BracketCss.Text.Escape
import BracketCss.Text.Digit
import Mathlib.Data.List.Basic

/-!
# Decoders step by step

How the three decoders of escaped text take a text apart. Each of them copies a character that
starts no escape, and an ASCII character that belongs to no escape splits a text into two parts
that are decoded on their own.

## Main results

* `Utf8.decode_append`: an ASCII byte is the end of a sequence
* `Percent.decode_cons`, `Percent.decode_escape`: percent escapes
* `CharacterReference.decode_decimal`, `CharacterReference.decode_hexadecimal`: numeric references
* `CssEscape.decodeCodePoints_escape`: escapes of a style sheet
-/

namespace BracketCss.Text

/-- What copies plain characters one by one copies a plain text. -/
theorem append_of_cons {decoder : List Char → List Char} {Plain : Char → Prop}
    (cons : ∀ {c : Char}, Plain c → ∀ cs, decoder (c :: cs) = c :: decoder cs) {xs : List Char}
    (plain : ∀ c ∈ xs, Plain c) (cs : List Char) : decoder (xs ++ cs) = xs ++ decoder cs := by
  induction xs with
  | nil => rfl
  | cons x xs ih =>
    rw [List.cons_append, cons (plain x List.mem_cons_self),
      ih fun c hc => plain c (List.mem_cons_of_mem _ hc), List.cons_append]

theorem takeWhile_append_cons {p : Char → Bool} {c : Char} (stop : p c = false)
    (xs ys : List Char) : (xs ++ c :: ys).takeWhile p = xs.takeWhile p := by
  induction xs with
  | nil => simp [stop]
  | cons x xs ih =>
    simp only [List.cons_append, List.takeWhile_cons]
    cases p x <;> simp [ih]

namespace Utf8

theorem low_lead? {b : UInt8} {lead : Lead} (h : lead? b = some lead) : 0x80 ≤ lead.low := by
  have low : ∀ found ∈ lead? b, 0x80 ≤ found.low := by
    simp only [lead?]
    repeat' split
    all_goals simp
  exact low lead h

/-- No continuation byte is ASCII, so a sequence ends before an ASCII byte. -/
theorem continueSequence_append {b : UInt8} (ascii : b < 0x80) (bits following : Nat)
    {low : UInt8} (high : UInt8) (hlow : 0x80 ≤ low) (xs ys : List UInt8) :
    continueSequence bits following low high (xs ++ b :: ys) =
      ((continueSequence bits following low high xs).1,
        (continueSequence bits following low high xs).2 ++ b :: ys) := by
  induction following generalizing bits low high xs with
  | zero => rfl
  | succ n ih =>
    cases xs with
    | nil =>
      have outside : ¬ (low ≤ b ∧ b ≤ high) := by
        rintro ⟨h, _⟩
        exact absurd (UInt8.le_trans hlow h) (UInt8.not_le.2 ascii)
      simp only [List.nil_append, continueSequence, if_neg outside]
    | cons x xs =>
      simp only [List.cons_append, continueSequence]
      split
      · exact ih _ _ (UInt8.le_refl _) xs
      · rfl

theorem decodeFirst_append {b : UInt8} (ascii : b < 0x80) (x : UInt8) (xs ys : List UInt8) :
    decodeFirst x (xs ++ b :: ys) =
      ((decodeFirst x xs).1, (decodeFirst x xs).2 ++ b :: ys) := by
  unfold decodeFirst
  split
  · rfl
  · split
    · next lead h => exact continueSequence_append ascii _ _ _ (low_lead? h) xs ys
    · rfl

/-- An ASCII byte is the end of every sequence before it. -/
theorem decode_append {b : UInt8} (ascii : b < 0x80) (xs ys : List UInt8) :
    decode (xs ++ b :: ys) = decode xs ++ Char.ofNat b.toNat :: decode ys := by
  fun_induction decode xs with
  | case1 => exact decode_ascii ascii ys
  | case2 x xs first ih =>
    rw [List.cons_append, decode, decodeFirst_append ascii]
    exact congrArg _ ih

end Utf8

namespace Percent

theorem decodeAfter_append {b : UInt8} (ascii : b < 0x80) (recent earlier : List UInt8)
    (cs : List Char) :
    decodeAfter (recent ++ b :: earlier) cs =
      Utf8.decode earlier.reverse ++ Char.ofNat b.toNat :: decodeAfter recent cs := by
  -- the run is decoded when it ends, so the ASCII byte in it is carried along until then
  fun_induction decodeAfter recent cs with
  | case1 recent =>
    simp only [decodeAfter, List.reverse_append, List.reverse_cons, List.append_assoc,
      List.singleton_append]
    exact Utf8.decode_append ascii _ _
  | case2 recent x y rest digits ih =>
    rw [decodeAfter, if_pos digits]
    exact ih
  | case3 recent x y rest digits ih =>
    rw [decodeAfter, if_neg digits]
    exact ih
  | case4 recent c rest noEscape isAscii ih =>
    rw [decodeAfter, if_pos isAscii]
    · exact ih
    · exact noEscape
  | case5 recent c rest noEscape isAscii ih =>
    rw [decodeAfter, if_neg isAscii]
    · simp only [List.reverse_append, List.reverse_cons, List.append_assoc, List.nil_append,
        Utf8.decode_append ascii, List.cons_append]
    · exact noEscape

/-- An ASCII byte ends the run before it, and another run starts after it. -/
theorem decodeAfter_cons {b : UInt8} (ascii : b < 0x80) (earlier : List UInt8) (cs : List Char) :
    decodeAfter (b :: earlier) cs =
      Utf8.decode earlier.reverse ++ Char.ofNat b.toNat :: decode cs :=
  decodeAfter_append ascii [] earlier cs

@[simp] theorem decode_nil : decode [] = [] := by simp [decode, decodeAfter]

theorem ofNat_toNat_byte {n : Nat} (ascii : n < 128) :
    UInt8.ofNat n < 0x80 ∧ (UInt8.ofNat n).toNat = n := by
  have value : (UInt8.ofNat n).toNat = n := by
    rw [UInt8.toNat_ofNat']
    omega
  refine ⟨?_, value⟩
  rw [UInt8.lt_iff_toNat_lt, value]
  exact ascii

theorem decodeAfter_ascii {n : Nat} (ascii : n < 128) (earlier : List UInt8) (cs : List Char) :
    decodeAfter (.ofNat n :: earlier) cs =
      Utf8.decode earlier.reverse ++ Char.ofNat n :: decode cs := by
  rw [decodeAfter_cons (ofNat_toNat_byte ascii).1, (ofNat_toNat_byte ascii).2]

theorem decode_cons {c : Char} (h : c ≠ '%') (cs : List Char) :
    decode (c :: cs) = c :: decode cs := by
  have noEscape : ∀ (a b : Char) (rest : List Char), c = '%' → cs = a :: b :: rest → False :=
    fun _ _ _ percent _ => h percent
  rw [decode, decodeAfter.eq_3 _ _ _ noEscape]
  split
  · next ascii => rw [decodeAfter_ascii ascii]; simp
  · simp [decode]

theorem decode_escape {a b : Char} (ha : isHexDigit a) (hb : isHexDigit b)
    (ascii : 16 * hexValue a + hexValue b < 128) (cs : List Char) :
    decode ('%' :: a :: b :: cs) = Char.ofNat (16 * hexValue a + hexValue b) :: decode cs := by
  rw [decode, decodeAfter, if_pos (by simp [ha, hb]), decodeAfter_ascii ascii]
  simp

/-- A text without a percent sign is copied. -/
theorem decode_append {xs : List Char} (h : '%' ∉ xs) (cs : List Char) :
    decode (xs ++ cs) = xs ++ decode cs :=
  append_of_cons decode_cons (List.forall_mem_ne'.2 h) cs

theorem decode_eq_self {cs : List Char} (h : '%' ∉ cs) : decode cs = cs := by
  simpa using decode_append h []

end Percent

namespace CharacterReference

@[simp] theorem decode_nil : decode [] = [] := by simp [decode]

theorem decode_cons {c : Char} (h : c ≠ '&') (cs : List Char) :
    decode (c :: cs) = c :: decode cs := by
  rw [decode, if_neg h]

theorem decode_append {xs : List Char} (h : '&' ∉ xs) (cs : List Char) :
    decode (xs ++ cs) = xs ++ decode cs :=
  append_of_cons decode_cons (List.forall_mem_ne'.2 h) cs

theorem decode_eq_self {cs : List Char} (h : '&' ∉ cs) : decode cs = cs := by
  simpa using decode_append h []

theorem decode_reference {cs text : List Char} {taken : Nat}
    (h : reference? cs = some (text, taken)) :
    decode ('&' :: cs) = text ++ decode (cs.drop taken) := by
  rw [decode, if_pos rfl, h]

theorem decimalNat_of_ascii {digits : List Char} (decimal : ∀ c ∈ digits, isAsciiDigit c) :
    digits.foldl (fun total c => 10 * total + (c.toNat - 48)) 0 = decimalNat digits := by
  have value : ∀ c ∈ digits, (decimalValue? c).getD 0 = c.toNat - 48 := by
    intro c hc
    have range := decimal c hc
    simp only [isAsciiDigit, Bool.and_eq_true, decide_eq_true_eq] at range
    rw [decimalValue?_ascii range.1 range.2, Option.getD_some]
  rw [decimalNat, readNat, List.foldl_map]
  exact List.foldl_ext _ _ _ fun total c hc => by rw [value c hc]

theorem decode_decimal {digits : List Char} (nonempty : digits ≠ [])
    (decimal : ∀ c ∈ digits, isAsciiDigit c) (cs : List Char) :
    decode ('&' :: '#' :: (digits ++ ';' :: cs)) =
      numeric (decimalNat digits) ++ decode cs := by
  have taken : (digits ++ ';' :: cs).takeWhile (fun c => '0' ≤ c && c ≤ '9') = digits := by
    change (digits ++ ';' :: cs).takeWhile isAsciiDigit = digits
    rw [List.takeWhile_append_of_pos decimal]
    simp [isAsciiDigit]
  have found : reference? ('#' :: (digits ++ ';' :: cs)) =
      some (numeric (decimalNat digits), 1 + digits.length + 1) := by
    obtain ⟨d, ds, rfl⟩ := List.exists_cons_of_ne_nil nonempty
    have noMark : ∀ mark, isAsciiDigit mark = false →
        ∀ rest, d :: ds ++ ';' :: cs ≠ mark :: rest := by
      intro mark hmark rest same
      have head := decimal d List.mem_cons_self
      rw [(List.cons.inj same).1, hmark] at head
      cases head
    rw [reference?.eq_3 _ (noMark 'x' (by decide)) (noMark 'X' (by decide)), taken,
      decimalNat_of_ascii decimal]
    simp [semicolon]
  rw [decode_reference found]
  simp [Nat.add_comm 1]

theorem decode_hexadecimal {mark : Char} (hmark : mark = 'x' ∨ mark = 'X') {digits : List Char}
    (nonempty : digits ≠ []) (hex : ∀ c ∈ digits, isHexDigit c) (cs : List Char) :
    decode ('&' :: '#' :: mark :: (digits ++ ';' :: cs)) =
      numeric (hexNat digits) ++ decode cs := by
  have taken : (digits ++ ';' :: cs).takeWhile isHexDigit = digits := by
    rw [List.takeWhile_append_of_pos hex]
    simp [isHexDigit]
  have found : reference? ('#' :: mark :: (digits ++ ';' :: cs)) =
      some (numeric (hexNat digits), 2 + digits.length + 1) := by
    rcases hmark with rfl | rfl <;> simp [reference?, taken, nonempty, semicolon]
  rw [decode_reference found]
  simp [Nat.add_comm 2]

theorem numeric_printable {n : Nat} (low : 0x20 ≤ n) (high : n < 0x7F) :
    numeric n = [Char.ofNat n] := by
  have kept : isDropped n = false := by
    simp [isDropped]
    omega
  simp only [numeric, kept, charOfCode]
  rw [if_neg (by omega), if_neg (by omega), if_neg (by omega), if_neg (by decide),
    if_pos (by omega)]

end CharacterReference

namespace CssEscape

@[simp] theorem decodeCodePoints_nil : decodeCodePoints [] = [] := by simp [decodeCodePoints]

theorem decodeCodePoints_cons {c : Char} (h : c ≠ '\\') (cs : List Char) :
    decodeCodePoints (c :: cs) = c :: decodeCodePoints cs := by
  rw [decodeCodePoints]
  simp [h]

theorem decodeCodePoints_append {xs : List Char} (h : '\\' ∉ xs) (cs : List Char) :
    decodeCodePoints (xs ++ cs) = xs ++ decodeCodePoints cs :=
  append_of_cons decodeCodePoints_cons (List.forall_mem_ne'.2 h) cs

theorem decodeCodePoints_eq_self {cs : List Char} (h : '\\' ∉ cs) : decodeCodePoints cs = cs := by
  simpa using decodeCodePoints_append h []

theorem dropBackslashes_cons {c : Char} (h : c ≠ '\\') (cs : List Char) :
    dropBackslashes (c :: cs) = c :: dropBackslashes cs := by
  rw [dropBackslashes]
  exact fun _ _ same _ => h same

theorem dropBackslashes_eq_self {cs : List Char} (h : '\\' ∉ cs) : dropBackslashes cs = cs := by
  simpa [dropBackslashes] using append_of_cons dropBackslashes_cons (List.forall_mem_ne'.2 h) []

theorem decode_eq_self {cs : List Char} (h : '\\' ∉ cs) : decode cs = cs := by
  rw [decode, decodeCodePoints_eq_self h, dropBackslashes_eq_self h]

/-- One to six digits and the one blank that ends them. -/
theorem decodeCodePoints_escape {digits : List Char} (nonempty : digits ≠ [])
    (short : digits.length ≤ 6) (hex : ∀ c ∈ digits, isHexDigit c) (cs : List Char) :
    decodeCodePoints ('\\' :: (digits ++ ' ' :: cs)) =
      escapedChar (hexNat digits) :: decodeCodePoints cs := by
  have taken : ((digits ++ ' ' :: cs).take 6).takeWhile isHexDigit = digits := by
    rw [List.take_append, List.take_of_length_le short, List.takeWhile_append_of_pos hex]
    cases 6 - digits.length <;> simp [isHexDigit]
  rw [decodeCodePoints]
  simp only [taken, nonempty, ne_eq, not_false_eq_true, and_self, if_true, List.drop_left]
  rw [← List.drop_drop, List.drop_left]
  simp [blankAfter, isBlank]

theorem escapedChar_printable {n : Nat} (low : 0x20 ≤ n) (high : n < 0x7F) :
    escapedChar n = Char.ofNat n := by
  rw [escapedChar, if_neg (by omega), charOfCode, if_pos (by omega)]

end CssEscape

end BracketCss.Text
