/-!
# UTF-8 with replacement

Bytes to text. Every maximal ill-formed part, that is the longest run that starts a well-formed
sequence without finishing it, or else a single byte, becomes one replacement character.

## Main definitions

* `Utf8.decode bytes`: the text
* `Utf8.encode s`: the bytes of a text

## Main results

* `charOfCode_toNat`: a character is the one of its code point
* `Utf8.decode_ascii`: ASCII bytes decode one by one
-/

namespace BracketCss.Text

/-- The replacement character. -/
def replacementChar : Char := '\ufffd'

/-- The character of a code point; a code point that is no character is replaced. -/
def charOfCode (n : Nat) : Char :=
  if n ≤ 0x10FFFF ∧ ¬ (0xD800 ≤ n ∧ n ≤ 0xDFFF) then Char.ofNat n else replacementChar

theorem charOfCode_toNat (c : Char) : charOfCode c.toNat = c := by
  have valid := c.valid
  have same : c.val.toNat = c.toNat := rfl
  simp only [UInt32.isValidChar, Nat.isValidChar, same] at valid
  rw [charOfCode, if_pos (by omega), Char.ofNat_toNat]

namespace Utf8

/-- What a leading byte announces: its own bits, the number of bytes to follow, and the range of
the first of them. -/
structure Lead where
  /-- The bits of the code point in the leading byte. -/
  bits : Nat
  /-- The number of continuation bytes. -/
  following : Nat
  /-- The least first continuation byte. -/
  low : UInt8
  /-- The greatest first continuation byte. -/
  high : UInt8

/-- The leading bytes of well-formed sequences of two to four bytes. -/
def lead? (b : UInt8) : Option Lead :=
  let n := b.toNat
  if 0xC2 ≤ n ∧ n ≤ 0xDF then some ⟨n - 0xC0, 1, 0x80, 0xBF⟩
  else if n = 0xE0 then some ⟨0, 2, 0xA0, 0xBF⟩
  else if n = 0xED then some ⟨0xD, 2, 0x80, 0x9F⟩
  else if 0xE1 ≤ n ∧ n ≤ 0xEF then some ⟨n - 0xE0, 2, 0x80, 0xBF⟩
  else if n = 0xF0 then some ⟨0, 3, 0x90, 0xBF⟩
  else if 0xF1 ≤ n ∧ n ≤ 0xF3 then some ⟨n - 0xF0, 3, 0x80, 0xBF⟩
  else if n = 0xF4 then some ⟨4, 3, 0x80, 0x8F⟩
  else none

/-- Reads the continuation bytes of a sequence and returns its character with the bytes after it.
The first byte is sought between `low` and `high`, the others between 80 and BF. -/
def continueSequence (bits : Nat) :
    (following : Nat) → (low high : UInt8) → List UInt8 → Char × List UInt8
  | 0, _, _, rest => (charOfCode bits, rest)
  | _ + 1, _, _, [] => (replacementChar, [])
  | n + 1, low, high, b :: rest =>
    if low ≤ b ∧ b ≤ high then
      continueSequence (64 * bits + (b.toNat - 0x80)) n 0x80 0xBF rest
    else (replacementChar, b :: rest)

theorem length_continueSequence (bits following : Nat) (low high : UInt8) (bytes : List UInt8) :
    (continueSequence bits following low high bytes).2.length ≤ bytes.length := by
  fun_induction continueSequence with
  | case1 => simp
  | case2 => simp
  | case3 _ _ _ _ _ _ _ ih => simp only [List.length_cons]; omega
  | case4 => simp

/-- The character that starts a list of bytes, with the bytes after it. -/
def decodeFirst (b : UInt8) (rest : List UInt8) : Char × List UInt8 :=
  if b < 0x80 then (Char.ofNat b.toNat, rest)
  else
    match lead? b with
    | some lead => continueSequence lead.bits lead.following lead.low lead.high rest
    | none => (replacementChar, rest)

theorem length_decodeFirst (b : UInt8) (rest : List UInt8) :
    (decodeFirst b rest).2.length ≤ rest.length := by
  unfold decodeFirst
  split
  · simp
  · split
    · exact length_continueSequence ..
    · simp

/-- The text of a list of bytes. -/
def decode : List UInt8 → List Char
  | [] => []
  | b :: rest =>
    let first := decodeFirst b rest
    first.1 :: decode first.2
termination_by bytes => bytes.length
decreasing_by
  have := length_decodeFirst b rest
  simp only [List.length_cons]
  omega

/-- The bytes of a text. -/
def encode (s : String) : List UInt8 := s.toUTF8.toList

@[simp] theorem decode_nil : decode [] = [] := by simp [decode]

theorem decode_ascii {b : UInt8} (h : b < 0x80) (rest : List UInt8) :
    decode (b :: rest) = Char.ofNat b.toNat :: decode rest := by
  rw [decode]
  simp [decodeFirst, h]

end Utf8

end BracketCss.Text
