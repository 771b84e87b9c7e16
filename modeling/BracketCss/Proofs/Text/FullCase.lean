import BracketCss.Proofs.Text.LetterCase

/-!
# Lower case in every script

What the letters of any script become stays as it is when it is put into lower case again, and it
makes no difference whether the ASCII letters were put into lower case before. Blanks, quotes,
parentheses and digits stay, and no letter becomes one of them: beyond ASCII a letter becomes one
letter, so a text in lower case and the same text with the letters of every script in lower case
look alike once the letters beyond ASCII are veiled.

## Main definitions

* `bitSet ns`: the numbers of a list as the bits of one number
* `capitalCodes`, `fixedCodes`: code points with and without a lower-case form
* `IsLow c`: a character that stays as it is wherever it stands
* `veil c`: the character, or one letter for all characters beyond ASCII that are no blanks

## Main results

* `fullLower_fullLower`: a text in lower case stays as it is
* `fullLower_lower`, `fullLower_map_toLower`: ASCII letters may be put into lower case before
* `fullLower_eq_lower`: without letters beyond ASCII the two ways of lower-casing agree
* `map_veil_fullLower`: they differ in letters beyond ASCII only
-/

namespace BracketCss.Text

/-! ## Sets of code points -/

/-- The numbers of a list as the bits of one number. -/
def bitSet (ns : List Nat) : Nat := ns.foldr (fun n bits => Nat.lor (Nat.shiftLeft 1 n) bits) 0

theorem testBit_bitSet (ns : List Nat) (n : Nat) : (bitSet ns).testBit n = decide (n ∈ ns) := by
  induction ns with
  | nil => simp [bitSet]
  | cons k ns ih =>
    have first : bitSet (k :: ns) = 1 <<< k ||| bitSet ns := rfl
    rw [first, Nat.testBit_or, ih, Nat.one_shiftLeft, Nat.testBit_two_pow]
    grind

/-- Lists whose sets have no bit in common have no number in common. -/
theorem notMem_of_land_bitSet {ms ns : List Nat} (apart : Nat.land (bitSet ms) (bitSet ns) = 0)
    {n : Nat} (mem : n ∈ ms) : n ∉ ns := by
  intro mem'
  have bit : (bitSet ms &&& bitSet ns).testBit n = false := by
    rw [show bitSet ms &&& bitSet ns = 0 from apart, Nat.zero_testBit]
  rw [Nat.testBit_and, testBit_bitSet, testBit_bitSet] at bit
  simp [mem, mem'] at bit

/-! ## The table -/

namespace LowerRun

/-- The distances of the code points of a run from its first one. -/
def offsets (run : LowerRun) : List Nat :=
  List.range' 0 ((run.last - run.first) / run.step + 1) run.step

/-- The code points of a run. -/
def codes (run : LowerRun) : List Nat := run.offsets.map (Nat.add run.first)

/-- Their lower-case forms. -/
def forms (run : LowerRun) : List Nat := run.offsets.map (Nat.add run.lower)

theorem mem_of_lower? {run : LowerRun} {n m : Nat} (h : run.lower? n = some m) :
    n ∈ run.codes ∧ m ∈ run.forms := by
  unfold lower? at h
  split at h
  · next within =>
    obtain ⟨low, high, turn⟩ := within
    obtain rfl := Option.some.inj h
    have offset : n - run.first ∈ run.offsets := by
      refine List.mem_range'.2 ⟨(n - run.first) / run.step, ?_, ?_⟩
      · exact Nat.lt_succ_of_le (Nat.div_le_div_right (Nat.sub_le_sub_right high _))
      · rw [Nat.zero_add, Nat.mul_div_cancel' (Nat.dvd_of_mod_eq_zero turn)]
    exact ⟨List.mem_map.2 ⟨_, offset, Nat.add_sub_cancel' low⟩, List.mem_map_of_mem offset⟩
  · cases h

end LowerRun

/-- The code points that have a lower-case form: the dotted capital I and those of the runs. -/
def capitalCodes : List Nat := 0x130 :: lowerRuns.flatMap LowerRun.codes

/-- The lower-case forms of the runs. -/
def smallCodes : List Nat := lowerRuns.flatMap LowerRun.forms

/-- The code points of the digits of every script. -/
def digitCodes : List Nat := scriptZeros.flatMap fun first => List.range' first 10

/-- Code points without a lower-case form: lower-case forms, digits, blanks, the dot over a letter
and the two forms of the small sigma. -/
def fixedCodes : List Nat := smallCodes ++ digitCodes ++ blankCodes ++ [0x307, 0x3c2, 0x3c3]

/-- The tables as sets, in which each of them is gone through once. -/
theorem bitSet_table : Nat.land (bitSet fixedCodes) (bitSet capitalCodes) = 0 ∧
    Nat.land (bitSet blankCodes) (bitSet smallCodes) = 0 ∧
    (bitSet capitalCodes).testBit 0x3a3 = true := by
  decide +kernel

theorem notMem_capitalCodes {n : Nat} (h : n ∈ fixedCodes) : n ∉ capitalCodes :=
  notMem_of_land_bitSet bitSet_table.1 h

theorem sigma_mem_capitalCodes : 0x3a3 ∈ capitalCodes := by
  have bit := bitSet_table.2.2
  rwa [testBit_bitSet, decide_eq_true_eq] at bit

theorem mem_capitalCodes {run : LowerRun} (mem : run ∈ lowerRuns) {n m : Nat}
    (h : run.lower? n = some m) : n ∈ capitalCodes :=
  List.mem_cons_of_mem _ (List.mem_flatMap.2 ⟨run, mem, (LowerRun.mem_of_lower? h).1⟩)

theorem mem_smallCodes {run : LowerRun} (mem : run ∈ lowerRuns) {n m : Nat}
    (h : run.lower? n = some m) : m ∈ smallCodes :=
  List.mem_flatMap.2 ⟨run, mem, (LowerRun.mem_of_lower? h).2⟩

/-- A lower-case form is the code point of a character. -/
theorem LowerRun.toNat_ofNat_of_lower? {run : LowerRun} (mem : run ∈ lowerRuns) {n m : Nat}
    (h : run.lower? n = some m) : (Char.ofNat m).toNat = m := by
  have table : ∀ run ∈ lowerRuns, run.lower + (run.last - run.first) < 0xd800 ∨
      0xdfff < run.lower ∧ run.lower + (run.last - run.first) < 0x110000 := by
    decide +kernel
  have entry := table run mem
  unfold lower? at h
  split at h
  · next within =>
    obtain rfl := Option.some.inj h
    have valid : (run.lower + (n - run.first)).isValidChar := by
      simp only [Nat.isValidChar]
      omega
    rw [Char.ofNat, dif_pos valid]
    rfl
  · cases h

/-- Neither a capital letter nor what it becomes is a blank. -/
theorem LowerRun.isBlank_lower? {run : LowerRun} (mem : run ∈ lowerRuns) {c d : Char}
    (h : run.lower? c.toNat = some d.toNat) : isBlank c = false ∧ isBlank d = false := by
  constructor
  · rw [Bool.eq_false_iff]
    intro blank
    have fixed : c.toNat ∈ fixedCodes := by simp [fixedCodes, toNat_mem_blankCodes blank]
    exact notMem_capitalCodes fixed (mem_capitalCodes mem h)
  · rw [Bool.eq_false_iff]
    intro blank
    exact notMem_of_land_bitSet bitSet_table.2.1 (toNat_mem_blankCodes blank)
      (mem_smallCodes mem h)

/-! ## Characters -/

/-- A character that stays as it is wherever it stands. -/
def IsLow (c : Char) : Prop := c ≠ '\u03a3' ∧ fullLowerChar c = [c]

/-- A character beyond ASCII that becomes one character: it is in no run and stays, or it is in a
run. -/
theorem fullLowerChar_eq {c : Char} (far : 128 ≤ c.toNat) (noDot : c ≠ '\u0130') :
    ((∀ run ∈ lowerRuns, run.lower? c.toNat = none) ∧ fullLowerChar c = [c]) ∨
      ∃ run ∈ lowerRuns, ∃ d, run.lower? c.toNat = some d.toNat ∧ fullLowerChar c = [d] := by
  have unfolded : fullLowerChar c =
      [((lowerRuns.findSome? (·.lower? c.toNat)).map Char.ofNat).getD c] := by
    rw [fullLowerChar, if_neg (Nat.not_lt.2 far), if_neg noDot]
  cases entry : lowerRuns.findSome? (·.lower? c.toNat) with
  | none =>
    rw [entry] at unfolded
    exact .inl ⟨List.findSome?_eq_none_iff.1 entry, unfolded⟩
  | some m =>
    rw [entry] at unfolded
    obtain ⟨run, mem, found⟩ := List.exists_of_findSome?_eq_some entry
    exact .inr ⟨run, mem, .ofNat m, by rw [found, LowerRun.toNat_ofNat_of_lower? mem found],
      unfolded⟩

/-- A character that stays on its own becomes one beyond ASCII. -/
theorem far_of_lower? {c d : Char} (own : lowerChar c = [c]) {run : LowerRun}
    (mem : run ∈ lowerRuns) (becomes : run.lower? c.toNat = some d.toNat) : 128 ≤ d.toNat := by
  have entry := LowerRun.le_toNat_of_lower? mem becomes
  rw [Char.ofNat_toNat] at entry
  refine entry.resolve_left fun kelvin => ?_
  obtain rfl : c = '\u212a' := Char.toNat_inj.1 kelvin
  exact absurd own (by decide)

/-- An ASCII character that stays on its own stays everywhere. -/
theorem isLow_of_ascii {c : Char} (ascii : c.toNat < 128) (own : lowerChar c = [c]) : IsLow c := by
  constructor
  · rintro rfl
    exact absurd ascii (by decide)
  · rw [fullLowerChar, if_pos ascii, own]

/-- A character beyond ASCII without a lower-case form stays. -/
theorem isLow_of_mem_fixedCodes {c : Char} (far : 128 ≤ c.toNat) (fixed : c.toNat ∈ fixedCodes) :
    IsLow c := by
  have apart := notMem_capitalCodes fixed
  have noDot : c ≠ '\u0130' := by
    rintro rfl
    exact apart List.mem_cons_self
  constructor
  · rintro rfl
    exact apart sigma_mem_capitalCodes
  · rcases fullLowerChar_eq far noDot with ⟨-, stays⟩ | ⟨run, mem, _, moved, -⟩
    · exact stays
    · exact absurd (mem_capitalCodes mem moved) apart

/-- The dot over a letter and the two forms of the small sigma stay. -/
theorem isLow_of_mem_marks {c : Char} (h : c.toNat ∈ [0x307, 0x3c2, 0x3c3]) : IsLow c := by
  refine isLow_of_mem_fixedCodes ?_ (List.mem_append_right _ h)
  simp only [List.mem_cons, List.not_mem_nil, or_false] at h
  omega

/-- What a character becomes on its own stays. -/
theorem isLow_of_mem_lowerChar {c d : Char} (moves : lowerChar c ≠ [c]) (h : d ∈ lowerChar c) :
    IsLow d := by
  rcases lowerChar_cases c with same | ⟨n, small, rfl, same⟩ | ⟨rfl, same⟩ | ⟨rfl, same⟩
  · exact absurd same moves
  · have table : ∀ n < 26, (Char.ofNat (65 + n + 32)).toNat < 128 ∧
        lowerChar (Char.ofNat (65 + n + 32)) = [Char.ofNat (65 + n + 32)] := by
      decide
    rw [same, List.mem_singleton] at h
    subst h
    exact isLow_of_ascii (table n small).1 (table n small).2
  · rw [same, List.mem_singleton] at h
    subst h
    exact isLow_of_ascii (by decide) (by decide)
  · rw [same, List.mem_cons, List.mem_singleton] at h
    rcases h with rfl | rfl
    · exact isLow_of_ascii (by decide) (by decide)
    · exact isLow_of_mem_marks (by decide)

/-- What a character becomes stays. -/
theorem isLow_of_mem_fullLowerChar {c d : Char} (noSigma : c ≠ '\u03a3')
    (h : d ∈ fullLowerChar c) : IsLow d := by
  by_cases own : lowerChar c = [c]
  · by_cases ascii : c.toNat < 128
    · rw [fullLowerChar, if_pos ascii, own, List.mem_singleton] at h
      subst h
      exact isLow_of_ascii ascii own
    · have noDot : c ≠ '\u0130' := by
        rintro rfl
        exact absurd own (by decide)
      rcases fullLowerChar_eq (Nat.le_of_not_lt ascii) noDot with
        ⟨-, same⟩ | ⟨run, mem, e, becomes, same⟩
      · rw [same, List.mem_singleton] at h
        subst h
        exact ⟨noSigma, same⟩
      · rw [same, List.mem_singleton] at h
        subst h
        exact isLow_of_mem_fixedCodes (far_of_lower? own mem becomes)
          (by simp [fixedCodes, mem_smallCodes mem becomes])
  · rcases fullLowerChar_cases c with same | ⟨own', -⟩
    · exact isLow_of_mem_lowerChar own (same ▸ h)
    · exact absurd own' own

/-! ## Texts -/

/-- What is in lower case stays, and what follows it is read behind it. -/
theorem fullLowerBehind_append {front : List Char} (low : ∀ c ∈ front, IsLow c)
    (before rest : List Char) :
    fullLowerBehind before (front ++ rest) =
      front ++ fullLowerBehind (front.reverse ++ before) rest := by
  induction front generalizing before with
  | nil => rfl
  | cons c front ih =>
    obtain ⟨first, others⟩ := List.forall_mem_cons.1 low
    rw [List.cons_append, fullLowerBehind, if_neg first.1, first.2, ih others, List.reverse_cons,
      List.append_assoc, List.singleton_append, List.singleton_append, List.cons_append]

theorem isLow_of_mem_fullLowerBehind {before cs : List Char} :
    ∀ d ∈ fullLowerBehind before cs, IsLow d := by
  induction cs generalizing before with
  | nil => exact fun d hd => absurd hd List.not_mem_nil
  | cons c cs ih =>
    rw [fullLowerBehind, List.forall_mem_append]
    refine ⟨fun d hd => ?_, ih⟩
    split at hd
    · split at hd
      all_goals
        rw [List.mem_singleton] at hd
        subst hd
        exact isLow_of_mem_marks (by decide)
    · next noSigma => exact isLow_of_mem_fullLowerChar noSigma hd

theorem head?_fullLower {c : Char} (low : IsLow c) (rest : List Char) :
    (fullLower (c :: rest)).head? = some c := by
  have behind := fullLowerBehind_append (List.forall_mem_singleton.2 low) [] rest
  rw [List.singleton_append, List.singleton_append] at behind
  rw [fullLower, behind, List.head?_cons]

/-- A text in lower case stays as it is. -/
@[simp] theorem fullLower_fullLower (cs : List Char) : fullLower (fullLower cs) = fullLower cs := by
  have low : ∀ d ∈ fullLower cs, IsLow d := isLow_of_mem_fullLowerBehind
  have stays := fullLowerBehind_append low [] []
  rwa [List.append_nil, fullLowerBehind, List.append_nil] at stays

/-! ## Letters that are in lower case already -/

theorem meetsCased_cons (c : Char) (cs : List Char) :
    meetsCased (c :: cs) =
      if isInRanges caseIgnorableRanges c then meetsCased cs else isInRanges casedRanges c := by
  rw [meetsCased, List.find?_cons]
  cases isInRanges caseIgnorableRanges c <;> rfl

theorem isInRanges_table : (caseIgnorableRanges.all fun r =>
      Nat.blt r.2 65 || Nat.blt 90 r.1 && Nat.blt r.2 97 || Nat.blt 122 r.1) = true ∧
    (65, 90) ∈ casedRanges ∧ (97, 122) ∈ casedRanges ∧
    (∀ c ∈ ['\u0130', '\u212a'],
      isInRanges caseIgnorableRanges c = false ∧ isInRanges casedRanges c) ∧
    isInRanges caseIgnorableRanges '\u0307' := by
  decide +kernel

/-- An ASCII letter is cased, and it is not passed over. -/
theorem isInRanges_of_letter {c : Char}
    (letter : 65 ≤ c.toNat ∧ c.toNat ≤ 90 ∨ 97 ≤ c.toNat ∧ c.toNat ≤ 122) :
    isInRanges caseIgnorableRanges c = false ∧ isInRanges casedRanges c := by
  obtain ⟨table, capitals, smalls, -⟩ := isInRanges_table
  constructor
  · simp only [isInRanges, List.any_eq_false, Bool.and_eq_true, decide_eq_true_eq, not_and]
    intro r mem low
    have entry := List.all_eq_true.1 table r mem
    simp only [Bool.or_eq_true, Bool.and_eq_true, Nat.blt_eq] at entry
    omega
  · rw [isInRanges, List.any_eq_true]
    rcases letter with ⟨low, high⟩ | ⟨low, high⟩
    · exact ⟨_, capitals, by simp [low, high]⟩
    · exact ⟨_, smalls, by simp [low, high]⟩

theorem meetsCased_of_isInRanges {c : Char}
    (h : isInRanges caseIgnorableRanges c = false ∧ isInRanges casedRanges c) (rest : List Char) :
    meetsCased (c :: rest) := by
  rw [meetsCased_cons, h.1, if_neg Bool.false_ne_true, h.2]

/-- A character that changes on its own and what becomes of it are cased alike. -/
theorem meetsCased_lowerChar {c : Char} (moves : lowerChar c ≠ [c]) (rest : List Char) :
    meetsCased (c :: rest) ∧ meetsCased (lowerChar c ++ rest) ∧
      meetsCased ((lowerChar c).reverse ++ rest) := by
  obtain ⟨-, -, -, special, mark⟩ := isInRanges_table
  have small : ∀ {d : Char}, 97 ≤ d.toNat ∧ d.toNat ≤ 122 → ∀ rest, meetsCased (d :: rest) :=
    fun letter => meetsCased_of_isInRanges (isInRanges_of_letter (.inr letter))
  rcases lowerChar_cases c with same | ⟨n, below, rfl, same⟩ | ⟨rfl, same⟩ | ⟨rfl, same⟩
  · exact absurd same moves
  · have table : ∀ n < 26, (Char.ofNat (65 + n)).toNat = 65 + n ∧
        (Char.ofNat (65 + n + 32)).toNat = 97 + n := by decide
    obtain ⟨capital, lowered⟩ := table n below
    have letter : 65 ≤ (Char.ofNat (65 + n)).toNat ∧ (Char.ofNat (65 + n)).toNat ≤ 90 := by omega
    have becomes : 97 ≤ (Char.ofNat (65 + n + 32)).toNat ∧
        (Char.ofNat (65 + n + 32)).toNat ≤ 122 := by omega
    rw [same]
    exact ⟨meetsCased_of_isInRanges (isInRanges_of_letter (.inl letter)) rest, small becomes rest,
      small becomes rest⟩
  · rw [same]
    exact ⟨meetsCased_of_isInRanges (special _ (by decide)) rest, small (by decide) rest,
      small (by decide) rest⟩
  · rw [same]
    refine ⟨meetsCased_of_isInRanges (special _ (by decide)) rest, small (by decide) _, ?_⟩
    rw [List.reverse_cons, List.reverse_singleton, List.append_assoc, List.singleton_append,
      meetsCased_cons, if_pos mark]
    exact small (by decide) rest

/-- The characters that change on their own, with what becomes of them. -/
theorem lowerChar_eq_self_or (c : Char) : lowerChar c = [c] ∨ c ≠ '\u03a3' ∧
    fullLowerChar c = lowerChar c ∧ (∀ d ∈ lowerChar c, IsLow d) ∧
      ∀ rest, meetsCased (c :: rest) ∧ meetsCased (lowerChar c ++ rest) ∧
        meetsCased ((lowerChar c).reverse ++ rest) := by
  by_cases own : lowerChar c = [c]
  · exact .inl own
  · have noSigma : c ≠ '\u03a3' := by
      rintro rfl
      exact own (by decide)
    have becomes := (fullLowerChar_cases c).resolve_right fun h => own h.1
    exact .inr ⟨noSigma, becomes, fun d => isLow_of_mem_lowerChar own, meetsCased_lowerChar own⟩

section

variable {g : Char → List Char} (choose : ∀ c, g c = [c] ∨ g c = lowerChar c)

include choose

theorem meetsCased_flatMap (cs : List Char) : meetsCased (cs.flatMap g) = meetsCased cs := by
  have keep : ∀ c cs, meetsCased (cs.flatMap g) = meetsCased cs →
      meetsCased (c :: cs.flatMap g) = meetsCased (c :: cs) := fun c cs same => by
    rw [meetsCased_cons, meetsCased_cons, same]
  induction cs with
  | nil => rfl
  | cons c cs ih =>
    rw [List.flatMap_cons]
    rcases choose c with same | low
    · rw [same]
      exact keep c cs ih
    · rcases lowerChar_eq_self_or c with same | ⟨-, -, -, cased⟩
      · rw [low, same]
        exact keep c cs ih
      · rw [low, (cased _).2.1, (cased _).1]

/-- It makes no difference which letters were put into lower case on their own before. -/
theorem fullLowerBehind_flatMap {before before' : List Char}
    (cased : meetsCased before' = meetsCased before) (cs : List Char) :
    fullLowerBehind before' (cs.flatMap g) = fullLowerBehind before cs := by
  induction cs generalizing before before' with
  | nil => rfl
  | cons c cs ih =>
    have behind : meetsCased (c :: before') = meetsCased (c :: before) := by
      rw [meetsCased_cons, meetsCased_cons, cased]
    have keep : fullLowerBehind before' (c :: cs.flatMap g) = fullLowerBehind before (c :: cs) := by
      rw [fullLowerBehind, fullLowerBehind, cased, meetsCased_flatMap choose cs, ih behind]
    rw [List.flatMap_cons]
    rcases choose c with same | low
    · rwa [same]
    · rcases lowerChar_eq_self_or c with same | ⟨noSigma, becomes, stay, cased'⟩
      · rwa [low, same]
      · rw [low, fullLowerBehind_append stay, fullLowerBehind, if_neg noSigma, becomes,
          ih ((cased' before').2.2.trans (cased' before).1.symm)]

end

@[simp] theorem fullLower_lower (cs : List Char) : fullLower (lower cs) = fullLower cs :=
  fullLowerBehind_flatMap (fun _ => .inr rfl) rfl cs

@[simp] theorem fullLower_map_toLower (cs : List Char) :
    fullLower (cs.map Char.toLower) = fullLower cs := by
  have choose : ∀ c, [c.toLower] = [c] ∨ [c.toLower] = lowerChar c := by
    intro c
    rcases toLower_cases c with same | ⟨n, small, rfl, -⟩
    · exact .inl (by rw [same])
    · have ascii : (Char.ofNat (65 + n)).toNat < 128 := by
        have table : ∀ n < 26, (Char.ofNat (65 + n)).toNat < 128 := by decide
        exact table n small
      exact .inr (lowerChar_eq_singleton ascii).symm
  rw [List.map_eq_flatMap]
  exact fullLowerBehind_flatMap choose rfl cs

/-- A digit of any script stays. -/
theorem isLow_of_isDecimal {c : Char} (h : isDecimal c) : IsLow c := by
  by_cases ascii : c.toNat < 128
  · have numeral : 48 ≤ c.toNat ∧ c.toNat ≤ 57 := by
      rw [isDecimal, decimalValue?, if_pos ascii] at h
      split at h
      · assumption
      · cases h
    have table : ∀ n < 10, lowerChar (Char.ofNat (48 + n)) = [Char.ofNat (48 + n)] := by decide
    have entry := table (c.toNat - 48) (by omega)
    rw [Nat.add_sub_cancel' numeral.1, Char.ofNat_toNat] at entry
    exact isLow_of_ascii ascii entry
  · simp only [isDecimal, decimalValue?, if_neg ascii, Option.isSome_map, List.find?_isSome,
      Bool.and_eq_true, decide_eq_true_eq] at h
    obtain ⟨first, mem, low, high⟩ := h
    have digit : c.toNat ∈ digitCodes :=
      List.mem_flatMap.2 ⟨first, mem, List.mem_range'_1.2 ⟨low, by omega⟩⟩
    exact isLow_of_mem_fixedCodes (Nat.le_of_not_lt ascii) (by simp [fixedCodes, digit])

/-- Without letters beyond ASCII a text is put into lower case in one way. -/
theorem fullLower_eq_lower {cs : List Char} (h : ∀ c ∈ cs, c.toNat < 128 ∨ isDecimal c) :
    fullLower cs = lower cs := by
  suffices ∀ before, fullLowerBehind before cs = lower cs from this []
  induction cs with
  | nil => exact fun _ => rfl
  | cons c cs ih =>
    intro before
    obtain ⟨first, others⟩ := List.forall_mem_cons.1 h
    rw [fullLowerBehind, ih others, lower_cons]
    congr 1
    rcases first with ascii | digit
    · have noSigma : c ≠ '\u03a3' := by
        rintro rfl
        exact absurd ascii (by decide)
      rw [if_neg noSigma, fullLowerChar, if_pos ascii]
    · obtain ⟨noSigma, same⟩ := isLow_of_isDecimal digit
      have own : lowerChar c = [c] := by
        rcases fullLowerChar_cases c with low | ⟨own, -⟩
        · rw [← low, same]
        · exact own
      rw [if_neg noSigma, same, own]

/-! ## Letters beyond ASCII -/

/-- The character, or one letter in place of all characters beyond ASCII that are no blanks. -/
def veil (c : Char) : Char := if c.toNat < 128 || isBlank c then c else '\u00df'

/-- A class of ASCII characters does not see a veil. -/
theorem veil_of_ascii {p : Char → Bool} (near : ∀ c, p c → c.toNat < 128) (c : Char) :
    (p c → veil c = c) ∧ p (veil c) = p c := by
  unfold veil
  split
  · exact ⟨fun _ => rfl, rfl⟩
  · next far =>
    have veiled : ¬ p '\u00df' := fun h => absurd (near _ h) (by decide)
    have bare : ¬ p c := fun h => far (by simp [near c h])
    exact ⟨fun h => absurd h bare, Bool.eq_iff_iff.2 (iff_of_false veiled bare)⟩

/-- A character becomes what it is in lower case, or a letter beyond ASCII for another one. -/
theorem map_veil_fullLowerChar (c : Char) :
    (fullLowerChar c).map veil = (lowerChar c).map veil := by
  rcases fullLowerChar_cases c with same | ⟨own, far, -⟩
  · rw [same]
  · have noDot : c ≠ '\u0130' := by
      rintro rfl
      exact absurd own (by decide)
    rcases fullLowerChar_eq far noDot with ⟨-, same⟩ | ⟨run, mem, d, becomes, same⟩
    · rw [same, own]
    · obtain ⟨solid, solid'⟩ := LowerRun.isBlank_lower? mem becomes
      have far' := far_of_lower? own mem becomes
      simp [same, own, veil, solid, solid', Nat.not_lt.2 far, Nat.not_lt.2 far']

/-- The two ways of lower-casing differ in letters beyond ASCII only. -/
theorem map_veil_fullLower (cs : List Char) :
    (fullLower cs).map veil = (lower cs).map veil := by
  suffices ∀ before, (fullLowerBehind before cs).map veil = (lower cs).map veil from this []
  induction cs with
  | nil => exact fun _ => rfl
  | cons c cs ih =>
    intro before
    have front : (if c = '\u03a3' then
        if meetsCased before && !meetsCased cs then ['\u03c2'] else ['\u03c3']
      else fullLowerChar c).map veil = (lowerChar c).map veil := by
      split
      · next sigma =>
        subst sigma
        split <;> decide
      · exact map_veil_fullLowerChar c
    rw [fullLowerBehind, lower_cons, List.map_append, List.map_append, front, ih]

/-- Both ways of lower-casing have the same characters of a class that does not see a veil. -/
theorem forall_fullLower_iff {p : Char → Bool} (veiled : ∀ c, p (veil c) = p c) {cs : List Char} :
    (∀ c ∈ fullLower cs, p c) ↔ ∀ c ∈ lower cs, p c := by
  have seen : ∀ ds : List Char, (∀ c ∈ ds.map veil, p c) ↔ ∀ c ∈ ds, p c := fun ds => by
    simp only [List.forall_mem_map, veiled]
  rw [← seen, map_veil_fullLower, seen]

end BracketCss.Text
