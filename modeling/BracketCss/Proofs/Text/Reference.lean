import BracketCss.Proofs.Text.Stop

/-!
# Character references before a stop

A known name is made of letters and digits, with a semicolon after them at most. So a reference
ends before a stop, and the longest known name that a text starts with is the same whatever
follows the stop.

## Main definitions

* `CharacterReference.known? cs`: the longest known name that a text starts with

## Main results

* `CharacterReference.shape_of_named?`: what a known name looks like
* `CharacterReference.decode_name`: a name is decoded as far as a known one goes
* `CharacterReference.decode_cut`: character references end before a stop
-/

namespace BracketCss.Text

namespace Utf8

/-- A character with ASCII bytes has one byte, its code point. -/
theorem map_utf8EncodeChar {c : Char} (ascii : ∀ b ∈ String.utf8EncodeChar c, b.toNat < 128) :
    (String.utf8EncodeChar c).map (fun b => Char.ofNat b.toNat) = [c] := by
  have high : ∀ {n : Nat}, 128 ≤ n → n < 256 → ¬ (UInt8.ofNat n).toNat < 128 := by
    intro n low high
    rw [UInt8.toNat_ofNat']
    omega
  rw [String.utf8EncodeChar] at ascii ⊢
  by_cases small : c.val.toNat ≤ 127
  · rw [if_pos small, List.map_singleton, UInt8.toNat_ofNat', Nat.mod_eq_of_lt (by omega)]
    exact congrArg (fun d => [d]) (Char.ofNat_toNat c)
  · rw [if_neg small] at ascii
    split_ifs at ascii <;>
      exact absurd (ascii _ List.mem_cons_self) (high (by omega) (by omega))

/-- A text with ASCII bytes has a character for each of them. -/
theorem toList_eq_map {s : String} (ascii : ∀ b ∈ s.toByteArray.data.toList, b.toNat < 128) :
    s.toList = s.toByteArray.data.toList.map fun b => Char.ofNat b.toNat := by
  have bytes : s.toByteArray.data.toList = s.toList.flatMap String.utf8EncodeChar := by
    rw [← String.utf8Encode_toList, List.utf8Encode, List.toList_data_toByteArray]
  rw [bytes] at ascii ⊢
  generalize s.toList = cs at ascii ⊢
  induction cs with
  | nil => rfl
  | cons c cs ih =>
    simp only [List.flatMap_cons, List.mem_append] at ascii
    rw [List.flatMap_cons, List.map_append, map_utf8EncodeChar fun b hb => ascii b (.inl hb),
      ← ih fun b hb => ascii b (.inr hb), List.singleton_append]

end Utf8

namespace CharacterReference

/-! ## The table of names -/

/-- The shape of a name without its semicolon: two to 31 ASCII letters and digits. -/
def IsName (cs : List Char) : Prop :=
  2 ≤ cs.length ∧ cs.length ≤ 31 ∧ ∀ c ∈ cs, isAsciiAlphanumeric c

/-- The shape is read off the bytes, which are what a written text consists of. -/
theorem isName_of_bytes {s : String}
    (shape : (let bytes := s.toByteArray.data.toList
      2 ≤ bytes.length && bytes.length ≤ 31 &&
        bytes.all fun b => b.toNat < 128 && isAsciiAlphanumeric (.ofNat b.toNat)) = true) :
    IsName s.toList := by
  simp only [Bool.and_eq_true, decide_eq_true_eq, List.all_eq_true] at shape
  obtain ⟨⟨long, short⟩, bytes⟩ := shape
  rw [Utf8.toList_eq_map fun b hb => (bytes b hb).1]
  refine ⟨by rwa [List.length_map], by rwa [List.length_map], fun c hc => ?_⟩
  obtain ⟨b, hb, rfl⟩ := List.mem_map.1 hc
  exact (bytes b hb).2

theorem isName_of_mem {entry : String × List Char} (mem : entry ∈ names) :
    IsName entry.1.toList := by
  have table : (names.all fun entry =>
      let bytes := entry.1.toByteArray.data.toList
      2 ≤ bytes.length && bytes.length ≤ 31 &&
        bytes.all fun b => b.toNat < 128 && isAsciiAlphanumeric (.ofNat b.toNat)) = true := by
    decide +kernel
  exact isName_of_bytes (List.all_eq_true.1 table entry mem)

/-- The old names are among the names. -/
theorem mem_names_of_legacy {entry : String × Nat} (mem : entry ∈ legacyNames) :
    (entry.1, [charOfCode entry.2]) ∈ names :=
  List.mem_append_left _ (List.mem_map.2 ⟨entry, List.mem_append_left _ mem, rfl⟩)

theorem mem_of_lookup_eq_some {β : Type} {entries : List (String × β)} {key : String} {value : β}
    (h : entries.lookup key = some value) : (key, value) ∈ entries := by
  obtain ⟨before, after, rfl, -⟩ := List.lookup_eq_some_iff.1 h
  simp

/-- A known name is two to 32 letters and digits, the last of which may be a semicolon. -/
theorem shape_of_named? {name text : List Char} (h : named? name = some text) :
    2 ≤ name.length ∧ name.length ≤ 32 ∧ (∀ c ∈ name.dropLast, isAsciiAlphanumeric c) ∧
      ∀ c ∈ name.getLast?, isAsciiAlphanumeric c ∨ c = ';' := by
  rw [named?] at h
  split at h
  · next mark =>
    obtain ⟨long, short, letters⟩ := isName_of_mem (mem_of_lookup_eq_some h)
    rw [String.toList_ofList] at long short letters
    rw [List.length_dropLast] at long short
    refine ⟨by omega, by omega, letters, fun c hc => .inr ?_⟩
    rw [mark] at hc
    exact (Option.some.inj hc).symm
  · obtain ⟨code, found, -⟩ := Option.map_eq_some_iff.1 h
    obtain ⟨long, short, letters⟩ :=
      isName_of_mem (mem_names_of_legacy (mem_of_lookup_eq_some found))
    rw [String.toList_ofList] at long short letters
    exact ⟨long, by omega, fun c hc => letters c (List.dropLast_subset _ hc),
      fun c hc => .inl (letters c (List.mem_of_getLast? hc))⟩

theorem mem_of_named? {name text : List Char} {c : Char} (h : named? name = some text)
    (mem : c ∈ name) : isAsciiAlphanumeric c ∨ c = ';' := by
  obtain ⟨long, -, letters, last⟩ := shape_of_named? h
  have nonempty : name ≠ [] := by
    rintro rfl
    exact absurd long (by decide)
  rw [← List.dropLast_append_getLast nonempty, List.mem_append, List.mem_singleton] at mem
  rcases mem with mem | rfl
  · exact .inl (letters c mem)
  · exact last _ (List.getLast?_eq_some_getLast nonempty)

theorem isNamePart_of_isAsciiAlphanumeric {c : Char} (h : isAsciiAlphanumeric c) :
    isNamePart c := by
  have other : ("\t\n\x0c <&#;".toList.all fun d => !isAsciiAlphanumeric d) = true := by decide
  rw [isNamePart, Bool.not_eq_true', Bool.eq_false_iff, ne_eq, List.contains_iff_mem]
  intro mem
  simpa [h] using List.all_eq_true.1 other c mem

/-! ## The longest name -/

theorem longestName_succ (name : List Char) {n : Nat} (h : 2 ≤ n) :
    longestName name (n + 1) =
      match named? (name.take n) with
      | some text => some (text, n)
      | none => longestName name n := by
  match n, h with
  | n + 2, _ => rfl

/-- Lengths without a known name do not matter. -/
theorem longestName_add {name : List Char} {bound : Nat} (extra : Nat)
    (unknown : ∀ m, bound ≤ m → m < bound + extra → named? (name.take m) = none) :
    longestName name (bound + extra) = longestName name bound := by
  induction extra with
  | zero => rfl
  | succ n ih =>
    rw [← ih fun m low high => unknown m low (by omega), ← Nat.add_assoc]
    by_cases short : bound + n < 2
    · match bound + n, short with
      | 0, _ | 1, _ => rfl
    · rw [longestName_succ name (by omega), unknown (bound + n) (by omega) (by omega)]

theorem longestName_congr {xs ys : List Char} {bound : Nat}
    (same : ∀ m < bound, xs.take m = ys.take m) : longestName xs bound = longestName ys bound := by
  induction bound with
  | zero => rfl
  | succ n ih =>
    by_cases short : n < 2
    · match n, short with
      | 0, _ | 1, _ => rfl
    · rw [longestName_succ xs (by omega), longestName_succ ys (by omega), same n (by omega),
        ih fun m less => same m (by omega)]

theorem longestName_eq_some {name text : List Char} {bound n : Nat}
    (h : longestName name bound = some (text, n)) :
    2 ≤ n ∧ n < bound ∧ named? (name.take n) = some text := by
  induction bound with
  | zero => cases h
  | succ m ih =>
    by_cases short : m < 2
    · match m, short with
      | 0, _ | 1, _ => cases h
    · rw [longestName_succ name (by omega)] at h
      split at h
      · next known =>
        obtain ⟨rfl, rfl⟩ := Prod.mk.inj (Option.some.inj h)
        exact ⟨by omega, by omega, known⟩
      · obtain ⟨low, high, known⟩ := ih h
        exact ⟨low, by omega, known⟩

/-- The longest known name that a text starts with. -/
def known? (cs : List Char) : Option (List Char × Nat) := longestName cs (cs.length + 1)

/-- No name is known that goes on after a stop. -/
theorem known?_append_cons {c : Char} (stop : IsStop c) (xs ys : List Char) :
    known? (xs ++ c :: ys) = known? xs := by
  -- a name that is longer than the part before the stop would hold the stop
  have other : ¬ (isAsciiAlphanumeric c ∨ c = ';') := by
    rcases stop with (rfl | rfl | rfl | rfl) | rfl <;> decide
  have unknown : ∀ m, xs.length + 1 ≤ m → m < xs.length + 1 + (ys.length + 1) →
      named? ((xs ++ c :: ys).take m) = none := by
    intro m low _
    by_contra known
    obtain ⟨text, known⟩ := Option.ne_none_iff_exists'.1 known
    refine other (mem_of_named? known ?_)
    rw [List.take_append, List.mem_append, List.take_cons (by omega)]
    exact .inr List.mem_cons_self
  have length : (xs ++ c :: ys).length + 1 = xs.length + 1 + (ys.length + 1) := by
    simp only [List.length_append, List.length_cons]
    omega
  rw [known?, known?, length, longestName_add _ unknown]
  refine longestName_congr fun m less => ?_
  rw [List.take_append_of_le_length (by omega)]

/-- The number of characters of a reference by name, the `&` apart. -/
def nameSize (cs : List Char) : Nat :=
  let letters := (cs.take 32).takeWhile isNamePart
  letters.length + semicolon (cs.drop letters.length)

theorem take_letters (cs : List Char) :
    cs.take ((cs.take 32).takeWhile isNamePart).length = (cs.take 32).takeWhile isNamePart :=
  (List.prefix_iff_eq_take.1
    ((List.takeWhile_prefix isNamePart).trans (List.take_prefix 32 cs))).symm

theorem nameSize_le (cs : List Char) : nameSize cs ≤ cs.length := by
  have short := congrArg List.length (take_letters cs)
  rw [List.length_take] at short
  simp only [nameSize]
  cases after : cs.drop ((cs.take 32).takeWhile isNamePart).length with
  | nil => simp only [semicolon]; omega
  | cons d rest =>
    have left := congrArg List.length after
    rw [List.length_drop, List.length_cons] at left
    simp only [semicolon]
    split <;> omega

/-- No known name is longer than the part of a text that may hold a name. -/
theorem le_nameSize {cs text : List Char} {m : Nat} (inside : m ≤ cs.length)
    (known : named? (cs.take m) = some text) : m ≤ nameSize cs := by
  by_contra low
  obtain ⟨-, short, first, last⟩ := shape_of_named? known
  rw [List.length_take, Nat.min_eq_left inside] at short
  obtain ⟨letters, hletters⟩ : ∃ letters, letters = (cs.take 32).takeWhile isNamePart := ⟨_, rfl⟩
  simp only [nameSize, ← hletters] at low
  obtain ⟨d, rest, after⟩ : ∃ d rest, cs.drop letters.length = d :: rest := by
    cases after : cs.drop letters.length with
    | nil =>
      have all := List.drop_eq_nil_iff.1 after
      omega
    | cons d rest => exact ⟨d, rest, rfl⟩
  have notPart : isNamePart d = false := by
    have cut : (cs.take 32).drop ((cs.take 32).takeWhile isNamePart).length =
        d :: rest.take (32 - letters.length - 1) := by
      rw [← hletters, List.drop_take, after, List.take_cons (by omega)]
    exact not_of_drop_takeWhile cut
  have here : cs[letters.length]? = some d := by
    rw [← List.head?_drop, after, List.head?_cons]
  rcases Nat.lt_or_ge letters.length (m - 1) with less | more
  · have mem : d ∈ (cs.take m).dropLast := by
      rw [List.mem_iff_getElem?]
      refine ⟨letters.length, ?_⟩
      rw [List.getElem?_dropLast, List.length_take, Nat.min_eq_left inside, if_pos less,
        List.getElem?_take_of_lt (by omega), here]
    rw [isNamePart_of_isAsciiAlphanumeric (first d mem)] at notPart
    cases notPart
  · have isLast : (cs.take m).getLast? = some d := by
      rw [List.getLast?_eq_getElem?, List.length_take, Nat.min_eq_left inside,
        show m - 1 = letters.length by omega, List.getElem?_take_of_lt (by omega), here]
    rcases last d isLast with letter | rfl
    · rw [isNamePart_of_isAsciiAlphanumeric letter] at notPart
      cases notPart
    · rw [after] at low
      simp only [semicolon] at low
      omega

theorem known?_eq (cs : List Char) : known? cs = longestName cs (nameSize cs + 1) := by
  have bound := nameSize_le cs
  have unknown : ∀ m, nameSize cs + 1 ≤ m → m < nameSize cs + 1 + (cs.length - nameSize cs) →
      named? (cs.take m) = none := by
    intro m low high
    by_contra known
    obtain ⟨text, known⟩ := Option.ne_none_iff_exists'.1 known
    have fits := le_nameSize (by omega) known
    omega
  have length : cs.length + 1 = nameSize cs + 1 + (cs.length - nameSize cs) := by omega
  rw [known?, length, longestName_add _ unknown]

theorem not_mem_name (cs : List Char) : '&' ∉ cs.take (nameSize cs) := by
  simp only [nameSize]
  rw [List.take_add, take_letters, List.mem_append, not_or]
  constructor
  · intro mem
    have all := List.all_takeWhile (p := isNamePart) (l := cs.take 32)
    exact absurd (List.all_eq_true.1 all _ mem) (by decide)
  · cases cs.drop ((cs.take 32).takeWhile isNamePart).length with
    | nil => simp
    | cons d rest =>
      simp only [semicolon]
      split
      · next same =>
        rw [(List.cons.inj same).1]
        simp
      · simp

theorem reference?_name {cs : List Char} (noNumber : cs.head? ≠ some '#') :
    reference? cs =
      if (cs.take 32).takeWhile isNamePart = [] then none
      else
        match named? (cs.take (nameSize cs)) with
        | some text => some (text, nameSize cs)
        | none =>
          match longestName cs (nameSize cs) with
          | some (text, length) =>
            some (text ++ (cs.take (nameSize cs)).drop length, nameSize cs)
          | none => some ('&' :: cs.take (nameSize cs), nameSize cs) := by
  have noSign : ∀ rest, cs = '#' :: rest → False := by
    rintro rest rfl
    exact noNumber rfl
  have same : longestName (cs.take (nameSize cs)) (nameSize cs) = longestName cs (nameSize cs) :=
    longestName_congr fun m less => by rw [List.take_take, Nat.min_eq_left (by omega)]
  have size : ((cs.take 32).takeWhile isNamePart).length +
      semicolon (cs.drop ((cs.take 32).takeWhile isNamePart).length) = nameSize cs := rfl
  have step := reference?.eq_4 cs (fun _ => noSign _) (fun _ => noSign _) noSign
  simp only [List.isEmpty_iff, size, List.length_take, Nat.min_eq_left (nameSize_le cs)] at step
  rw [← same]
  exact step

/-- A reference by name is decoded as far as a known name goes, and the rest is copied. -/
theorem decode_name {cs : List Char} (noNumber : cs.head? ≠ some '#') :
    decode ('&' :: cs) =
      match known? cs with
      | some (text, n) => text ++ decode (cs.drop n)
      | none => '&' :: decode cs := by
  have free := not_mem_name cs
  rw [decode, if_pos rfl, reference?_name noNumber, known?_eq]
  -- three attempts: the whole part, the longest name in it, and the ampersand alone
  by_cases empty : (cs.take 32).takeWhile isNamePart = []
  · have small : nameSize cs < 2 := by
      simp only [nameSize, empty, List.length_nil, List.drop_zero]
      unfold semicolon
      split <;> omega
    rw [if_pos empty]
    have none_or_one : nameSize cs = 0 ∨ nameSize cs = 1 := by omega
    rcases none_or_one with size | size <;> rw [size] <;> rfl
  · rw [if_neg empty]
    cases whole : named? (cs.take (nameSize cs)) with
    | some text =>
      have long := (shape_of_named? whole).1
      rw [List.length_take, Nat.min_eq_left (nameSize_le cs)] at long
      rw [longestName_succ cs long, whole]
    | none =>
      have shorter : longestName cs (nameSize cs + 1) = longestName cs (nameSize cs) := by
        refine longestName_add 1 fun m low high => ?_
        rw [show m = nameSize cs by omega, whole]
      rw [shorter]
      cases found : longestName cs (nameSize cs) with
      | some result =>
        obtain ⟨text, n⟩ := result
        have inside := (longestName_eq_some found).2.1
        have rest : cs.drop n = (cs.take (nameSize cs)).drop n ++ cs.drop (nameSize cs) := by
          rw [← List.drop_append_of_le_length, List.take_append_drop]
          rw [List.length_take, Nat.min_eq_left (nameSize_le cs)]
          omega
        simp only [rest, decode_append (fun mem => free (List.mem_of_mem_drop mem)),
          List.append_assoc]
      | none =>
        have copied := decode_append free (cs.drop (nameSize cs))
        rw [List.take_append_drop] at copied
        simp only [copied, List.cons_append]

theorem semicolon_append_cons {c : Char} (stop : IsStop c) (xs ys : List Char) :
    semicolon (xs ++ c :: ys) = semicolon xs := by
  cases xs with
  | nil => rcases stop with (rfl | rfl | rfl | rfl) | rfl <;> rfl
  | cons x xs =>
    rw [List.cons_append]
    unfold semicolon
    by_cases mark : x = ';' <;> simp [mark]

theorem semicolon_le (xs : List Char) : semicolon xs ≤ xs.length := by
  unfold semicolon
  split <;> simp

/-- The digits of a numeric reference and its semicolon end before a stop. -/
theorem digits_append_cons {p : Char → Bool} {c : Char} (stop : IsStop c) (other : p c = false)
    (xs ys : List Char) :
    (xs ++ c :: ys).takeWhile p = xs.takeWhile p ∧
      semicolon ((xs ++ c :: ys).drop (xs.takeWhile p).length) =
        semicolon (xs.drop (xs.takeWhile p).length) ∧
      (xs.takeWhile p).length + semicolon (xs.drop (xs.takeWhile p).length) ≤ xs.length := by
  have short := (List.takeWhile_prefix p (l := xs)).length_le
  refine ⟨takeWhile_append_cons other xs ys, ?_, ?_⟩
  · rw [List.drop_append_of_le_length short, semicolon_append_cons stop]
  · have := semicolon_le (xs.drop (xs.takeWhile p).length)
    rw [List.length_drop] at this
    omega

/-- A numeric reference ends before a stop. -/
theorem reference?_number {c : Char} (stop : IsStop c) (xs ys : List Char) :
    reference? ('#' :: xs ++ c :: ys) = reference? ('#' :: xs) ∧
      ∀ text taken, reference? ('#' :: xs) = some (text, taken) → taken ≤ xs.length + 1 := by
  have noMark : c ≠ 'x' ∧ c ≠ 'X' := by
    rcases stop with (rfl | rfl | rfl | rfl) | rfl <;> decide
  have noDigit : (fun d : Char => decide ('0' ≤ d) && decide (d ≤ '9')) c = false := by
    rcases stop with (rfl | rfl | rfl | rfl) | rfl <;> decide
  -- the mark of hexadecimal digits stands before the stop, or the stop is taken for it: it is none
  by_cases hexadecimal : ∃ mark rest, (mark = 'x' ∨ mark = 'X') ∧ xs = mark :: rest
  · obtain ⟨mark, rest, hmark, rfl⟩ := hexadecimal
    obtain ⟨digits, ending, short⟩ := digits_append_cons stop stop.not_hex rest ys
    rcases hmark with rfl | rfl <;>
    · simp only [List.cons_append, reference?, digits, ending]
      refine ⟨trivial, fun text taken found => ?_⟩
      split at found
      · cases found
      · obtain ⟨-, rfl⟩ := Prod.mk.inj (Option.some.inj found)
        rw [List.length_cons]
        omega
  · have noMark₁ : ∀ mark rest, mark = 'x' ∨ mark = 'X' → xs ≠ mark :: rest :=
      fun mark rest hmark same => hexadecimal ⟨mark, rest, hmark, same⟩
    have noMark₂ : ∀ mark rest, mark = 'x' ∨ mark = 'X' → xs ++ c :: ys ≠ mark :: rest := by
      intro mark rest hmark same
      cases xs with
      | nil =>
        rw [(List.cons.inj same).1] at noMark
        exact hmark.elim noMark.1 noMark.2
      | cons x xs => exact noMark₁ mark xs hmark (by rw [(List.cons.inj same).1])
    obtain ⟨digits, ending, short⟩ :=
      digits_append_cons (p := fun d => '0' ≤ d && d ≤ '9') stop noDigit xs ys
    rw [List.cons_append, reference?.eq_3 _ (noMark₁ 'x' · (.inl rfl)) (noMark₁ 'X' · (.inr rfl)),
      reference?.eq_3 _ (noMark₂ 'x' · (.inl rfl)) (noMark₂ 'X' · (.inr rfl)), digits, ending]
    refine ⟨rfl, fun text taken found => ?_⟩
    split at found
    · cases found
    · obtain ⟨-, rfl⟩ := Prod.mk.inj (Option.some.inj found)
      omega

theorem cuts_number {digits : List Char}
    (ih : ∀ rest : List Char, rest.length ≤ digits.length + 1 → Cuts decode rest) :
    Cuts decode ('&' :: '#' :: digits) := by
  cases found : reference? ('#' :: digits) with
  | none =>
    refine (ih ('#' :: digits) (by simp)).of_rest ['&'] fun c stop ys => ?_
    rw [List.cons_append, decode, if_pos rfl, (reference?_number stop digits ys).1, found]
    rfl
  | some result =>
    obtain ⟨text, taken⟩ := result
    have le := (reference?_number (.inr rfl) digits []).2 text taken found
    refine (ih (('#' :: digits).drop taken) ?_).of_rest text fun c stop ys => ?_
    · rw [List.length_drop, List.length_cons]
      omega
    · rw [List.cons_append, decode, if_pos rfl, (reference?_number stop digits ys).1, found]
      simp only [List.drop_append_of_le_length (show taken ≤ ('#' :: digits).length from le)]

theorem cuts_name {xs : List Char} (noNumber : ∀ digits, xs ≠ '#' :: digits)
    (ih : ∀ rest : List Char, rest.length ≤ xs.length → Cuts decode rest) :
    Cuts decode ('&' :: xs) := by
  have noSign : ∀ c, IsStop c → ∀ ys, (xs ++ c :: ys).head? ≠ some '#' := by
    intro c stop ys sign
    cases xs with
    | nil =>
      rw [Option.some.inj sign] at stop
      rcases stop with (h | h | h | h) | h <;> exact absurd h (by decide)
    | cons d xs => exact noNumber xs (by rw [Option.some.inj sign])
  cases found : known? xs with
  | none =>
    refine (ih xs (Nat.le_refl _)).of_rest ['&'] fun c stop ys => ?_
    rw [List.cons_append, decode_name (noSign c stop ys), known?_append_cons stop, found]
    rfl
  | some result =>
    obtain ⟨text, n⟩ := result
    have inside := (longestName_eq_some found).2.1
    refine (ih (xs.drop n) ?_).of_rest text fun c stop ys => ?_
    · rw [List.length_drop]
      omega
    · rw [List.cons_append, decode_name (noSign c stop ys), known?_append_cons stop, found]
      simp only [List.drop_append_of_le_length (show n ≤ xs.length by omega)]

theorem decode_cut (xs : List Char) : Cuts decode xs := by
  -- a reference takes several characters at once, so the induction is on the length
  induction size : xs.length using Nat.strongRecOn generalizing xs with
  | ind n ih =>
    subst size
    match xs, fun rest shorter => ih _ shorter rest rfl with
    | [], _ =>
      refine ⟨[], fun c stop ys => ?_⟩
      rw [List.nil_append, List.nil_append, decode_cons]
      rcases stop with (rfl | rfl | rfl | rfl) | rfl <;> decide
    | x :: xs, ih =>
      by_cases amp : x = '&'
      · subst amp
        by_cases number : ∃ digits, xs = '#' :: digits
        · obtain ⟨digits, rfl⟩ := number
          exact cuts_number fun rest le => ih rest (Nat.lt_succ_of_le le)
        · exact cuts_name (fun digits same => number ⟨digits, same⟩)
            fun rest le => ih rest (Nat.lt_succ_of_le le)
      · refine (ih xs (by simp)).of_rest [x] fun c stop ys => ?_
        rw [List.cons_append, decode_cons amp, List.singleton_append]

end CharacterReference

end BracketCss.Text
