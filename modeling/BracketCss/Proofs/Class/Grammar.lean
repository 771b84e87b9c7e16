import BracketCss.Proofs.Class.Form

/-!
# The grammar of class names

A class name is written with the names of its variants, each ended by a colon, then its utility, a
hyphen, and its raw value in brackets. The reader finds the variants at the colons before the first
bracket, and it matches the rest separately; together the two accept exactly the names of this
form, and what they find is the only way to write the name.

## Main definitions

* `Variants.AreNamed names variants`: one breakpoint and one pseudo-class at most, in either order
* `Variants.front names`: the names, each ended by a colon
* `UtilityClass.IsWritten name variants utility raw`: the form of a name

## Main results

* `Variants.ofNames_eq_ok_iff`: which lists of names are read as variants
* `splitVariants_eq_ok_iff`: where a name is cut
* `bracketParts?_eq_some_iff`: which bodies have a utility and a raw value
* `UtilityClass.invalidForm_iff_and_isWritten`: the names of this form are the ones accepted
-/

namespace BracketCss

open Text

/-! ## Lists of variants -/

namespace Variants

/-- The names of variants in the order in which they are written: at most one breakpoint and at
most one pseudo-class. -/
inductive AreNamed : List String → Variants → Prop
  /-- No variants. -/
  | plain : AreNamed [] ⟨none, none⟩
  /-- A breakpoint alone. -/
  | breakpoint (b : Breakpoint) : AreNamed [b.name] ⟨some b, none⟩
  /-- A pseudo-class alone. -/
  | pseudo (p : PseudoClass) : AreNamed [p.name] ⟨none, some p⟩
  /-- The breakpoint first. -/
  | breakpointFirst (b : Breakpoint) (p : PseudoClass) : AreNamed [b.name, p.name] ⟨some b, some p⟩
  /-- The pseudo-class first. -/
  | pseudoFirst (p : PseudoClass) (b : Breakpoint) : AreNamed [p.name, b.name] ⟨some b, some p⟩

/-- What stands before the utility of a name: the names of variants, each ended by a colon. -/
def front (names : List String) : List Char := names.flatMap fun name => name.toList ++ [':']

end Variants

theorem Breakpoint.ofName?_name (b : Breakpoint) : Breakpoint.ofName? b.name = some b := by
  cases b <;> decide +kernel

theorem PseudoClass.ofName?_name (p : PseudoClass) : PseudoClass.ofName? p.name = some p := by
  cases p <;> decide +kernel

/-- No pseudo-class has the name of a breakpoint. -/
theorem Breakpoint.ofName?_pseudo (p : PseudoClass) : Breakpoint.ofName? p.name = none := by
  cases p <;> decide +kernel

theorem Breakpoint.name_of_ofName? {s : String} {b : Breakpoint}
    (h : Breakpoint.ofName? s = some b) : s = b.name := by
  have same := List.find?_some h
  exact (beq_iff_eq.1 same).symm

theorem PseudoClass.name_of_ofName? {s : String} {p : PseudoClass}
    (h : PseudoClass.ofName? s = some p) : s = p.name := by
  have same := List.find?_some h
  exact (beq_iff_eq.1 same).symm

namespace Variants

variable {variants next : Variants} {names : List String} {name : String}

theorem add_breakpoint (b : Breakpoint) (h : variants.breakpoint = none) :
    variants.add b.name = .ok ⟨some b, variants.pseudo⟩ := by
  simp only [add, Breakpoint.ofName?_name, h, Option.isNone_none, if_true]

theorem add_pseudo (p : PseudoClass) (h : variants.pseudo = none) :
    variants.add p.name = .ok ⟨variants.breakpoint, some p⟩ := by
  simp only [add, Breakpoint.ofName?_pseudo, PseudoClass.ofName?_name, h, Option.isNone_none,
    if_true]

/-- A variant is added where none of its kind stands. -/
theorem add_eq_ok (h : variants.add name = .ok next) :
    (∃ b : Breakpoint, name = b.name ∧ variants.breakpoint = none ∧
      next = ⟨some b, variants.pseudo⟩) ∨
    ∃ p : PseudoClass, name = p.name ∧ variants.pseudo = none ∧
      next = ⟨variants.breakpoint, some p⟩ := by
  unfold add at h
  split at h
  · next b found =>
    split at h
    · next free =>
      exact .inl ⟨b, Breakpoint.name_of_ofName? found, Option.isNone_iff_eq_none.1 free,
        (Except.ok.inj h).symm⟩
    · cases h
  · next p _ found =>
    split at h
    · next free =>
      exact .inr ⟨p, PseudoClass.name_of_ofName? found, Option.isNone_iff_eq_none.1 free,
        (Except.ok.inj h).symm⟩
    · cases h
  · cases h

/-- One more name keeps the variants named. -/
theorem AreNamed.add (named : AreNamed names variants) (h : variants.add name = .ok next) :
    AreNamed (names ++ [name]) next := by
  obtain ⟨b, rfl, free, rfl⟩ | ⟨p, rfl, free, rfl⟩ := add_eq_ok h
  · cases named with
    | plain => exact .breakpoint b
    | pseudo p => exact .pseudoFirst p b
    | breakpoint _ | breakpointFirst _ _ | pseudoFirst _ _ => cases free
  · cases named with
    | plain => exact .pseudo p
    | breakpoint b => exact .breakpointFirst b p
    | pseudo _ | breakpointFirst _ _ | pseudoFirst _ _ => cases free

theorem AreNamed.foldlM_add {more : List String} (named : AreNamed names variants)
    (h : more.foldlM Variants.add variants = .ok next) : AreNamed (names ++ more) next := by
  induction more generalizing names variants with
  | nil =>
    obtain rfl := Except.ok.inj h
    rwa [List.append_nil]
  | cons name more ih =>
    rw [List.foldlM_cons] at h
    cases added : variants.add name with
    | error cause =>
      rw [added] at h
      cases h
    | ok other =>
      rw [added] at h
      have rest := ih (named.add added) h
      rwa [List.append_assoc] at rest

/-- A list of names is read as variants if it holds at most one of each kind. -/
theorem ofNames_eq_ok_iff : ofNames names = .ok variants ↔ AreNamed names variants := by
  refine ⟨fun h => AreNamed.plain.foldlM_add h, fun named => ?_⟩
  cases named with
  | plain => rfl
  | breakpoint b =>
    rw [ofNames, List.foldlM_cons, add_breakpoint b rfl]
    rfl
  | pseudo p =>
    rw [ofNames, List.foldlM_cons, add_pseudo p rfl]
    rfl
  | breakpointFirst b p =>
    rw [ofNames, List.foldlM_cons, add_breakpoint b rfl]
    exact (bind_pure _).trans (add_pseudo p rfl)
  | pseudoFirst p b =>
    rw [ofNames, List.foldlM_cons, add_pseudo p rfl]
    exact (bind_pure _).trans (add_breakpoint b rfl)

/-- A list of names that is refused is one of an invalid form. -/
theorem code_of_foldlM_add {cause : Rejection}
    (h : names.foldlM Variants.add variants = .error cause) : cause.code = .invalidForm := by
  induction names generalizing variants with
  | nil => cases h
  | cons name names ih =>
    rw [List.foldlM_cons] at h
    cases added : variants.add name with
    | ok other =>
      rw [added] at h
      exact ih h
    | error first =>
      rw [added] at h
      obtain rfl := Except.error.inj h
      unfold add at added
      split at added
      · split at added
        · cases added
        · rw [← Except.error.inj added, Rejection.code]
      · split at added
        · cases added
        · rw [← Except.error.inj added, Rejection.code]
      · rw [← Except.error.inj added, Rejection.code]

theorem AreNamed.mem_names (named : AreNamed names variants) :
    ∀ name ∈ names, name ∈ Variants.names :=
  mem_names_of_ofNames (ofNames_eq_ok_iff.2 named)

theorem AreNamed.isAsciiNameChar (named : AreNamed names variants) :
    ∀ name ∈ names, ∀ c ∈ name.toList, isAsciiNameChar c :=
  fun name mem => isAsciiNameChar_of_mem_names (named.mem_names name mem)

@[simp] theorem front_nil : front [] = [] := rfl

@[simp] theorem front_cons (name : String) (names : List String) :
    front (name :: names) = name.toList ++ ':' :: front names := by
  simp [front]

theorem AreNamed.isFrontChar_front (named : AreNamed names variants) :
    ∀ c ∈ front names, IsFrontChar c := by
  intro c hc
  obtain ⟨name, mem, hc⟩ := List.mem_flatMap.1 hc
  rcases List.mem_append.1 hc with hc | hc
  · exact .inl (named.isAsciiNameChar name mem c hc)
  · exact .inr (List.mem_singleton.1 hc)

theorem AreNamed.not_bracket_front (named : AreNamed names variants) :
    ∀ c ∈ front names, (c != '[') = true := by
  intro c hc
  rcases named.isFrontChar_front c hc with plain | rfl
  · exact bne_iff_ne.2 fun same => absurd (same ▸ plain) (by decide)
  · decide

end Variants

/-! ## Where a name is cut -/

theorem not_mem_of_mem_pieces {mark : Char} {cs piece : List Char} (h : piece ∈ pieces mark cs) :
    mark ∉ piece := by
  induction cs generalizing piece with
  | nil => simp_all [pieces]
  | cons c cs ih =>
    obtain ⟨first, others, split_⟩ := List.exists_cons_of_ne_nil (pieces_ne_nil mark cs)
    rw [split_] at ih
    rw [pieces, split_] at h
    split at h
    · rcases List.mem_cons.1 h with rfl | h
      · exact List.not_mem_nil
      · exact ih h
    · next other =>
      rcases List.mem_cons.1 h with rfl | h
      · exact List.not_mem_cons_of_ne_of_not_mem (Ne.symm other) (ih List.mem_cons_self)
      · exact ih (List.mem_cons_of_mem _ h)

/-- Every name in front of a text is a piece of its own. -/
theorem pieces_front {names : List String} (h : ∀ name ∈ names, ':' ∉ name.toList)
    (cs : List Char) :
    pieces ':' (Variants.front names ++ cs) = names.map String.toList ++ pieces ':' cs := by
  induction names with
  | nil => rfl
  | cons name names ih =>
    obtain ⟨first, rest⟩ := List.forall_mem_cons.1 h
    rw [Variants.front_cons, List.append_assoc, List.cons_append, pieces_append_cons first,
      ih rest, List.map_cons, List.cons_append]

theorem intercalate_concat (mark : Char) (segments : List (List Char)) (last : List Char) :
    [mark].intercalate (segments ++ [last]) = segments.flatMap (· ++ [mark]) ++ last := by
  induction segments with
  | nil => simp
  | cons segment segments ih =>
    obtain ⟨next, others, same⟩ : ∃ next others, segments ++ [last] = next :: others :=
      List.exists_cons_of_ne_nil (by simp)
    rw [List.cons_append, same, List.intercalate_cons_cons, ← same, ih]
    simp

/-- A text as it stands before its first bracket and from there on. -/
theorem exists_cut (cs : List Char) : ∃ head tail,
    cs.takeWhile (· != '[') = head ∧ cs.dropWhile (· != '[') = tail ∧ cs = head ++ tail ∧
      (∀ c ∈ head, (c != '[') = true) ∧ tail.takeWhile (· != '[') = [] := by
  refine ⟨_, _, rfl, rfl, List.takeWhile_append_dropWhile.symm,
    List.all_eq_true.1 List.all_takeWhile, ?_⟩
  cases rest : cs.dropWhile (· != '[') with
  | nil => rfl
  | cons c tail =>
    have bracket := List.head?_dropWhile_not (· != '[') cs
    rw [rest] at bracket
    exact List.takeWhile_cons_of_neg (by simpa using bracket)

/-- The body of a name holds no colon before its bracket, and variants stand in front of it. -/
theorem splitVariants_eq_ok_iff {name : String} {variants : Variants} {body : List Char} :
    splitVariants name = .ok (variants, body) ↔
      ∃ names, Variants.AreNamed names variants ∧ name.toList = Variants.front names ++ body ∧
        ':' ∉ body.takeWhile (· != '[') := by
  constructor
  · intro h
    obtain ⟨head, tail, before, after, whole, unbracketed, stop⟩ := exists_cut name.toList
    simp only [splitVariants, before, after] at h
    split at h
    · next variants known =>
      obtain ⟨rfl, rfl⟩ := Prod.mk.inj (Except.ok.inj h)
      obtain ⟨segments, last, split_⟩ : ∃ segments last, pieces ':' head = segments ++ [last] :=
        ⟨_, _, (List.dropLast_append_getLast (pieces_ne_nil ':' head)).symm⟩
      have again := intercalate_pieces ':' head
      have inside : last ∈ pieces ':' head := by simp [split_]
      rw [split_, intercalate_concat] at again
      rw [split_, List.dropLast_concat] at known
      rw [split_, List.getLastD_concat]
      refine ⟨_, Variants.ofNames_eq_ok_iff.1 known, ?_, ?_⟩
      · rw [whole, ← again, Variants.front, List.flatMap_map]
        simp
      · rw [List.takeWhile_append_of_pos fun c hc => unbracketed c (mem_of_mem_pieces inside hc),
          stop, List.append_nil]
        exact not_mem_of_mem_pieces inside
    · cases h
  · rintro ⟨names, named, same, absent⟩
    have letters := named.isAsciiNameChar
    have colons : ∀ name ∈ names, ':' ∉ name.toList := fun name mem colon =>
      absurd (letters name mem ':' colon) (by decide)
    have head : (Variants.front names ++ body).takeWhile (· != '[') =
        Variants.front names ++ body.takeWhile (· != '[') :=
      List.takeWhile_append_of_pos named.not_bracket_front
    have rest : (Variants.front names ++ body).dropWhile (· != '[') = body.dropWhile (· != '[') :=
      List.dropWhile_append_of_pos named.not_bracket_front
    have back : (names.map String.toList).map String.ofList = names := by simp
    simp only [splitVariants, same, head, rest, pieces_front colons, pieces_of_not_mem absent,
      List.dropLast_concat, List.getLastD_concat, List.takeWhile_append_dropWhile, back,
      Variants.ofNames_eq_ok_iff.2 named]

/-! ## What follows the variants -/

namespace UtilityClass

/-- A name of a utility: a letter, then letters, digits and hyphens. -/
def IsUtility (utility : List Char) : Prop :=
  ∃ c cs, utility = c :: cs ∧ isAsciiLetter c ∧ ∀ d ∈ cs, isAsciiNameChar d

end UtilityClass

theorem isUtilityName_iff {utility : List Char} :
    isUtilityName utility ↔ UtilityClass.IsUtility utility := by
  cases utility with
  | nil => simp [isUtilityName, UtilityClass.IsUtility]
  | cons c cs => simp [isUtilityName, UtilityClass.IsUtility]

/-- A body has a utility and a raw value if it is written with them. -/
theorem bracketParts?_eq_some_iff {body utility raw : List Char} :
    bracketParts? body = some (utility, raw) ↔
      body = utility ++ ['-', '['] ++ raw ++ [']'] ∧ UtilityClass.IsUtility utility ∧ raw ≠ [] ∧
        ']' ∉ raw := by
  constructor
  · intro h
    have whole := append_bracketParts? h
    obtain ⟨-, named, unclosed⟩ := takeWhile_of_bracketParts? h
    refine ⟨whole, isUtilityName_iff.1 named, ?_, unclosed⟩
    rintro rfl
    simp only [bracketParts?] at h
    split at h
    · split at h
      · next good =>
        obtain ⟨-, empty⟩ := Prod.mk.inj (Option.some.inj h)
        exact good.2.2.2.1 empty
      · cases h
    · cases h
  · rintro ⟨rfl, named, filled, unclosed⟩
    have letters : ∀ c ∈ utility ++ ['-'], (c != '[') = true := by
      intro c hc
      rcases List.mem_append.1 hc with hc | hc
      · have letter := isAsciiNameChar_of_isUtilityName (isUtilityName_iff.2 named) c hc
        exact bne_iff_ne.2 fun same => absurd (same ▸ letter) (by decide)
      · rw [List.mem_singleton.1 hc]
        decide
    have whole : utility ++ ['-', '['] ++ raw ++ [']'] =
        (utility ++ ['-']) ++ '[' :: (raw ++ [']']) := by simp
    have head : (utility ++ ['-'] ++ '[' :: (raw ++ [']'])).takeWhile (· != '[') =
        utility ++ ['-'] := by
      rw [List.takeWhile_append_of_pos letters, List.takeWhile_cons_of_neg (by decide),
        List.append_nil]
    have rest : (utility ++ ['-'] ++ '[' :: (raw ++ [']'])).dropWhile (· != '[') =
        '[' :: (raw ++ [']']) := by
      rw [List.dropWhile_append_of_pos letters, List.dropWhile_cons_of_neg (by decide)]
    simp only [bracketParts?, whole, head, rest, List.dropLast_concat, List.getLast?_concat,
      isUtilityName_iff.2 named]
    rw [if_pos ⟨trivial, trivial, trivial, filled, unclosed⟩]

/-! ## Reading names -/

/-- A name that cannot be cut is of an invalid form. -/
theorem code_of_splitVariants {name : String} {failure : Failure}
    (h : splitVariants name = .error failure) : failure.code = .invalidForm := by
  simp only [splitVariants] at h
  split at h
  · cases h
  · next cause refused =>
    rw [← Except.error.inj h]
    exact Variants.code_of_foldlM_add refused

namespace UtilityClass

variable {table : PropertyTable} {limits : InputLimits} {name utility raw : String}
  {variants : Variants}

/-- A name is written with variants, a utility and a raw value: the names of the variants, each
ended by a colon, the utility, a hyphen, and the raw value in brackets. -/
structure IsWritten (name : String) (variants : Variants) (utility raw : String) : Prop where
  /-- The parts put together are the name. -/
  whole : ∃ names, Variants.AreNamed names variants ∧
    name.toList = Variants.front names ++ (utility.toList ++ ['-', '['] ++ raw.toList ++ [']'])
  /-- The utility is a name. -/
  utility : IsUtility utility.toList
  /-- The raw value is not empty. -/
  filled : raw.toList ≠ []
  /-- The raw value holds no closing bracket. -/
  unclosed : ']' ∉ raw.toList

theorem isWritten_iff : IsWritten name variants utility raw ↔
    ∃ body, splitVariants name = .ok (variants, body) ∧
      bracketParts? body = some (utility.toList, raw.toList) := by
  constructor
  · rintro ⟨⟨names, named, whole⟩, isUtility, filled, unclosed⟩
    have parts := bracketParts?_eq_some_iff.2 ⟨rfl, isUtility, filled, unclosed⟩
    refine ⟨_, splitVariants_eq_ok_iff.2 ⟨names, named, whole, ?_⟩, parts⟩
    rw [(takeWhile_of_bracketParts? parts).1]
    intro colon
    rcases List.mem_append.1 colon with colon | colon
    · have letter := isAsciiNameChar_of_isUtilityName (isUtilityName_iff.2 isUtility) _ colon
      exact absurd letter (by decide)
    · exact absurd colon (by decide)
  · rintro ⟨body, split_, parts⟩
    obtain ⟨names, named, whole, -⟩ := splitVariants_eq_ok_iff.1 split_
    obtain ⟨rfl, isUtility, filled, unclosed⟩ := bracketParts?_eq_some_iff.1 parts
    exact ⟨⟨names, named, whole⟩, isUtility, filled, unclosed⟩

/-- There is one way at most to write a name. -/
theorem IsWritten.unique {variants' : Variants} {utility' raw' : String}
    (h : IsWritten name variants utility raw) (h' : IsWritten name variants' utility' raw') :
    variants' = variants ∧ utility' = utility ∧ raw' = raw := by
  obtain ⟨body, split_, parts⟩ := isWritten_iff.1 h
  obtain ⟨body', split', parts'⟩ := isWritten_iff.1 h'
  obtain ⟨rfl, rfl⟩ := Prod.mk.inj (Except.ok.inj (split'.symm.trans split_))
  obtain ⟨sameUtility, sameRaw⟩ := Prod.mk.inj (Option.some.inj (parts'.symm.trans parts))
  exact ⟨rfl, String.toList_inj.1 sameUtility, String.toList_inj.1 sameRaw⟩

/-- Once a name has its parts, it is not refused for its form. -/
theorem code_of_ofParts {utility raw : List Char} {failure : Failure}
    (h : ofParts table limits name variants utility raw = .error failure) :
    failure.code ≠ .invalidForm := by
  simp only [ofParts] at h
  split at h
  · rw [← Except.error.inj h]
    rintro ⟨⟩
  · split at h
    · split at h
      · rw [← Except.error.inj h]
        rintro ⟨⟩
      · split at h
        · rw [← Except.error.inj h]
          rintro ⟨⟩
        · cases h
    · rw [← Except.error.inj h]
      rintro ⟨⟩

/-- What becomes of a name without threats that was cut. -/
theorem ofClean_of_splitVariants {body : List Char}
    (harmless : (ThreatReport.ofText name).isBlocking = false)
    (split_ : splitVariants name = .ok (variants, body)) :
    ofClean table limits name =
      if limits.budget < 0 then .error (Rejection.slow.failure (some name) [])
      else
        match bracketParts? body with
        | some (utility, raw) => ofParts table limits name variants utility raw
        | none =>
          .error ((Rejection.malformed ((formFaults table body).map (·.1))).failure (some name)
            ((formFaults table body).filterMap (·.2))) := by
  simp only [ofClean, harmless, Bool.false_eq_true, if_false, split_, bind, Except.bind]
  split
  · rfl
  · cases bracketParts? body <;> rfl

/-- A name without threats that is written with its parts is not refused for its form. -/
theorem IsWritten.code_of_ofClean (h : IsWritten name variants utility raw)
    (harmless : (ThreatReport.ofText name).isBlocking = false) (budget : 0 ≤ limits.budget)
    {failure : Failure} (refused : ofClean table limits name = .error failure) :
    failure.code ≠ .invalidForm := by
  obtain ⟨body, split_, parts⟩ := isWritten_iff.1 h
  rw [ofClean_of_splitVariants harmless split_, if_neg (Rat.not_lt.2 budget), parts] at refused
  exact code_of_ofParts refused

/-- A name without threats that is not written in this way is refused for its form. -/
theorem exists_failure_of_not_isWritten
    (h : ∀ variants utility raw, ¬ IsWritten name variants utility raw)
    (harmless : (ThreatReport.ofText name).isBlocking = false) :
    ∃ failure, ofClean table limits name = .error failure ∧ failure.code = .invalidForm := by
  cases split_ : splitVariants name with
  | error failure =>
    refine ⟨failure, ?_, code_of_splitVariants split_⟩
    simp only [ofClean, harmless, Bool.false_eq_true, if_false, split_, bind, Except.bind]
  | ok found =>
    obtain ⟨variants, body⟩ := found
    rw [ofClean_of_splitVariants harmless split_]
    split
    · exact ⟨_, rfl, rfl⟩
    · split
      · next utility raw parts =>
        have written : IsWritten name variants (.ofList utility) (.ofList raw) :=
          isWritten_iff.2 ⟨body, split_, by simpa using parts⟩
        exact absurd written (h _ _ _)
      · exact ⟨_, rfl, rfl⟩

/-- A class that was read is written with its own parts. -/
theorem isWritten_of_ofClean {c : UtilityClass} (h : ofClean table limits name = .ok c) :
    IsWritten name c.variants c.utility c.raw := by
  obtain ⟨-, variants, body, utility, raw, split_, parts, found⟩ := ofClean_eq_ok h
  obtain ⟨own, components, value, type, detail, -, -, -, rfl⟩ := ofParts_eq_ok found
  exact isWritten_iff.2 ⟨body, split_, by simpa using parts⟩

/-- **The grammar is accepted exactly.** A token without threats is refused for its form if and only
if it is not written with variants, a utility and a raw value in brackets; and a class that is read
has the name of the token and the only parts with which that name is written. -/
theorem invalidForm_iff_and_isWritten {s : String} (budget : 0 ≤ limits.budget)
    (cleaned : Clean.clean? limits.classLength s = some name) (filled : name ≠ "")
    (harmless : (ThreatReport.ofText name).isBlocking = false) :
    ((∃ failure, read table limits (.string s) = .error failure ∧ failure.code = .invalidForm) ↔
        ¬ ∃ variants utility raw, IsWritten name variants utility raw) ∧
      ∀ c, read table limits (.string s) = .ok c →
        c.name = name ∧ IsWritten c.name c.variants c.utility c.raw ∧
          ∀ variants utility raw, IsWritten c.name variants utility raw →
            variants = c.variants ∧ utility = c.utility ∧ raw = c.raw := by
  have stage : read table limits (.string s) = ofClean table limits name := by
    simp only [read, ofText, cleaned, String.isEmpty_iff, if_neg filled]
  rw [stage]
  refine ⟨⟨?_, fun h => ?_⟩, fun c found => ?_⟩
  · rintro ⟨failure, refused, code⟩ ⟨variants, utility, raw, written⟩
    exact written.code_of_ofClean harmless budget refused code
  · exact exists_failure_of_not_isWritten (fun v u r written => h ⟨v, u, r, written⟩) harmless
  · have written := isWritten_of_ofClean found
    rw [name_of_ofClean found]
    exact ⟨rfl, written, fun _ _ _ other => written.unique other⟩

/-- A name with a variant twice cannot be written. -/
theorem invalidForm_iff_and_isWritten_repeated :
    Clean.clean? 500 " sm:sm:p-[1px]" = some "sm:sm:p-[1px]" ∧
      ¬ ∃ variants utility raw, IsWritten "sm:sm:p-[1px]" variants utility raw := by
  have cleaned : Clean.clean? 500 " sm:sm:p-[1px]" = some "sm:sm:p-[1px]" := by decide +kernel
  have harmless : (ThreatReport.ofText "sm:sm:p-[1px]").isBlocking = false := by decide +kernel
  have refused : read .standard .standard (.string " sm:sm:p-[1px]") =
      .error ⟨.invalidForm, "Variant 'sm' conflicts with another variant", some "sm:sm:p-[1px]", [],
        .nothing⟩ := by decide +kernel
  have grammar := (@invalidForm_iff_and_isWritten .standard .standard _ _ (by decide +kernel)
    cleaned (by decide) harmless).1
  exact ⟨cleaned, grammar.1 ⟨_, refused, rfl⟩⟩

end UtilityClass

end BracketCss
