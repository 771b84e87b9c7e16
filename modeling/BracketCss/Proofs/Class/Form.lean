import BracketCss.Proofs.Class.Faithful
import BracketCss.Proofs.Text.Pair

/-!
# The form of a class name

What can stand in the name of a class that was read, by its place. Before the bracket stand the
names of variants and of a utility, so there are only ASCII name characters and colons; between
the brackets stands the raw value. Everywhere, cleaning has left no control characters and no
blanks but spaces.

## Main definitions

* `PropertyTable.IsNamed table`: the properties of a table are names

## Main results

* `mem_names_of_ofNames`: all variants of a class are known ones
* `UtilityClass.exists_front_of_read`: what stands before the bracket
* `UtilityClass.isTidy_of_read`: the characters that cleaning leaves
* `UtilityClass.property_chars`: the property that it sets
-/

namespace BracketCss

open Text

/-! ## Variants -/

theorem mem_names_of_add {variants next : Variants} {name : String}
    (h : variants.add name = .ok next) : name ∈ Variants.names := by
  rw [Variants.names, List.mem_append, List.mem_map, List.mem_map]
  unfold Variants.add at h
  split at h
  · next breakpoint found =>
    refine .inl ⟨breakpoint, breakpoint.mem_all, ?_⟩
    have same := List.find?_some found
    exact beq_iff_eq.1 same
  · next pseudo _ found =>
    refine .inr ⟨pseudo, pseudo.mem_all, ?_⟩
    have same := List.find?_some found
    exact beq_iff_eq.1 same
  · cases h

theorem mem_names_of_foldlM_add {names : List String} {start variants : Variants}
    (h : names.foldlM Variants.add start = .ok variants) :
    ∀ name ∈ names, name ∈ Variants.names := by
  induction names generalizing start with
  | nil =>
    intro name mem
    cases mem
  | cons first names ih =>
    rw [List.foldlM_cons] at h
    cases added : start.add first with
    | error cause =>
      rw [added] at h
      cases h
    | ok next =>
      rw [added] at h
      exact List.forall_mem_cons.2 ⟨mem_names_of_add added, ih h⟩

/-- Whatever is read as variants has the names of known ones. -/
theorem mem_names_of_ofNames {names : List String} {variants : Variants}
    (h : Variants.ofNames names = .ok variants) : ∀ name ∈ names, name ∈ Variants.names :=
  mem_names_of_foldlM_add h

theorem isAsciiNameChar_of_mem_names {name : String} (h : name ∈ Variants.names) :
    ∀ c ∈ name.toList, isAsciiNameChar c := by
  have table : ∀ known ∈ Variants.names, ∀ c ∈ known.toList, isAsciiNameChar c := by decide +kernel
  exact table name h

/-! ## Pieces -/

/-- A text is its pieces with the mark between them. -/
theorem intercalate_pieces (mark : Char) (cs : List Char) :
    [mark].intercalate (pieces mark cs) = cs := by
  induction cs with
  | nil => rfl
  | cons c cs ih =>
    obtain ⟨first, others, split_⟩ := List.exists_cons_of_ne_nil (pieces_ne_nil mark cs)
    rw [pieces, split_]
    rw [split_] at ih
    split
    · next same => rw [List.intercalate_cons_cons, ih, same, List.nil_append, List.singleton_append]
    · cases others with
      | nil => simpa using ih
      | cons other others =>
        rw [List.intercalate_cons_cons] at ih ⊢
        simpa using ih

theorem mem_piece_or_eq (mark : Char) {c : Char} {cs : List Char} (h : c ∈ cs) :
    c = mark ∨ ∃ piece ∈ pieces mark cs, c ∈ piece := by
  rw [← intercalate_pieces mark cs] at h
  exact (mem_intercalate h).imp_left List.mem_singleton.1

/-! ## Names -/

/-- A character that may stand before the bracket of a class name. -/
def IsFrontChar (c : Char) : Prop := isAsciiNameChar c ∨ c = ':'

instance : DecidablePred IsFrontChar := fun c =>
  inferInstanceAs (Decidable (isAsciiNameChar c ∨ c = ':'))

theorem isAsciiNameChar_of_isUtilityName {utility : List Char} (h : isUtilityName utility) :
    ∀ c ∈ utility, isAsciiNameChar c := by
  cases utility with
  | nil => cases h
  | cons c cs =>
    obtain ⟨letter, rest⟩ := Bool.and_eq_true_iff.1 h
    refine List.forall_mem_cons.2 ⟨?_, List.all_eq_true.1 rest⟩
    simp [isAsciiNameChar, isAsciiAlphanumeric, letter]

theorem takeWhile_of_bracketParts? {body utility raw : List Char}
    (h : bracketParts? body = some (utility, raw)) :
    body.takeWhile (· != '[') = utility ++ ['-'] ∧ isUtilityName utility ∧ ']' ∉ raw := by
  simp only [bracketParts?] at h
  split at h
  · split at h
    · next good =>
      obtain ⟨rfl, rfl⟩ := Prod.mk.inj (Option.some.inj h)
      obtain ⟨front, same⟩ := List.getLast?_eq_some_iff.1 good.1
      refine ⟨?_, good.2.2.1, good.2.2.2.2⟩
      rw [same, List.dropLast_concat]
    · cases h
  · cases h

/-- What stands before the bracket of a name: variants, each ended by a colon, and a utility. -/
theorem isFrontChar_of_splitVariants {name : String} {variants : Variants}
    {body utility raw : List Char} (split_ : splitVariants name = .ok (variants, body))
    (parts : bracketParts? body = some (utility, raw)) :
    ∀ c ∈ name.toList.takeWhile (· != '['), IsFrontChar c := by
  have rest := dropWhile_of_splitVariants split_ parts
  simp only [splitVariants] at split_
  split at split_
  · next variants known =>
    obtain ⟨-, rfl⟩ := Prod.mk.inj (Except.ok.inj split_)
    obtain ⟨cut, named, -⟩ := takeWhile_of_bracketParts? parts
    rw [rest] at cut
    have unbracketed : ∀ c ∈ name.toList.takeWhile (· != '['), (c != '[') = true :=
      List.all_eq_true.1 List.all_takeWhile
    generalize name.toList.takeWhile (· != '[') = front at known cut unbracketed
    have some_ := pieces_ne_nil ':' front
    rw [List.getLastD_eq_getLast?, List.getLast?_eq_some_getLast some_, Option.getD_some,
      List.takeWhile_append_of_pos fun c hc =>
        unbracketed c (mem_of_mem_pieces (List.getLast_mem some_) hc),
      List.takeWhile_cons_of_neg (by decide), List.append_nil] at cut
    intro c hc
    obtain rfl | ⟨piece, mem, inside⟩ := mem_piece_or_eq ':' hc
    · exact .inr rfl
    · left
      rw [← List.dropLast_append_getLast some_, List.mem_append, List.mem_singleton] at mem
      rcases mem with mem | rfl
      · have known := mem_names_of_ofNames known _ (List.mem_map_of_mem mem)
        refine isAsciiNameChar_of_mem_names known c ?_
        rwa [String.toList_ofList]
      · rw [cut] at inside
        rcases List.mem_append.1 inside with inside | inside
        · exact isAsciiNameChar_of_isUtilityName named c inside
        · rw [List.mem_singleton.1 inside]
          decide
  · cases split_

namespace Clean

theorem mem_of_mem_collapse {cs : List Char} {c : Char} (h : c ∈ collapse cs) :
    c = ' ' ∨ c ∈ cs := by
  induction cs with
  | nil => cases h
  | cons d cs ih =>
    rw [collapse] at h
    split at h
    · split at h
      · exact (ih h).imp_right (List.mem_cons_of_mem d)
      · rcases List.mem_cons.1 h with rfl | h
        · exact .inl rfl
        · exact (ih h).imp_right (List.mem_cons_of_mem d)
    · rcases List.mem_cons.1 h with rfl | h
      · exact .inr List.mem_cons_self
      · exact (ih h).imp_right (List.mem_cons_of_mem d)

/-- A cleaned text holds no control characters. -/
theorem not_isControl_of_clean? {limit : Int} {s name : String} (h : clean? limit s = some name) :
    ∀ c ∈ name.toList, isControl c = false := by
  intro c hc
  simp only [clean?] at h
  split at h
  · cases h
  · split at h
    · cases h
    · obtain rfl := Option.some.inj h
      rw [String.toList_ofList] at hc
      rcases mem_of_mem_collapse (Scan.trim_subset _ hc) with rfl | mem
      · decide
      · simpa using (List.mem_filter.1 mem).2

end Clean

/-! ## Properties -/

/-- The properties that the utilities of a table set are names. -/
def PropertyTable.IsNamed (table : PropertyTable) : Prop :=
  ∀ entry ∈ table.utilities, ∀ c ∈ entry.2.toList, isAsciiNameChar c

theorem PropertyTable.isNamed_standard : standard.IsNamed := by
  have table : ∀ entry ∈ standard.utilities, (entry.2.toList.all isAsciiNameChar) = true := by
    decide +kernel
  exact fun entry mem => List.all_eq_true.1 (table entry mem)

/-! ## Classes -/

namespace UtilityClass

variable {table : PropertyTable} {limits : InputLimits} {token : Json} {c : UtilityClass}

/-- The name of a class that was read: ASCII name characters and colons, and then the raw value
between the only brackets. -/
theorem exists_front_of_read (h : read table limits token = .ok c) :
    ∃ front, c.name.toList = front ++ '[' :: (c.raw.toList ++ [']']) ∧
      (∀ d ∈ front, IsFrontChar d) ∧ ']' ∉ c.raw.toList := by
  obtain ⟨s, name, -, -, h⟩ := read_eq_ok h
  obtain ⟨-, variants, body, utility, raw, split_, parts, h⟩ := ofClean_eq_ok h
  obtain ⟨own, components, value, type, detail, -, -, -, rfl⟩ := ofParts_eq_ok h
  obtain ⟨-, -, unclosed⟩ := takeWhile_of_bracketParts? parts
  refine ⟨name.toList.takeWhile (· != '['), ?_, isFrontChar_of_splitVariants split_ parts, ?_⟩
  · rw [String.toList_ofList, ← dropWhile_of_splitVariants split_ parts,
      List.takeWhile_append_dropWhile]
  · rwa [String.toList_ofList]

/-- The name of a class that was read holds no control characters, and no blanks but spaces. -/
theorem isTidy_of_read (h : read table limits token = .ok c) :
    ∀ d ∈ c.name.toList, Clean.isControl d = false ∧ (isBlank d → d = ' ') := by
  obtain ⟨s, name, -, cleaned, h⟩ := read_eq_ok h
  rw [name_of_ofClean h]
  intro d hd
  exact ⟨Clean.not_isControl_of_clean? cleaned d hd, Clean.eq_space_of_clean? cleaned d hd⟩

/-- The property that a class sets is a name. -/
theorem property_chars (named : table.IsNamed) (h : read table limits token = .ok c) :
    ∀ d ∈ c.property.toList, isAsciiNameChar d := by
  obtain ⟨_, _, -, -, h⟩ := read_eq_ok h
  obtain ⟨-, _, _, _, _, -, -, h⟩ := ofClean_eq_ok h
  obtain ⟨own, _, _, _, _, known, -, -, rfl⟩ := ofParts_eq_ok h
  obtain ⟨front, back, same, -⟩ := List.lookup_eq_some_iff.1 known
  have mem := named _ (same ▸ List.mem_append_right front List.mem_cons_self)
  unfold propertyFor
  dsimp only
  split
  · decide
  · exact mem

end UtilityClass

end BracketCss
