import BracketCss.Proofs.Class.Reader
import BracketCss.Proofs.Threat.Transfer
import BracketCss.Proofs.Value.Accepted
import Mathlib.Data.List.DropRight

/-!
# What a class keeps of its name

The value of a class that was read is written with the words that stand between the brackets of its
name. So it carries no threat that its name does not carry.

## Main definitions

* `UtilityClass.IsFaithful c`: the value of a class is written with the words of its name

## Main results

* `UtilityClass.isFaithful_of_read`: every class that is read is faithful
* `UtilityClass.isSafe_value_of_read`: no blocking threat shows in the value of a class
-/

namespace BracketCss

open Text

/-! ## Decoders -/

theorem decodings_eq (s : String) :
    decodings s = decoders.tail.map fun decode => .ofList (decode s.toList) := rfl

/-- A threat shows in a text if one of the decoders uncovers it. -/
theorem Threat.showsIn_iff_decoders {threat : Threat} {s : String} :
    threat.ShowsIn s ↔ ∃ decode ∈ decoders, threat.occursIn (.ofList (decode s.toList)) := by
  constructor
  · rintro ⟨form, mem, occurs⟩
    rcases List.mem_cons.1 mem with rfl | mem
    · refine ⟨id, List.mem_cons_self, ?_⟩
      rwa [id, String.ofList_toList]
    · have decoded := (mem_decodedForms.1 mem).1
      rw [decodings_eq] at decoded
      obtain ⟨decode, other, rfl⟩ := List.mem_map.1 decoded
      exact ⟨decode, List.mem_of_mem_tail other, occurs⟩
  · rintro ⟨decode, mem, occurs⟩
    rcases List.mem_cons.1 mem with rfl | mem
    · rw [id, String.ofList_toList] at occurs
      exact ⟨s, List.mem_cons_self, occurs⟩
    · refine .of_decoding ?_ occurs
      rw [decodings_eq]
      exact List.mem_map.2 ⟨decode, mem, rfl⟩

theorem isSafe_iff_forall_decoders {s : String} :
    isSafe s ↔ ∀ decode ∈ decoders, ∀ threat : Threat, threat.isBlocking →
      ¬ threat.occursIn (.ofList (decode s.toList)) := by
  rw [isSafe_iff]
  constructor
  · intro safe decode mem threat blocking occurs
    obtain ⟨form, mem, occurs⟩ := Threat.showsIn_iff_decoders.2 ⟨decode, mem, occurs⟩
    rw [safe form mem threat blocking] at occurs
    cases occurs
  · intro safe form mem threat blocking
    rw [← Bool.not_eq_true]
    intro occurs
    obtain ⟨decode, mem, occurs⟩ := Threat.showsIn_iff_decoders.1 ⟨form, mem, occurs⟩
    exact safe decode mem threat blocking occurs

/-! ## Blanks -/

namespace Clean

theorem eq_space_of_mem_collapse {cs : List Char} {c : Char} (h : c ∈ collapse cs)
    (blank : isBlank c) : c = ' ' := by
  induction cs with
  | nil => cases h
  | cons d cs ih =>
    rw [collapse] at h
    split at h
    · split at h
      · exact ih h
      · exact (List.mem_cons.1 h).elim id ih
    · next solid =>
      rcases List.mem_cons.1 h with rfl | h
      · exact absurd blank solid
      · exact ih h

/-- The only blanks of a cleaned text are spaces. -/
theorem eq_space_of_clean? {limit : Int} {s name : String} (h : clean? limit s = some name) :
    IsSpaced name.toList := by
  intro c hc blank
  simp only [clean?] at h
  split at h
  · cases h
  · split at h
    · cases h
    · obtain rfl := Option.some.inj h
      rw [String.toList_ofList] at hc
      exact eq_space_of_mem_collapse (Scan.trim_subset _ hc) blank

end Clean

/-- A text put together has the characters of its parts and of what stands between them. -/
theorem mem_intercalate {sep : List Char} {xs : List (List Char)} {c : Char}
    (h : c ∈ sep.intercalate xs) : c ∈ sep ∨ ∃ x ∈ xs, c ∈ x := by
  induction xs with
  | nil => cases h
  | cons x xs ih =>
    cases xs with
    | nil => exact .inr ⟨x, List.mem_cons_self, by simpa using h⟩
    | cons y xs =>
      rw [List.intercalate_cons_cons, List.mem_append, List.mem_append] at h
      rcases h with (h | h) | h
      · exact .inr ⟨x, List.mem_cons_self, h⟩
      · exact .inl h
      · exact (ih h).imp_right fun ⟨z, hz, hc⟩ => ⟨z, List.mem_cons_of_mem _ hz, hc⟩

/-- Putting a value together again brings in no blanks but spaces. -/
theorem Components.eq_space_of_ofText {allowSpaces : Bool} {joiner raw : String}
    (hjoiner : joiner = " " ∨ joiner = ", ") {components : Components}
    (h : ofText allowSpaces joiner raw = .ok components)
    (spaces : IsSpaced raw.toList) :
    IsSpaced components.normalized.toList := by
  intro c hc blank
  obtain ⟨-, -, whole | joined⟩ := ofText_eq_ok h
  · rw [whole, String.toList_ofList] at hc
    exact spaces c (Scan.trim_subset _ hc) blank
  · rw [joined, String.toList_intercalate, List.map_map] at hc
    rcases mem_intercalate hc with mem | ⟨_, mem, hc⟩
    · have table : (", ".toList.all fun d => !isBlank d || d == ' ') = true := by decide
      have inside : c ∈ ", ".toList := by
        rcases hjoiner with rfl | rfl
        · exact List.mem_cons_of_mem _ mem
        · exact mem
      simpa [blank] using List.all_eq_true.1 table c inside
    · obtain ⟨part, hpart, rfl⟩ := List.mem_map.1 mem
      rw [Function.comp_apply, toList_respaced] at hc
      rcases mem_intercalate hc with mem | ⟨w, hw, hc⟩
      · exact List.mem_singleton.1 mem
      · have mem := (Scan.of_mem_topWords hw).1 hc
        exact spaces c (Scan.trim_subset _ ((Scan.of_mem_parts hpart).1 mem)) blank

theorem UtilityClass.separator_valueRule (property : String) :
    (valueRule .standard property).separator = " " ∨
      (valueRule .standard property).separator = ", " := by
  rw [valueRule]
  cases known : PropertyTable.standard.rule? property with
  | none => exact .inl rfl
  | some rule => exact (standardRules_isPlain _ (mem_standardRules known)).separator

/-! ## Brackets -/

theorem mem_of_mem_pieces {mark : Char} {cs piece : List Char} (h : piece ∈ pieces mark cs) :
    piece ⊆ cs := by
  induction cs generalizing piece with
  | nil =>
    rw [List.mem_singleton.1 h]
    exact List.nil_subset _
  | cons c cs ih =>
    rw [pieces] at h
    split at h
    · rcases List.mem_cons.1 h with rfl | h
      · exact List.nil_subset _
      · exact List.subset_cons_of_subset c (ih h)
    · split at h
      · rw [List.mem_singleton.1 h]
        simp
      · next first others same =>
        rw [same] at ih
        rcases List.mem_cons.1 h with rfl | h
        · exact List.cons_subset_cons c (ih List.mem_cons_self)
        · exact List.subset_cons_of_subset c (ih (List.mem_cons_of_mem _ h))

theorem dropWhile_of_bracketParts? {body utility raw : List Char}
    (h : bracketParts? body = some (utility, raw)) :
    body.dropWhile (· != '[') = '[' :: (raw ++ [']']) := by
  simp only [bracketParts?] at h
  split at h
  · next inside rest =>
    split at h
    · next good =>
      obtain ⟨-, rfl⟩ := Prod.mk.inj (Option.some.inj h)
      obtain ⟨front, same⟩ := List.getLast?_eq_some_iff.1 good.2.1
      rw [rest, same, List.dropLast_concat]
    · cases h
  · cases h

/-- The first bracket of a name is that of its raw value. -/
theorem dropWhile_of_splitVariants {name : String} {variants : Variants}
    {body utility raw : List Char} (split_ : splitVariants name = .ok (variants, body))
    (parts : bracketParts? body = some (utility, raw)) :
    name.toList.dropWhile (· != '[') = '[' :: (raw ++ [']']) := by
  simp only [splitVariants] at split_
  split at split_
  · obtain ⟨-, rfl⟩ := Prod.mk.inj (Except.ok.inj split_)
    -- the body is the last piece with the brackets after it, so both have the same first bracket
    have cut := dropWhile_of_bracketParts? parts
    have front : ∀ c ∈ (pieces ':' (name.toList.takeWhile (· != '['))).getLastD [],
        (c != '[') = true := by
      intro c hc
      have last := List.getLast?_eq_some_getLast
        (pieces_ne_nil ':' (name.toList.takeWhile (· != '[')))
      rw [List.getLastD_eq_getLast?, last, Option.getD_some] at hc
      have mem := mem_of_mem_pieces (List.getLast_mem _) hc
      exact List.all_eq_true.1 List.all_takeWhile c mem
    rwa [List.dropWhile_append_of_pos front, List.dropWhile_idempotent] at cut
  · cases split_

/-- The raw value stands between the only brackets of the name. -/
theorem exists_bracketed {name : String} {variants : Variants} {body utility raw : List Char}
    (split_ : splitVariants name = .ok (variants, body))
    (parts : bracketParts? body = some (utility, raw)) :
    ∃ outside, name.toList = outside ++ '[' :: (raw ++ [']']) := by
  refine ⟨name.toList.takeWhile (· != '['), ?_⟩
  rw [← dropWhile_of_splitVariants split_ parts, List.takeWhile_append_dropWhile]

/-! ## Classes -/

namespace UtilityClass

/-- The value of a class is written with the words that stand between the brackets of its name. -/
structure IsFaithful (c : UtilityClass) : Prop where
  /-- The raw value stands between brackets at the end of the name. -/
  bracketed : ∃ outside, c.name.toList = outside ++ '[' :: (c.raw.toList ++ [']'])
  /-- The raw value is closed. -/
  closed : Scan.IsClosed c.raw.toList
  /-- The only blanks in it are spaces. -/
  spaces : IsSpaced c.raw.toList
  /-- The value is written with its words. -/
  written : Written (Scan.gapWords c.raw.toList) c.value
  /-- No blocking threat shows in the name. -/
  harmless : isSafe c.name

variable {limits : InputLimits} {token : Json} {c : UtilityClass}

/-- Every class that is read is faithful. -/
theorem isFaithful_of_read (h : read .standard limits token = .ok c) : c.IsFaithful := by
  obtain ⟨s, name, -, cleaned, h⟩ := read_eq_ok h
  obtain ⟨harmless, variants, body, utility, raw, split_, parts, h⟩ := ofClean_eq_ok h
  obtain ⟨own, components, value, type, detail, -, components?, accepted, rfl⟩ := ofParts_eq_ok h
  obtain ⟨outside, whole⟩ := exists_bracketed split_ parts
  have spaces : IsSpaced raw := fun d hd =>
    Clean.eq_space_of_clean? cleaned d (by rw [whole]; simp [hd])
  obtain ⟨closed, closed', words⟩ := Components.gapWords_ofText (separator_valueRule _) components?
  have written := written_of_validateValue
    (Components.eq_space_of_ofText (separator_valueRule _) components?
      (by rwa [String.toList_ofList])) closed' accepted
  rw [String.toList_ofList, Scan.isClosed_trim] at closed
  rw [words, String.toList_ofList, Scan.gapWords_trim closed] at written
  rw [ThreatReport.isBlocking_ofText_eq, Bool.not_eq_false'] at harmless
  exact {
    bracketed := ⟨outside, by rwa [String.toList_ofList]⟩
    closed := by rwa [String.toList_ofList]
    spaces := by rwa [String.toList_ofList]
    written := by rwa [String.toList_ofList]
    harmless := harmless }

/-- No blocking threat shows in the value of a faithful class. -/
theorem IsFaithful.isSafe_value (h : c.IsFaithful) : isSafe c.value := by
  obtain ⟨others, laced, kept, closing, whole | regular⟩ := h.written
  · exact whole
  · obtain ⟨outside, name⟩ := h.bracketed
    have raw : Laced (Scan.gapWords c.raw.toList) (' ' :: c.raw.toList) := laced_gapWords h.spaces
    rw [isSafe_iff_forall_decoders]
    intro decode mem threat blocking occurs
    obtain ⟨shape, hshape⟩ := Threat.exists_shape blocking
    rw [Threat.occursIn_iff hshape, String.toList_ofList] at occurs
    have shows := occurs.transfer (decoder_of_mem mem) raw laced kept regular closing
      ⟨threat, hshape⟩ outside
    rw [← name] at shows
    refine isSafe_iff_forall_decoders.1 h.harmless decode mem threat blocking ?_
    rwa [Threat.occursIn_iff hshape, String.toList_ofList]

/-- No blocking threat shows in the value of a class that was read. -/
theorem isSafe_value_of_read (h : read .standard limits token = .ok c) : isSafe c.value :=
  (isFaithful_of_read h).isSafe_value

/-- The colour of a class written with capitals and blanks. -/
theorem isSafe_value_of_read_color : isSafe "rgb(1, 2, 3)" := by
  have accepted : read .standard .standard (.string "bg-[RGB( 1, 2, 3 )]") =
      .ok ⟨"bg-[RGB( 1, 2, 3 )]", "bg", "background-color", "rgb(1, 2, 3)", "RGB( 1, 2, 3 )",
        ["RGB( 1, 2, 3 )"], true, .color, .color "rgb", .plain⟩ := by decide +kernel
  have safe := isSafe_value_of_read accepted
  exact safe

end UtilityClass

end BracketCss
