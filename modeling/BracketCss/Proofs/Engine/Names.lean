import BracketCss.Proofs.Class.Cleaned
import BracketCss.Proofs.Engine.Plain

/-!
# The names in a compilation

A class that was read has a name that is read as the same class. So a list of such names, none
twice, is compiled class by class: every name is that of a rule or of a report.

## Main definitions

* `IsOwnName table limits name`: a name that is read as a class with this very name

## Main results

* `isOwnName_of_mem_valid`, `nodup_valid`: the names of a batch are such names, none twice
* `valid_of_ownNames`: such names are read in order, and none is refused
* `perm_names_plainCompile`: the names of the rules and the reports
-/

namespace BracketCss

/-! ## Distinct items -/

section Distinct

variable {α β : Type} [BEq β]

theorem map_distinctFrom (key : α → β) (seen : List β) (items : List α) :
    (distinctFrom key seen items).map key = distinctFrom id seen (items.map key) := by
  induction items generalizing seen with
  | nil => rfl
  | cons item items ih =>
    rw [List.map_cons, distinctFrom, distinctFrom]
    simp only [id]
    split
    · exact ih seen
    · rw [List.map_cons, ih]

theorem distinctFrom_of_nodup [LawfulBEq β] {seen items : List β} (nodup : items.Nodup)
    (fresh : ∀ item ∈ items, item ∉ seen) : distinctFrom id seen items = items := by
  induction items generalizing seen with
  | nil => rfl
  | cons first items ih =>
    obtain ⟨apart, nodup⟩ := List.nodup_cons.1 nodup
    have new : first ∉ seen := fresh first List.mem_cons_self
    have rest : distinctFrom id (first :: seen) items = items := by
      refine ih nodup fun item mem old => ?_
      rcases List.mem_cons.1 old with rfl | old
      · exact apart mem
      · exact fresh item (List.mem_cons_of_mem _ mem) old
    simp only [distinctFrom, id, List.contains_eq_mem, new, decide_false, Bool.false_eq_true,
      if_false, rest]

end Distinct

theorem distinctTokensFrom_strings (seen names : List String) :
    distinctTokensFrom seen (names.map Json.string) =
      (distinctFrom id seen names).map Json.string := by
  induction names generalizing seen with
  | nil => rfl
  | cons name names ih =>
    simp only [List.map_cons, distinctTokensFrom, distinctFrom, id]
    split
    · exact ih seen
    · rw [List.map_cons, ih]

theorem distinctTokens_strings {names : List String} (nodup : names.Nodup) :
    distinctTokens (names.map Json.string) = names.map Json.string := by
  rw [distinctTokens, distinctTokensFrom_strings, distinctFrom_of_nodup nodup (by simp)]

/-! ## Batches -/

variable {table : PropertyTable} {limits : InputLimits}

/-- A name that is read as a class with this very name. -/
def IsOwnName (table : PropertyTable) (limits : InputLimits) (name : String) : Prop :=
  ∃ c, UtilityClass.read table limits (.string name) = .ok c ∧ c.name = name

theorem nodup_valid (tokens : List Json) (stop : Option Nat) :
    (plainBatch table limits tokens stop).valid.Nodup := by
  simp only [plainBatch, Batch.ofResults, Batch.valid, distinctBy, map_distinctFrom]
  exact distinctFrom_nodup [] _

theorem isOwnName_of_mem_valid {tokens : List Json} {stop : Option Nat} {name : String}
    (h : name ∈ (plainBatch table limits tokens stop).valid) : IsOwnName table limits name := by
  obtain ⟨c, mem, rfl⟩ := List.mem_map.1 h
  obtain ⟨token, read⟩ := isRead_of_mem_parsed mem
  exact ⟨c, UtilityClass.read_name read, rfl⟩

theorem valid_plainBatch (tokens : List Json) (stop : Option Nat) :
    (plainBatch table limits tokens stop).valid =
      distinct ((((distinctTokens (heard tokens stop)).map (readResult table limits)).filterMap
        Batch.class?).map (·.name)) := by
  simp only [plainBatch, Batch.ofResults, Batch.valid, distinct, distinctBy, map_distinctFrom]

theorem names_of_ownNames {names : List String}
    (own : ∀ name ∈ names, IsOwnName table limits name) :
    (((names.map Json.string).map (readResult table limits)).filterMap Batch.class?).map (·.name) =
        names ∧
      ((names.map Json.string).map (readResult table limits)).filterMap Batch.invalid? = [] := by
  induction names with
  | nil => exact ⟨rfl, rfl⟩
  | cons name names ih =>
    obtain ⟨⟨c, read, same⟩, others⟩ := List.forall_mem_cons.1 own
    obtain ⟨valid, invalid⟩ := ih others
    have found : Batch.class? (readResult table limits (.string name)) = some c := by
      rw [readResult, read]
      rfl
    have accepted : Batch.invalid? (readResult table limits (.string name)) = none := by
      rw [readResult, read]
      rfl
    rw [List.map_cons, List.map_cons, List.filterMap_cons_some found, List.map_cons, same, valid,
      List.filterMap_cons_none accepted]
    exact ⟨rfl, invalid⟩

/-- **Names that are read as themselves are read in order**, and none is refused. -/
theorem valid_of_ownNames {names : List String} (nodup : names.Nodup)
    (own : ∀ name ∈ names, IsOwnName table limits name) :
    (plainBatch table limits (names.map Json.string) none).valid = names ∧
      (plainBatch table limits (names.map Json.string) none).invalid = [] := by
  obtain ⟨valid, invalid⟩ := names_of_ownNames own
  constructor
  · rw [valid_plainBatch, heard, distinctTokens_strings nodup, valid]
    exact distinctFrom_of_nodup nodup (by simp)
  · simp only [plainBatch, Batch.ofResults, heard, distinctTokens_strings nodup, invalid]

/-! ## Rules and reports -/

theorem UtilityClass.className_of_rule {c : UtilityClass} {important : Bool} {rule : StyleRule}
    (h : c.rule important = .ok rule) : rule.className = c.name := by
  obtain ⟨-, -, -, rfl⟩ := rule_eq_ok h
  rfl

/-- A class has a rule, or there is a report on it. -/
theorem perm_names_plainBuild (important : Bool) (classes : List UtilityClass) :
    ((plainBuild important classes).1.map (·.className) ++
      (plainBuild important classes).2.map (·.className)).Perm (classes.map (·.name)) := by
  induction classes with
  | nil => exact List.Perm.nil
  | cons c rest ih =>
    rw [plainBuild]
    cases built : c.rule important with
    | ok rule =>
      simp only [List.map_cons, UtilityClass.className_of_rule built]
      exact ih.cons c.name
    | error failure =>
      simp only [List.map_cons]
      exact List.perm_middle.trans (ih.cons c.name)

/-- **Every name is that of a rule or of a report**, and of one only. -/
theorem perm_names_plainCompile (options : SheetOptions) {names : List String}
    (nodup : names.Nodup) (own : ∀ name ∈ names, IsOwnName table limits name) :
    let sheet := plainCompile table limits options (names.map Json.string) none
    (sheet.rules.map (·.className) ++ sheet.invalid.map (·.className)).Perm names := by
  intro sheet
  obtain ⟨valid, invalid⟩ := valid_of_ownNames nodup own
  have build := perm_names_plainBuild options.important
    (plainBatch table limits (names.map Json.string) none).parsed
  rw [← Batch.valid, valid] at build
  simpa only [sheet, plainCompile, Compilation.ofRules, invalid, List.nil_append] using build

theorem isOwnName_of_toOption {name : String} (h : ((UtilityClass.read table limits
    (.string name)).toOption.map (·.name)) = some name) : IsOwnName table limits name := by
  obtain ⟨c, read, same⟩ := Option.map_eq_some_iff.1 h
  cases result : UtilityClass.read table limits (.string name) with
  | ok d =>
    rw [result] at read
    exact ⟨d, result, Option.some.inj read ▸ same⟩
  | error failure =>
    rw [result] at read
    cases read

section Example

/-- The names of two classes for one property. -/
def twoNames : List String := ["p-[1px]", "p-[2px]"]

theorem isOwnName_twoNames : ∀ name ∈ twoNames, IsOwnName .standard .standard name := by
  have table : ∀ name ∈ twoNames, ((UtilityClass.read .standard .standard
      (.string name)).toOption.map (·.name)) = some name := by
    decide +kernel
  exact fun name mem => isOwnName_of_toOption (table name mem)

end Example

end BracketCss
