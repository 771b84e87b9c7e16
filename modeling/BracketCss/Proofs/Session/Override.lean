import BracketCss.Proofs.Session.Snapshot
import BracketCss.Proofs.Sheet.Override

/-!
# Changing the options of a session

The options of a session are changed for one sheet or for good, and both ways come to the same
options. Options that are not named stay. Of an option that is named in both spellings the one that
is not listed counts, wherever it stands; so the options follow the order in which they were named
only if the other spelling says the same as the last one.

## Main definitions

* `Session.OverridesInOrder s changes`: each option has the value of the last pair that names it

## Main results

* `Session.answer_updateOptions`: a lasting change comes to the options of a call
* `Session.overridesInOrder_iff`: when the last pair counts, and which one counts otherwise
-/

namespace BracketCss.Session

open SheetOptions

variable {s : Session} {changes : List (String × Json)} {own settled : SheetOptions}

/-- In the options of a call and after a lasting change, each option has the value of the last pair
that names it in either spelling, or else its present one. -/
def OverridesInOrder (s : Session) (changes : List (String × Json)) : Prop :=
  ∃ settled : SheetOptions, s.effectiveOptions (.object changes) = .ok settled ∧
    (s.updateOptions changes).2 = .ok settled ∧ (s.updateOptions changes).1.options = settled ∧
      ∀ option, settled.value option = s.options.overriddenBy changes option

theorem effectiveOptions_eq_ok_iff :
    s.effectiveOptions (.object changes) = .ok settled ↔ s.options.merge changes = .ok settled :=
  mapError_eq_ok_iff

/-- A lasting change comes to the options of a call with the same changes. -/
theorem answer_updateOptions (s : Session) (changes : List (String × Json)) :
    (s.updateOptions changes).2 = s.effectiveOptions (.object changes) := by
  rw [effectiveOptions, updateOptions]
  cases s.options.merge changes <;> rfl

theorem options_updateOptions (h : (s.updateOptions changes).2 = .ok settled) :
    (s.updateOptions changes).1.options = settled := by
  rw [updateOptions] at h ⊢
  split at h
  · cases h
  · exact Except.ok.inj h

/-- What an accepted scope or a truth value gives is accepted again. -/
theorem takes_value (accepted : s.options.IsAccepted) (option : OptionName) :
    option.Takes (s.options.value option) := by
  cases option with
  | scope => exact ⟨_, accepted⟩
  | _ => exact ⟨_, rfl⟩

/-- **The last pair that names an option counts** if and only if the pair in the spelling that is
not listed, where there is one, has the value that the named values give on their own. In general
the listed spellings come first. -/
theorem overridesInOrder_iff (accepted : s.options.IsAccepted)
    (nodup : (changes.map (·.1)).Nodup) (alone : ofJson (.object changes) = .ok own) :
    (∀ option, own.value option = SheetOptions.default.overriddenBy changes option) ∧
      (∀ settled, s.effectiveOptions (.object changes) = .ok settled ↔
        ∀ option : OptionName,
          option.Takes (s.options.overriddenBy (listedFirst changes) option) ∧
            settled.value option = s.options.overriddenBy (listedFirst changes) option) ∧
      (s.OverridesInOrder changes ↔ ∀ change ∈ changes, ∀ option,
        OptionName.ofSpelling? change.1 = some option → change.1 ≠ option.name →
          own.value option = change.2) := by
  obtain ⟨known, read⟩ := ofFields_eq_ok_iff.1 alone
  have given : ∀ settled, s.effectiveOptions (.object changes) = .ok settled ↔ _ := fun settled =>
    effectiveOptions_eq_ok_iff.trans ((merge_eq_ok_iff nodup).trans (and_iff_right known))
  refine ⟨fun option => (read option).2, given, ?_⟩
  have last {change : String × Json} (mem : change ∈ changes) {option : OptionName}
      (named : OptionName.ofSpelling? change.1 = some option) :
      lastGiven? changes option = some change.2 ↔ own.value option = change.2 := by
    obtain ⟨v, given⟩ := Option.isSome_iff_exists.1 (isSome_lastGiven? mem named)
    rw [(read option).2, overriddenBy, given, Option.some.injEq, Option.getD_some]
  have moved (option : OptionName) := @overriddenBy_listedFirst_iff changes option s.options nodup
  constructor
  · rintro ⟨settled, effective, -, -, inOrder⟩ change mem option named other
    rw [← last mem named]
    refine (moved option).1 ?_ change mem named other
    rw [← ((given settled).1 effective option).2, inOrder]
  · intro agree
    have same (option : OptionName) : s.options.overriddenBy (listedFirst changes) option =
        s.options.overriddenBy changes option :=
      (moved option).2 fun change mem named other =>
        (last mem named).2 (agree change mem option named other)
    have taken (option : OptionName) :
        option.Takes (s.options.overriddenBy (listedFirst changes) option) := by
      rw [same, overriddenBy]
      cases given : lastGiven? changes option with
      | none => exact takes_value accepted option
      | some v =>
        have passed := (read option).1
        rwa [overriddenBy, given] at passed
    obtain ⟨settled, values⟩ := exists_value taken
    have effective := (given settled).2 fun option => ⟨taken option, values option⟩
    have lasting := (s.answer_updateOptions changes).trans effective
    exact ⟨settled, effective, lasting, options_updateOptions lasting, fun option =>
      (values option).trans (same option)⟩

section Example

/-- The listed spelling first, and the other one last. -/
def listedThenOther : List (String × Json) :=
  [("group_selectors", .bool true), ("groupSelectors", .bool false)]

/-- The other spelling first, and the listed one last. -/
def otherThenListed : List (String × Json) :=
  [("groupSelectors", .bool true), ("group_selectors", .bool false)]

theorem ofEngine_default (engine : Engine) : ∃ first, ofEngine engine false (.ok .default) 1 true =
    .ok first ∧ first.options = .default := ⟨_, rfl, rfl⟩

/-- The other spelling counts if it is the last one. -/
theorem overridesInOrder_listedThenOther : ∃ s : Session, s.options.IsAccepted ∧
    ofJson (.object listedThenOther) = .ok { SheetOptions.default with group := false } ∧
      s.OverridesInOrder listedThenOther := by
  obtain ⟨engine, -⟩ : ∃ engine, Engine.ofSettings .standard .standard .standard true =
    .ok engine := ⟨_, rfl⟩
  obtain ⟨s, -, same⟩ := ofEngine_default engine
  have accepted : s.options.IsAccepted := same ▸ SheetOptions.isAccepted_default
  have alone : ofJson (.object listedThenOther) =
    .ok { SheetOptions.default with group := false } := rfl
  refine ⟨s, accepted, alone, (overridesInOrder_iff accepted (by decide) alone).2.2.2 ?_⟩
  simp only [listedThenOther, List.forall_mem_cons, List.not_mem_nil, false_imp_iff, implies_true,
    and_true]
  refine ⟨fun option named other => ?_, fun option named other => ?_⟩ <;>
    cases option <;> first | exact absurd rfl other | exact absurd named (by decide) | rfl

/-- The other spelling counts as well if it is the first one, although the named values alone give
the value of the last one. -/
theorem exists_overrides_out_of_order : ∃ (s : Session) (changes : List (String × Json))
    (own : SheetOptions), s.options = .default ∧ (changes.map (·.1)).Nodup ∧
      ofJson (.object changes) = .ok own ∧
      (∀ option, own.value option = SheetOptions.default.overriddenBy changes option) ∧
      ¬ s.OverridesInOrder changes := by
  obtain ⟨engine, -⟩ : ∃ engine, Engine.ofSettings .standard .standard .standard true =
    .ok engine := ⟨_, rfl⟩
  obtain ⟨s, -, same⟩ := ofEngine_default engine
  refine ⟨s, otherThenListed, { SheetOptions.default with group := false }, same, by decide, rfl,
    fun option => by cases option <;> rfl, ?_⟩
  rintro ⟨settled, effective, -, -, inOrder⟩
  have group := inOrder .group
  rw [effectiveOptions, same] at effective
  rw [← Except.ok.inj effective, same] at group
  exact Bool.false_ne_true (Json.bool.inj group).symm

end Example

end BracketCss.Session
