import BracketCss.Class.Reader

/-!
# What it takes to read a class

Reading goes through three stages, and a class that was read has passed all of them: the token is
a text that could be cleaned, the cleaned text carries no threat and has the form of a class, and
its value is accepted for the property that its utility sets.

## Main results

* `read_eq_ok`, `ofClean_eq_ok`, `ofParts_eq_ok`: the three stages
* `eq_of_read_of_name_eq`: a class that was read is determined by its name
-/

namespace BracketCss.UtilityClass

open Text

variable {table : PropertyTable} {limits : InputLimits}

/-- The rule by which the value of a property is read. -/
def valueRule (table : PropertyTable) (property : String) : PropertyRule :=
  (table.rule? property).getD (.ofKind .complex)

theorem ofParts_eq_ok {name : String} {variants : Variants} {utility raw : List Char}
    {c : UtilityClass} (h : ofParts table limits name variants utility raw = .ok c) :
    ∃ own components value type detail,
      table.property? (.ofList utility) = some own ∧
      Components.ofText (valueRule table (propertyFor (.ofList utility) raw own)).shorthand
        (valueRule table (propertyFor (.ofList utility) raw own)).separator (.ofList raw) =
          .ok components ∧
      validateValue table (propertyFor (.ofList utility) raw own) components.normalized =
        .accepted value type detail ∧
      c = ⟨name, .ofList utility, propertyFor (.ofList utility) raw own, value, .ofList raw,
        components.parts, components.isCall, type, detail, variants⟩ := by
  simp only [ofParts] at h
  split at h
  · cases h
  · split at h
    · next own known =>
      split at h
      · cases h
      · next components split_ =>
        split at h
        · cases h
        · next value type detail accepted =>
          exact ⟨own, components, value, type, detail, known, split_, accepted,
            (Except.ok.inj h).symm⟩
    · cases h

theorem ofClean_eq_ok {name : String} {c : UtilityClass}
    (h : ofClean table limits name = .ok c) :
    (ThreatReport.ofText name).isBlocking = false ∧
      ∃ variants body utility raw, splitVariants name = .ok (variants, body) ∧
        bracketParts? body = some (utility, raw) ∧
        ofParts table limits name variants utility raw = .ok c := by
  simp only [ofClean] at h
  cases blocked : (ThreatReport.ofText name).isBlocking with
  | true =>
    rw [blocked] at h
    cases h
  | false =>
    rw [blocked] at h
    refine ⟨rfl, ?_⟩
    cases split_ : splitVariants name with
    | error failure =>
      rw [split_] at h
      cases h
    | ok found =>
      obtain ⟨variants, body⟩ := found
      simp only [split_, bind, Except.bind, Bool.false_eq_true, if_false] at h
      split at h
      · cases h
      · split at h
        · next utility raw parts => exact ⟨variants, body, utility, raw, rfl, parts, h⟩
        · cases h

/-- A token that is read is a text, and its cleaned text is what is read. -/
theorem read_eq_ok {token : Json} {c : UtilityClass} (h : read table limits token = .ok c) :
    ∃ s name, token = .string s ∧ Clean.clean? limits.classLength s = some name ∧
      ofClean table limits name = .ok c := by
  cases token with
  | string s =>
    simp only [read, ofText] at h
    split at h
    · cases h
    · next name cleaned =>
      split at h
      · cases h
      · exact ⟨s, name, rfl, cleaned, h⟩
  | _ => cases h

theorem name_of_ofClean {name : String} {c : UtilityClass}
    (h : ofClean table limits name = .ok c) : c.name = name := by
  obtain ⟨_, variants, body, utility, raw, _, _, h⟩ := ofClean_eq_ok h
  obtain ⟨own, components, value, type, detail, _, _, _, rfl⟩ := ofParts_eq_ok h
  rfl

/-- A class that was read is determined by its name. -/
theorem eq_of_read_of_name_eq {token other : Json} {c d : UtilityClass}
    (hc : read table limits token = .ok c) (hd : read table limits other = .ok d)
    (same : c.name = d.name) : c = d := by
  obtain ⟨_, name, _, _, hc⟩ := read_eq_ok hc
  obtain ⟨_, name', _, _, hd⟩ := read_eq_ok hd
  rw [name_of_ofClean hc, name_of_ofClean hd] at same
  subst same
  rw [hc] at hd
  exact Except.ok.inj hd

end BracketCss.UtilityClass
