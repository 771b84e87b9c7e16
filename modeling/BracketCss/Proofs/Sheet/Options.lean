import BracketCss.Sheet.Options

/-!
# Options that were accepted

Options that come from named values have a scope that passes its own check, in whatever spelling
they were given and however they were changed. So the listing of such options is accepted again, and
it gives the same options.

## Main definitions

* `SheetOptions.IsAccepted options`: the scope passes its own check

## Main results

* `isAccepted_ofJson`, `isAccepted_merge`: options from named values, and options that were changed
* `ofJson_toJson`: the listing of accepted options gives them back
-/

namespace BracketCss

/-- A scope that was accepted is accepted again. -/
theorem checkScope_stringOrNull {v : Json} {scope : Option String}
    (h : checkScope v = .ok scope) : checkScope (.stringOrNull scope) = .ok scope := by
  cases v with
  | null =>
    obtain rfl := Except.ok.inj h
    rfl
  | string s =>
    have taken : scope = some s := by
      simp only [checkScope] at h
      split at h
      · cases h
      · split at h
        · exact (Except.ok.inj h).symm
        · cases h
    rw [taken, Json.stringOrNull, h, taken]
  | _ => cases h

namespace SheetOptions

variable {options : SheetOptions}

/-- The scope passes its own check. -/
def IsAccepted (options : SheetOptions) : Prop :=
  checkScope (.stringOrNull options.scope) = .ok options.scope

theorem isAccepted_default : default.IsAccepted := rfl

theorem isAccepted_ofMentions {given : List (OptionName × Json)}
    (h : ofMentions given = .ok options) : options.IsAccepted := by
  simp only [ofMentions, bind, Except.bind, pure, Except.pure] at h
  iterate 4
    split at h
    · cases h
  split at h
  · cases h
  · next scope accepted =>
    rw [← Except.ok.inj h]
    exact checkScope_stringOrNull accepted

theorem isAccepted_ofFields {fields : List (String × Json)} (h : ofFields fields = .ok options) :
    options.IsAccepted := by
  simp only [ofFields, bind, Except.bind] at h
  split at h
  · cases h
  · exact isAccepted_ofMentions h

theorem isAccepted_ofJson {given : Json} (h : ofJson given = .ok options) :
    options.IsAccepted := by
  cases given with
  | null => exact Except.ok.inj h ▸ isAccepted_default
  | object fields => exact isAccepted_ofFields h
  | _ => cases h

theorem isAccepted_merge {present : SheetOptions} {changes : List (String × Json)}
    (h : present.merge changes = .ok options) : options.IsAccepted :=
  isAccepted_ofFields h

/-- **The listing of accepted options gives them back.** -/
theorem ofJson_toJson (h : options.IsAccepted) : ofJson options.toJson = .ok options := by
  have listed : mentions options.fields = .ok [(.minify, .bool options.minify),
      (.group, .bool options.group), (.comments, .bool options.comments),
      (.important, .bool options.important), (.scope, .stringOrNull options.scope)] := rfl
  have settled : ofFields options.fields =
      (checkScope (.stringOrNull options.scope)).map ({ options with scope := · }) := by
    rw [ofFields, listed]
    rfl
  show ofFields options.fields = .ok options
  rw [settled, h]
  rfl

end SheetOptions

end BracketCss
