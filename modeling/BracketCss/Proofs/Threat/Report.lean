import BracketCss.Threat.Report
import Mathlib.Logic.Basic
import Mathlib.Tactic.ByContra

/-!
# What a report says

A threat is reported exactly if it shows in the text or in one of its decoded forms, and a report
blocks exactly the texts that are not safe.

## Main definitions

* `Threat.ShowsIn threat s`: the threat occurs in the text or in a decoded form

## Main results

* `ThreatReport.mem_names_ofText`: the names that are reported
* `ThreatReport.isBlocking_ofText`: what blocks a text
-/

namespace BracketCss

/-- A threat occurs in a text or in one of its decoded forms. -/
def Threat.ShowsIn (threat : Threat) (s : String) : Prop :=
  ∃ form ∈ s :: decodedForms s, threat.occursIn form

theorem Threat.name_injective {a b : Threat} (h : a.name = b.name) : a = b := by
  have found := Threat.ofName?_name a
  rw [h, Threat.ofName?_name] at found
  exact (Option.some.inj found).symm

theorem mem_decodedForms {s form : String} :
    form ∈ decodedForms s ↔ form ∈ decodings s ∧ form ≠ s := by
  rw [decodedForms, mem_distinct, List.mem_filter]
  simp

/-- A threat of any decoding shows, whether or not the decoding changes the text. -/
theorem Threat.ShowsIn.of_decoding {threat : Threat} {s form : String}
    (h : form ∈ decodings s) (occurs : threat.occursIn form) : threat.ShowsIn s := by
  by_cases same : form = s
  · subst same
    exact ⟨form, List.mem_cons_self, occurs⟩
  · exact ⟨form, List.mem_cons_of_mem _ (mem_decodedForms.2 ⟨h, same⟩), occurs⟩

namespace ThreatReport

/-- The threats of some findings. -/
def threats (findings : List Finding) : List Threat := findings.map (·.threat)

theorem mem_threats_addForm (findings : List Finding) (form : String) (threat : Threat) :
    threat ∈ threats (addForm findings form) ↔
      threat ∈ threats findings ∨ threat.occursIn form := by
  rw [addForm, threats, List.map_append, List.mem_append]
  refine or_congr_right' fun new => ?_
  have missing : findings.any (·.threat == threat) = false := by
    rw [Bool.eq_false_iff]
    intro old
    obtain ⟨finding, mem, same⟩ := List.any_eq_true.1 old
    exact new (List.mem_map.2 ⟨finding, mem, eq_of_beq same⟩)
  rw [List.map_map]
  constructor
  · intro added
    obtain ⟨other, mem, rfl⟩ := List.mem_map.1 added
    exact (Bool.and_eq_true_iff.1 (List.mem_filter.1 mem).2).2
  · intro occurs
    refine List.mem_map.2 ⟨threat, List.mem_filter.2 ⟨threat.mem_all, ?_⟩, rfl⟩
    rw [missing, occurs]
    rfl

theorem mem_threats_foldl_addForm (findings : List Finding) (forms : List String)
    (threat : Threat) :
    threat ∈ threats (forms.foldl addForm findings) ↔
      threat ∈ threats findings ∨ ∃ form ∈ forms, threat.occursIn form := by
  induction forms generalizing findings with
  | nil => simp
  | cons form forms ih =>
    rw [List.foldl_cons, ih, mem_threats_addForm, or_assoc]
    simp

theorem mem_threats_ofText (s : String) (threat : Threat) :
    threat ∈ threats (ofText s).findings ↔ threat.ShowsIn s := by
  have plain : threat ∈ threats
      ((Threat.all.filter (·.occursIn s)).map fun threat => Finding.mk threat false) ↔
        threat.occursIn s := by
    rw [threats, List.map_map]
    simp [Threat.mem_all]
  rw [ofText, mem_threats_foldl_addForm, plain, Threat.ShowsIn]
  simp

/-- The names that a report gives are those of the threats that show. -/
theorem mem_names_ofText (s name : String) :
    name ∈ (ofText s).names ↔ ∃ threat : Threat, threat.name = name ∧ threat.ShowsIn s := by
  rw [names,
    show (fun finding : Finding => finding.threat.name) = Threat.name ∘ (·.threat) from rfl,
    ← List.map_map, List.mem_map]
  constructor
  · rintro ⟨threat, mem, rfl⟩
    exact ⟨threat, rfl, (mem_threats_ofText s threat).1 mem⟩
  · rintro ⟨threat, rfl, shows⟩
    exact ⟨threat, (mem_threats_ofText s threat).2 shows, rfl⟩

/-- The greatest risk of a list blocks if one of its risks does. -/
theorem isBlocking_greatest (levels : List Risk) :
    (Risk.greatest levels).isBlocking ↔ ∃ risk ∈ levels, risk.isBlocking := by
  constructor
  · intro blocking
    refine ⟨_, Risk.greatest_mem ?_, blocking⟩
    rintro rfl
    cases blocking
  · rintro ⟨risk, mem, blocking⟩
    simp only [Risk.isBlocking, decide_eq_true_eq] at blocking ⊢
    exact Nat.le_trans blocking (Risk.rank_le_greatest mem)

/-- A text is blocked if a blocking threat shows in it. -/
theorem isBlocking_ofText (s : String) :
    (ofText s).isBlocking ↔ ∃ threat : Threat, threat.isBlocking ∧ threat.ShowsIn s := by
  rw [isBlocking, risk, isBlocking_greatest,
    show (fun finding : Finding => finding.threat.risk) = Threat.risk ∘ (·.threat) from rfl,
    ← List.map_map]
  constructor
  · rintro ⟨_, mem, blocking⟩
    obtain ⟨threat, reported, rfl⟩ := List.mem_map.1 mem
    exact ⟨threat, blocking, (mem_threats_ofText s threat).1 reported⟩
  · rintro ⟨threat, blocking, shows⟩
    exact ⟨_, List.mem_map.2 ⟨threat, (mem_threats_ofText s threat).2 shows, rfl⟩, blocking⟩

/-- A report blocks a text exactly if the text is not safe. -/
theorem isBlocking_ofText_eq (s : String) : (ofText s).isBlocking = !isSafe s := by
  rw [Bool.eq_iff_iff, isBlocking_ofText, Bool.not_eq_true', ← Bool.not_eq_true, isSafe_iff]
  constructor
  · rintro ⟨threat, blocking, form, mem, occurs⟩ safe
    rw [safe form mem threat blocking] at occurs
    cases occurs
  · intro risky
    by_contra hidden
    refine risky fun form mem threat blocking => ?_
    rw [← Bool.not_eq_true]
    exact fun occurs => hidden ⟨threat, blocking, form, mem, occurs⟩

end ThreatReport

end BracketCss
