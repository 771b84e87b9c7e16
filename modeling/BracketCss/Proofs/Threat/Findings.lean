import BracketCss.Proofs.Threat.Report
import Mathlib.Data.List.Nodup

/-!
# The findings of a report

A report takes a text form by form. The threats of the text itself come first, and each decoded form
adds those that no form before it showed. So a threat is found once however many forms show it, and
it counts as encoded if it is missing in the first form, which is the text as it stands. The fast
check looks for blocking threats only and stops at the first one; it comes to the same verdict.

## Main definitions

* `ThreatReport.IsAccount s findings`: findings that are listed once and marked rightly

## Main results

* `ThreatReport.IsAccount.addForm`: a form leaves an account an account
* `ThreatReport.mem_findings_ofText`: what is found, and how it is marked
* `ThreatReport.isSafe_eq_false_iff_and_spec`: the fast check against the report, and the report
  against the text
-/

namespace BracketCss.ThreatReport

theorem mem_threats {findings : List Finding} {threat : Threat} :
    threat ∈ threats findings ↔ ∃ finding ∈ findings, finding.threat = threat := List.mem_map

theorem threats_append (findings others : List Finding) :
    threats (findings ++ others) = threats findings ++ threats others := List.map_append

/-- The threats of findings that are made from threats are these threats. -/
theorem threats_map (isEncoded : Bool) (found : List Threat) :
    threats (found.map (⟨·, isEncoded⟩)) = found := by
  show (found.map fun threat => Finding.mk threat isEncoded).map Finding.threat = found
  rw [List.map_map]
  exact List.map_id found

theorem nodup_all : Threat.all.Nodup := by decide

/-! ## Forms one after the other -/

/-- The findings of a text and some of its decoded forms: no threat is listed twice, those of the
text itself are among them, and the others are marked as encoded. -/
structure IsAccount (s : String) (findings : List Finding) : Prop where
  /-- No threat is listed twice. -/
  nodup : (threats findings).Nodup
  /-- The threats of the text itself are listed. -/
  plain : ∀ threat : Threat, threat.occursIn s → threat ∈ threats findings
  /-- The others are marked. -/
  marked : ∀ finding ∈ findings, finding.isEncoded = !finding.threat.occursIn s

/-- The threats that a form adds are those that it shows and that were not found before. -/
theorem mem_added {findings : List Finding} {form : String} {threat : Threat} :
    threat ∈ Threat.all.filter (fun threat =>
        !findings.any (·.threat == threat) && threat.occursIn form) ↔
      threat ∉ threats findings ∧ threat.occursIn form := by
  have found : findings.any (·.threat == threat) ↔ threat ∈ threats findings := by
    rw [List.any_eq_true, mem_threats]
    simp only [beq_iff_eq]
  rw [List.mem_filter, Bool.and_eq_true, Bool.not_eq_true', ← found, Bool.not_eq_true]
  exact and_iff_right threat.mem_all

/-- The findings in the text itself. -/
theorem isAccount_plain (s : String) :
    IsAccount s ((Threat.all.filter (·.occursIn s)).map (⟨·, false⟩)) := by
  refine ⟨?_, ?_, ?_⟩
  · rw [threats_map]
    exact nodup_all.filter _
  · intro threat occurs
    rw [threats_map]
    exact List.mem_filter.2 ⟨threat.mem_all, occurs⟩
  · intro finding mem
    obtain ⟨threat, shown, rfl⟩ := List.mem_map.1 mem
    rw [(List.mem_filter.1 shown).2]
    rfl

/-- **A form leaves an account an account.** What it adds was not found before, so it does not occur
in the text itself. -/
theorem IsAccount.addForm {s : String} {findings : List Finding} (h : IsAccount s findings)
    (form : String) : IsAccount s (addForm findings form) := by
  refine ⟨?_, ?_, ?_⟩
  · rw [ThreatReport.addForm, threats_append, threats_map]
    apply List.Nodup.append h.nodup (nodup_all.filter _)
    intro threat old new
    exact (mem_added.1 new).1 old
  · intro threat occurs
    rw [mem_threats_addForm]
    exact .inl (h.plain threat occurs)
  · intro finding mem
    rcases List.mem_append.1 mem with old | new
    · exact h.marked finding old
    · obtain ⟨threat, added, rfl⟩ := List.mem_map.1 new
      have absent : threat.occursIn s = false := by
        rw [← Bool.not_eq_true]
        intro occurs
        exact (mem_added.1 added).1 (h.plain threat occurs)
      show true = !threat.occursIn s
      rw [absent]
      rfl

theorem IsAccount.foldl_addForm {s : String} {findings : List Finding} (h : IsAccount s findings)
    (forms : List String) : IsAccount s (forms.foldl ThreatReport.addForm findings) := by
  induction forms generalizing findings with
  | nil => exact h
  | cons form forms ih => exact ih (h.addForm form)

theorem isAccount_ofText (s : String) : IsAccount s (ofText s).findings :=
  (isAccount_plain s).foldl_addForm (decodedForms s)

/-! ## What is reported -/

/-- **What is found in a text, and how it is marked.** -/
theorem mem_findings_ofText (s : String) (finding : Finding) :
    finding ∈ (ofText s).findings ↔
      finding.threat.ShowsIn s ∧ finding.isEncoded = !finding.threat.occursIn s := by
  constructor
  · intro mem
    have reported : finding.threat ∈ threats (ofText s).findings := mem_threats.2 ⟨_, mem, rfl⟩
    exact ⟨(mem_threats_ofText s _).1 reported, (isAccount_ofText s).marked finding mem⟩
  · rintro ⟨shows, marked⟩
    obtain ⟨other, mem, same⟩ := mem_threats.1 ((mem_threats_ofText s _).2 shows)
    have agree : other = finding := by
      have mark := (isAccount_ofText s).marked other mem
      rw [same, ← marked] at mark
      cases other
      cases finding
      exact congrArg₂ Finding.mk same mark
    exact agree ▸ mem

/-- No name is given twice. -/
theorem nodup_names_ofText (s : String) : (ofText s).names.Nodup := by
  show ((ofText s).findings.map (Threat.name ∘ Finding.threat)).Nodup
  rw [← List.map_map]
  apply List.Nodup.map _ (isAccount_ofText s).nodup
  intro a b same
  exact Threat.name_injective same

/-- The risk of a report is the greatest of its findings, if there are any. -/
theorem risk_cases (report : ThreatReport) :
    (report.findings = [] ∧ report.isDangerous = false ∧ report.risk = .none) ∨
      (report.isDangerous ∧ (∃ finding ∈ report.findings, finding.threat.risk = report.risk) ∧
        ∀ finding ∈ report.findings, finding.threat.risk.rank ≤ report.risk.rank) := by
  obtain ⟨findings⟩ := report
  cases findings with
  | nil => exact .inl ⟨rfl, rfl, rfl⟩
  | cons first others =>
    refine .inr ⟨rfl, ?_, ?_⟩
    · exact List.mem_map.1 (Risk.greatest_mem (List.cons_ne_nil _ _))
    · intro finding mem
      exact Risk.rank_le_greatest (List.mem_map.2 ⟨finding, mem, rfl⟩)

/-- **The fast check refuses exactly the texts that a report blocks.** The report lists the threats
that show in the text or in a decoded form, each of them once, and marks those that do not show in
the text itself; its risk is the greatest of those listed. -/
theorem isSafe_eq_false_iff_and_spec (s : String) :
    (isSafe s = false ↔ (ofText s).isBlocking) ∧
      (∀ finding : Finding, finding ∈ (ofText s).findings ↔
        finding.threat.ShowsIn s ∧ finding.isEncoded = !finding.threat.occursIn s) ∧
      (ofText s).names.Nodup ∧
      (((ofText s).findings = [] ∧ (ofText s).isDangerous = false ∧ (ofText s).risk = .none) ∨
        ((ofText s).isDangerous ∧
          (∃ finding ∈ (ofText s).findings, finding.threat.risk = (ofText s).risk) ∧
          ∀ finding ∈ (ofText s).findings, finding.threat.risk.rank ≤ (ofText s).risk.rank)) := by
  refine ⟨?_, mem_findings_ofText s, nodup_names_ofText s, risk_cases (ofText s)⟩
  rw [isBlocking_ofText_eq, Bool.not_eq_true']

end BracketCss.ThreatReport
