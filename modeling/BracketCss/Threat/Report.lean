import BracketCss.Distinct
import BracketCss.Json.Basic
import BracketCss.Text.CharacterReference
import BracketCss.Text.Escape
import BracketCss.Threat.Basic

/-!
# Threat reports

A text is searched for every threat, as it stands and in its decoded forms, so that an escape
cannot hide a threat.

## Main definitions

* `decodedForms s`: the distinct decoded forms of a text
* `ThreatReport`, `ThreatReport.ofText s`: the threats found, in order
* `isSafe s`: no blocking threat shows in the text or in a decoded form
* `ThreatSummary`: the counts over several reports

## Main results

* `isSafe_iff`: what it takes for a text to be safe
-/

namespace BracketCss

open Text

/-- The forms that a text takes when it is decoded in one of four ways: as percent escapes, as
character references, as escapes of a sheet, or as all three one after the other. -/
def decodings (s : String) : List String :=
  let cs := s.toList
  [Percent.decode cs, CharacterReference.decode cs, CssEscape.decode cs,
    CssEscape.decode (CharacterReference.decode (Percent.decode cs))].map String.ofList

/-- The distinct decoded forms of a text, other than the text itself. -/
def decodedForms (s : String) : List String := distinct ((decodings s).filter (· != s))

/-- A threat that was found; `isEncoded` if it shows in a decoded form only. -/
structure Finding where
  /-- The threat. -/
  threat : Threat
  /-- It shows in a decoded form only. -/
  isEncoded : Bool
  deriving DecidableEq, Repr

/-- The threats found in a text. -/
structure ThreatReport where
  /-- The findings, those in the text itself first. -/
  findings : List Finding
  deriving DecidableEq, Repr

namespace ThreatReport

/-- The findings with those threats added that show in a decoded form and are not among them. -/
def addForm (findings : List Finding) (form : String) : List Finding :=
  findings ++
    (Threat.all.filter fun threat =>
      !findings.any (·.threat == threat) && threat.occursIn form).map (⟨·, true⟩)

/-- The threats in a text and its decoded forms. -/
def ofText (s : String) : ThreatReport :=
  let plain := (Threat.all.filter (·.occursIn s)).map fun threat => Finding.mk threat false
  ⟨(decodedForms s).foldl addForm plain⟩

/-- The report on input that is no text. -/
def empty : ThreatReport := ⟨[]⟩

/-- The greatest risk among the findings. -/
def risk (report : ThreatReport) : Risk := Risk.greatest (report.findings.map (·.threat.risk))

/-- Something was found. -/
def isDangerous (report : ThreatReport) : Bool := !report.findings.isEmpty

/-- The input goes no further. -/
def isBlocking (report : ThreatReport) : Bool := report.risk.isBlocking

/-- The names of the threats found. -/
def names (report : ThreatReport) : List String := report.findings.map (·.threat.name)

/-- The report as a JSON value. -/
def toJson (report : ThreatReport) : Json :=
  .object
    [("is_dangerous", .bool report.isDangerous),
      ("risk_level", .string report.risk.name),
      ("patterns", .array (report.findings.map fun finding =>
        .object
          [("name", .string finding.threat.name),
            ("risk", .string finding.threat.risk.name),
            ("encoded", .bool finding.isEncoded)]))]

end ThreatReport

/-- No blocking threat shows in a text or in one of its decoded forms. -/
def isSafe (s : String) : Bool :=
  (s :: decodedForms s).all fun form =>
    Threat.all.all fun threat => !(threat.isBlocking && threat.occursIn form)

theorem isSafe_iff (s : String) :
    isSafe s ↔ ∀ form ∈ s :: decodedForms s, ∀ threat : Threat,
      threat.isBlocking → threat.occursIn form = false := by
  simp only [isSafe, List.all_eq_true, Bool.not_eq_true', Bool.and_eq_false_iff]
  constructor
  · intro h form hform threat blocking
    rcases h form hform threat threat.mem_all with h | h
    · simp [blocking] at h
    · exact h
  · intro h form hform threat _
    cases blocking : threat.isBlocking
    · exact .inl rfl
    · exact .inr (h form hform threat blocking)

/-- The counts over several reports. -/
structure ThreatSummary where
  /-- The reports in order. -/
  reports : List ThreatReport

namespace ThreatSummary

/-- The number of reports with a finding. -/
def dangerous (summary : ThreatSummary) : Nat := summary.reports.countP (·.isDangerous)

/-- The number of reports at each level of risk. -/
def byRisk (summary : ThreatSummary) : List (Risk × Nat) :=
  Risk.all.map fun risk => (risk, summary.reports.countP (·.risk == risk))

end ThreatSummary

end BracketCss
