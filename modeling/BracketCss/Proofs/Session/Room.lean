import BracketCss.Proofs.Session.Held

/-!
# Sessions that cannot be compiled

A session has two bounds that know nothing of each other: how many classes it may hold, and how many
classes its engine takes in one request. Classes are added in many requests, but they are compiled
in one. So a session gives a sheet exactly while its classes fit into one request; it always does if
there is room for no more.

## Main results

* `Session.css_null_eq_ok_iff`: when a session gives a sheet, and what it says if it does not
* `Session.exists_css_refused`: a session that was never refused anything and gives no sheet
-/

namespace BracketCss.Session

variable {table : PropertyTable} {limits : InputLimits}

variable {settings : CacheSettings} {isSweeping ownsEngine keepsSheet : Bool} {engine : Engine}
  {initial : Except OptionFault SheetOptions} {capacity : Int} {first : Session}

/-- A sheet is given for classes that fit into one request, and refused for more. -/
theorem css_null_spec (hengine : Engine.ofSettings limits settings table isSweeping = .ok engine)
    (hfirst : ofEngine engine ownsEngine initial capacity keepsSheet = .ok first)
    (events : List SessionEvent) :
    ((∃ sheet, ((first.run events).css .null).2 = .ok sheet) ∧
        ((first.run events).classes.length : Int) ≤ limits.requestSize) ∨
      limits.requestSize < (first.run events).classes.length ∧
        ((first.run events).css .null).2 = .error
          (.request (.tooMany (first.run events).classes.length limits.requestSize)) := by
  have used : (first.run events).Holds table limits fun _ => True :=
    (holds_ofEngine hfirst (Engine.isTraced_ofSettings hengine _)).run fun _ _ => trivial
  have own : (first.run events).effectiveOptions .null = .ok (first.run events).options := rfl
  rw [css_of_ok own, ← used.engine.limits_eq]
  obtain ⟨sheet, kept, served⟩ | ⟨-, many, refused⟩ | ⟨-, few, made⟩ :=
    (first.run events).cssWith_cases (first.run events).options
  · have fits := used.fits (by rw [kept]; rfl)
    rw [← used.engine.limits_eq] at fits
    exact .inl ⟨⟨_, by rw [served]⟩, fits⟩
  · exact .inr ⟨many, by rw [refused]⟩
  · exact .inl ⟨⟨_, by rw [made]⟩, Int.not_lt.1 few⟩

/-- **When a session gives a sheet.** With its own options it gives one exactly if its classes fit
into one request, and otherwise it reports how many there are. It always gives one if there is room
for no more classes than fit into one request. -/
theorem css_null_eq_ok_iff
    (hengine : Engine.ofSettings limits settings table isSweeping = .ok engine)
    (hfirst : ofEngine engine ownsEngine initial capacity keepsSheet = .ok first)
    (events : List SessionEvent) :
    ((∃ sheet, ((first.run events).css .null).2 = .ok sheet) ↔
        ((first.run events).classes.length : Int) ≤ limits.requestSize) ∧
      (limits.requestSize < (first.run events).classes.length →
        ((first.run events).css .null).2 = .error
          (.request (.tooMany (first.run events).classes.length limits.requestSize))) ∧
      (capacity ≤ limits.requestSize → ∃ sheet, ((first.run events).css .null).2 = .ok sheet) := by
  have room : ((first.run events).classes.length : Int) ≤ capacity := by
    rw [← (isAt_ofEngine hfirst).capacity, ← first.capacity_run events]
    exact ((holds_ofEngine hfirst (Engine.isTraced_ofSettings hengine fun _ => True)).run
      fun _ _ => trivial).room
  obtain ⟨given, few⟩ | ⟨many, refused⟩ := css_null_spec hengine hfirst events
  · refine ⟨⟨fun _ => few, fun _ => given⟩, fun many => ?_, fun _ => given⟩
    exact absurd few (Int.not_le.2 many)
  · refine ⟨⟨?_, fun few => absurd few (Int.not_le.2 many)⟩, fun _ => refused, fun enough => ?_⟩
    · rintro ⟨sheet, given⟩
      rw [refused] at given
      cases given
    · exact absurd (Int.le_trans room enough) (Int.not_le.2 many)

section Example

/-- Limits that allow one class in a request. -/
def oneByOne : InputLimits := { InputLimits.standard with requestSize := 1 }

theorem isOwnName_oneByOne : ∀ name ∈ twoNames, IsOwnName .standard oneByOne name := by
  have table : ∀ name ∈ twoNames, ((UtilityClass.read .standard oneByOne
      (.string name)).toOption.map (·.name)) = some name := by
    decide +kernel
  exact fun name mem => isOwnName_of_toOption (table name mem)

/-- Two classes are added in two requests. -/
def addingTwo : List SessionEvent := [.add (.strings ["p-[1px]"]), .add (.strings ["p-[2px]"])]

theorem exists_addingTwo : ∃ engine first,
    Engine.ofSettings oneByOne .standard .standard true = .ok engine ∧
      ofEngine engine false (.ok .default) 10 true = .ok first ∧
      (first.run (addingTwo.take 1)).classes = ["p-[1px]"] ∧
      (first.run addingTwo).classes = twoNames := by
  obtain ⟨engine, made⟩ : ∃ engine, Engine.ofSettings oneByOne .standard .standard true =
      .ok engine := ⟨_, rfl⟩
  obtain ⟨first, start⟩ : ∃ first, ofEngine engine false (.ok .default) 10 true = .ok first :=
    ⟨_, rfl⟩
  have new := Engine.isTraced_ofSettings made fun _ => True
  have one := isOwnName_oneByOne "p-[1px]" (by decide)
  have two := isOwnName_oneByOne "p-[2px]" (by decide)
  obtain ⟨at₁, -⟩ := (isAt_ofEngine start).add new.toIsReading (by decide)
    (List.forall_mem_singleton.2 one) (by simp) (List.cons_ne_nil _ _) (by decide) (by decide)
  obtain ⟨at₂, -⟩ := at₁.add (new.parseTokens_spec _ none).toIsReading (by decide)
    (List.forall_mem_singleton.2 two) (by decide) (List.cons_ne_nil _ _) (by decide) (by decide)
  exact ⟨engine, first, made, start, at₁.classes, at₂.classes⟩

/-- One class gives a sheet, and two classes give none. -/
theorem css_null_eq_ok_iff_addingTwo : ∃ engine first,
    Engine.ofSettings oneByOne .standard .standard true = .ok engine ∧
      ofEngine engine false (.ok .default) 10 true = .ok first ∧
      (∃ sheet, ((first.run (addingTwo.take 1)).css .null).2 = .ok sheet) ∧
      ¬ ∃ sheet, ((first.run addingTwo).css .null).2 = .ok sheet := by
  obtain ⟨engine, first, made, start, one, two⟩ := exists_addingTwo
  refine ⟨engine, first, made, start, ?_, fun given => ?_⟩
  · apply (css_null_eq_ok_iff made start (addingTwo.take 1)).1.2
    rw [one]
    decide
  · have few := (css_null_eq_ok_iff made start addingTwo).1.1 given
    rw [two] at few
    exact absurd few (by decide)

/-- Neither class was refused, and the session gives no sheet. -/
theorem exists_css_refused : ∃ engine first fault,
    Engine.ofSettings oneByOne .standard .standard true = .ok engine ∧
      ofEngine engine false (.ok .default) 10 true = .ok first ∧
      (first.run addingTwo).classes = twoNames ∧
      ((first.run addingTwo).css .null).2 = .error fault := by
  obtain ⟨engine, first, made, start, -, held⟩ := exists_addingTwo
  refine ⟨engine, first, .request (.tooMany 2 1), made, start, held, ?_⟩
  obtain ⟨-, few⟩ | ⟨-, refused⟩ := css_null_spec made start addingTwo
  · rw [held] at few
    exact absurd few (by decide)
  · rw [refused, held]
    rfl

end Example

end BracketCss.Session
