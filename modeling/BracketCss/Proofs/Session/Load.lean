import BracketCss.Proofs.Session.Held

/-!
# Loading a state

A state is checked before anything is replaced, but its classes are added last, and adding them can
be refused: they may be more than one request can have, or more than the session has room for. By
then the classes of the session are gone.

## Main definitions

* `SessionFault.IsCheck`: the faults of the check

## Main results

* `Session.load_cases`: the check fails, or the classes are added to an empty session
* `Session.load_of_error`: what a refused load leaves behind
* `Session.exists_load_clears`: it can leave nothing
-/

namespace BracketCss

/-- The fault is found while a state is checked. -/
def SessionFault.IsCheck : SessionFault → Prop
  | notState => True
  | options _ => True
  | _ => False

namespace Session

variable {s : Session} {state : Json} {fault : SessionFault}

theorem isCheck_of_savedOptions {fields : List (String × Json)}
    (h : s.savedOptions fields = .error fault) : fault.IsCheck := by
  unfold savedOptions at h
  split at h
  · cases h
  · cases h
  · next options _ _ =>
    cases result : SheetOptions.ofJson options with
    | ok settled =>
      rw [result] at h
      cases h
    | error cause =>
      rw [result] at h
      rw [← Except.error.inj h]
      trivial

/-- The check fails and nothing is changed, or the classes are added to an empty session. -/
theorem load_cases (s : Session) (state : Json) :
    (∃ fault : SessionFault, fault.IsCheck ∧ s.load state = (s, .error fault)) ∨
      ∃ fields items settled, state = .object fields ∧
        fields.lookup "classes" = some (.array items) ∧ s.savedOptions fields = .ok settled ∧
        s.load state = { s.clear.1 with options := settled }.add (.array items) := by
  by_cases shape : ∃ fields items, state = .object fields ∧
      fields.lookup "classes" = some (.array items)
  · obtain ⟨fields, items, rfl, found⟩ := shape
    cases given : s.savedOptions fields with
    | error fault =>
      refine .inl ⟨fault, isCheck_of_savedOptions given, ?_⟩
      simp only [load, found, given]
    | ok settled =>
      refine .inr ⟨fields, items, settled, rfl, found, given, ?_⟩
      simp only [load, found, given]
  · refine .inl ⟨.notState, trivial, ?_⟩
    unfold load
    split
    · next fields =>
      split
      · next items found => exact absurd ⟨fields, items, rfl, found⟩ shape
      · rfl
    · rfl

/-- A refused addition changes no class, and there were too many. -/
theorem add_of_error {items : List Json} (h : (s.add (.array items)).2 = .error fault) :
    ((s.add (.array items)).1.classes = s.classes ∧ (s.add (.array items)).1.sheet = s.sheet ∧
        (s.add (.array items)).1.options = s.options) ∧
      (s.engine.limits.requestSize < items.length ∧
          fault = .request (.tooMany items.length s.engine.limits.requestSize) ∨
        ∃ n, ((s.engine.parseTokens items none).2.fresh s.classes).length = n ∧
          s.capacity < ((s.classes.length + n : Nat) : Int) ∧
          fault = .full s.capacity n s.classes.length) := by
  obtain ⟨cause, given, refused⟩ | ⟨tokens, given, added⟩ := s.add_cases (.array items)
  · rw [refused] at h ⊢
    obtain rfl := Except.error.inj h
    refine ⟨⟨rfl, rfl, rfl⟩, .inl ?_⟩
    rw [Engine.tokens_items] at given
    split at given
    · next many => exact ⟨many, by rw [Except.error.inj given]⟩
    · cases given
  · rw [Engine.tokens_items] at given
    split at given
    · cases given
    obtain rfl := Except.ok.inj given
    rw [added] at h ⊢
    obtain ⟨full, refused⟩ | ⟨-, -, -, -, -, -, update, done⟩ :=
      { s with engine := (s.engine.parseTokens items none).1 }.addBatch_cases
        (s.engine.parseTokens items none).2
    · rw [refused] at h ⊢
      exact ⟨⟨rfl, rfl, rfl⟩, .inr ⟨_, rfl, full, (Except.error.inj h).symm⟩⟩
    · rw [done] at h
      cases h

theorem fresh_nil (batch : Batch) : batch.fresh [] = batch.valid := by
  simp [Batch.fresh]

/-- A load that is refused after the check leaves no class behind. -/
theorem load_of_late_error (h : (s.load state).2 = .error fault) (late : ¬ fault.IsCheck) :
    (s.load state).1.classes = [] ∧ (s.load state).1.sheet = none ∧
      ∃ fields items, state = .object fields ∧ fields.lookup "classes" = some (.array items) ∧
        s.savedOptions fields = .ok (s.load state).1.options ∧
        (s.engine.limits.requestSize < items.length ∧
            fault = .request (.tooMany items.length s.engine.limits.requestSize) ∨
          ∃ n, (s.engine.parseTokens items none).2.valid.length = n ∧ s.capacity < n ∧
            fault = .full s.capacity n 0) := by
  obtain ⟨cause, check, failed⟩ | ⟨fields, items, settled, rfl, found, given, loaded⟩ :=
    s.load_cases state
  · rw [failed] at h
    exact absurd (Except.error.inj h ▸ check) late
  · rw [loaded] at h ⊢
    obtain ⟨⟨classes, sheet, options⟩, cause⟩ := add_of_error h
    refine ⟨classes, sheet, fields, items, rfl, found,
      given.trans (congrArg Except.ok options.symm), ?_⟩
    rcases cause with many | ⟨n, fresh, full, message⟩
    · exact .inl many
    · refine .inr ⟨n, ?_, ?_, message⟩
      · rw [← fresh_nil]
        exact fresh
      · simpa [clear, changed] using full

/-- A load that is refused by the check changes nothing. -/
theorem load_of_check_error (h : (s.load state).2 = .error fault) (check : fault.IsCheck) :
    (s.load state).1 = s := by
  obtain ⟨cause, -, failed⟩ | ⟨fields, items, settled, rfl, found, given, loaded⟩ :=
    s.load_cases state
  · rw [failed]
  · rw [loaded] at h
    obtain ⟨-, ⟨-, rfl⟩ | ⟨n, -, -, rfl⟩⟩ := add_of_error h
    · exact check.elim
    · exact check.elim

/-- **What a refused load leaves behind.** If the check found the fault, nothing has changed.
Otherwise the classes are gone and the options are those of the state: its classes were more than
one request can have, or more than there is room for. So the classes and the options outlive a
refused load exactly if the check found the fault, or there were neither classes nor other options
to lose. -/
theorem load_of_error (h : (s.load state).2 = .error fault) :
    (fault.IsCheck → (s.load state).1 = s) ∧
      (¬ fault.IsCheck → (s.load state).1.classes = [] ∧ (s.load state).1.sheet = none ∧
        ∃ fields items, state = .object fields ∧ fields.lookup "classes" = some (.array items) ∧
          s.savedOptions fields = .ok (s.load state).1.options ∧
          (s.engine.limits.requestSize < items.length ∧
              fault = .request (.tooMany items.length s.engine.limits.requestSize) ∨
            ∃ n, (s.engine.parseTokens items none).2.valid.length = n ∧ s.capacity < n ∧
              fault = .full s.capacity n 0)) ∧
      ((s.load state).1.classes = s.classes ∧ (s.load state).1.options = s.options ↔
        fault.IsCheck ∨ s.classes = [] ∧ (s.load state).1.options = s.options) := by
  refine ⟨load_of_check_error h, load_of_late_error h, ?_, ?_⟩
  · rintro ⟨classes, options⟩
    by_cases check : fault.IsCheck
    · exact .inl check
    · have gone := (load_of_late_error h check).1
      exact .inr ⟨classes.symm.trans gone, options⟩
  · intro kept
    by_cases check : fault.IsCheck
    · rw [load_of_check_error h check]
      exact ⟨rfl, rfl⟩
    · obtain ⟨empty, options⟩ := kept.resolve_left check
      exact ⟨(load_of_late_error h check).1.trans empty.symm, options⟩

section Example

/-- A session with room for one class that holds one. -/
theorem exists_fullSession : ∃ engine first, Engine.ofSettings .standard .standard .standard true =
      .ok engine ∧ ofEngine engine false (.ok .default) 1 true = .ok first ∧
    (first.run [.add (.strings ["p-[1px]"])]).classes = ["p-[1px]"] ∧
    ((first.run [.add (.strings ["p-[1px]"])]).load
      (.object [("classes", .strings twoNames)])).2 = .error (.full 1 2 0) := by
  obtain ⟨engine, made⟩ : ∃ engine, Engine.ofSettings .standard .standard .standard true =
      .ok engine := ⟨_, rfl⟩
  obtain ⟨first, start⟩ : ∃ first, ofEngine engine false (.ok .default) 1 true = .ok first :=
    ⟨_, rfl⟩
  have new := (Engine.isTraced_ofSettings made fun _ => True)
  have own : ∀ name ∈ ["p-[1px]"], IsOwnName .standard .standard name :=
    fun name mem => isOwnName_twoNames name (List.mem_of_mem_take (i := 1) mem)
  obtain ⟨held, -⟩ := (isAt_ofEngine start).add new.toIsReading (by decide) own (by simp)
    (List.cons_ne_nil _ _) (by decide) (by decide)
  refine ⟨engine, first, made, start, held.classes, ?_⟩
  -- the check finds nothing, so the session is cleared before the two classes are refused
  have cleared : (first.run [.add (.strings ["p-[1px]"])]).clear.1.IsAt [] first.options 1
      (engine.parseTokens (["p-[1px]"].map .string) none).1 :=
    ⟨rfl, held.options, held.capacity, held.engine⟩
  exact cleared.add_full (new.parseTokens_spec _ none).toIsReading (by decide) isOwnName_twoNames
    (by simp) (by decide) (by decide)

/-- It was refused for want of room. -/
theorem load_of_error_twoNames : ∃ s : Session,
    (s.load (.object [("classes", .strings twoNames)])).2 = .error (.full 1 2 0) ∧
      s.classes = ["p-[1px]"] ∧
      (s.load (.object [("classes", .strings twoNames)])).1.classes = [] := by
  obtain ⟨engine, first, -, -, held, refused⟩ := exists_fullSession
  exact ⟨_, refused, held, ((load_of_error refused).2.1 id).1⟩

/-- The state is refused, and the class that was held is gone. -/
theorem exists_load_clears : ∃ engine first fault,
    Engine.ofSettings .standard .standard .standard true = .ok engine ∧
      ofEngine engine false (.ok .default) 1 true = .ok first ∧
      let s := first.run [.add (.strings ["p-[1px]"])]
      (s.load (.object [("classes", .strings twoNames)])).2 = .error fault ∧
        (s.load (.object [("classes", .strings twoNames)])).1.classes ≠ s.classes := by
  obtain ⟨engine, first, made, start, held, refused⟩ := exists_fullSession
  refine ⟨engine, first, _, made, start, refused, ?_⟩
  rw [(load_of_late_error refused id).1, held]
  exact (List.cons_ne_nil _ _).symm

end Example

end Session

end BracketCss
