import BracketCss.Proofs.Engine.Kept
import BracketCss.Proofs.Session.Held

/-!
# The order of a sheet

A sheet that is compiled for a session follows the order of the classes that are held. One that the
engine had kept follows the order of an earlier request for the same classes under the same options,
since the key of a sheet does not tell the order of its tokens. So a class that is removed and added
again can stand behind another one in the session and still before it in the sheet.

## Main results

* `Session.order_of_css`: the order of a sheet is that of a request along the history
* `Session.exists_css_out_of_order`: it need not be the order of the classes that are held
-/

namespace BracketCss.Session

variable {table : PropertyTable} {limits : InputLimits} {asked : SheetRequest → Prop} {s : Session}

/-! ## Classes that are added again -/

/-- Classes are added and compiled; then the first one is removed and added again. -/
def readding (first : String) (rest : List String) : List SessionEvent :=
  [.add (.strings (first :: rest)), .css .null, .remove (.strings [first]), .add (.strings [first])]

theorem IsAt.remove_head {options : SheetOptions} {capacity : Int} {e : Engine} {first : String}
    {rest : List String} (h : s.IsAt (first :: rest) options capacity e)
    (nodup : (first :: rest).Nodup) :
    (s.remove (.strings [first])).1.IsAt rest options capacity e := by
  have given : removalNames (.strings [first]) = some [first] := rfl
  have kept : (s.classes.filter fun name => !([first].contains name)) = rest := by
    rw [h.classes, List.filter_cons_of_neg (by simp), List.filter_eq_self]
    intro name mem
    have different : name ≠ first := fun same => (List.nodup_cons.1 nodup).1 (same ▸ mem)
    simp [different]
  simp only [remove, given, kept]
  rw [if_neg (by rw [h.classes, List.length_cons]; omega)]
  exact ⟨rfl, h.options, h.capacity, h.engine⟩

section Readding

variable {settings : CacheSettings} {isSweeping ownsEngine keepsSheet : Bool} {engine : Engine}
  {initial : Except OptionFault SheetOptions} {capacity : Int} {start : Session} {first : String}
  {rest : List String}

/-- The states after the first event and after the last one. -/
theorem isAt_readding (hengine : Engine.ofSettings limits settings table isSweeping = .ok engine)
    (hstart : ofEngine engine ownsEngine initial capacity keepsSheet = .ok start)
    (nodup : (first :: rest).Nodup) (own : ∀ name ∈ first :: rest, IsOwnName table limits name)
    (fits : ((first :: rest).length : Int) ≤ limits.requestSize)
    (room : ((first :: rest).length : Int) ≤ capacity) :
    let e := (engine.parseTokens ((first :: rest).map .string) none).1
    let next := (e.generate start.options ((first :: rest).map .string) none).1
    (start.perform (.add (.strings (first :: rest)))).IsAt (first :: rest) start.options capacity
        e ∧
      (start.run (readding first rest)).IsAt (rest ++ [first]) start.options capacity
        (next.parseTokens ([first].map .string) none).1 ∧
      (start.run (readding first rest)).sheet = none ∧
      next.IsTraced table limits fun _ => True := by
  intro e next
  have new := (Engine.sound_ofSettings hengine fun _ => False).1
  obtain ⟨at₁, gone₁⟩ := (isAt_ofEngine hstart).add new.isReading nodup own (by simp)
    (List.cons_ne_nil _ _) fits room
  rw [List.nil_append] at at₁
  have sound := (new.parseTokens_spec ((first :: rest).map .string) none).1
  obtain ⟨at₂, -⟩ := at₁.css gone₁ (by rw [sound.limits_eq]; exact fits)
  have traced : next.IsTraced table limits fun _ => True :=
    ((sound.isTraced _).generate none trivial).1
  have single : [first].Nodup := List.nodup_cons.2 ⟨List.not_mem_nil, List.nodup_nil⟩
  have itself : ∀ name ∈ [first], IsOwnName table limits name :=
    List.forall_mem_singleton.2 (own first List.mem_cons_self)
  have apart : ∀ name ∈ [first], name ∉ rest :=
    List.forall_mem_singleton.2 (List.nodup_cons.1 nodup).1
  have least : ([first].length : Int) ≤ (first :: rest).length := by
    simp only [List.length_cons, List.length_nil]
    omega
  obtain ⟨at₄, gone₄⟩ := (at₂.remove_head nodup).add traced.toIsReading single itself apart
    (List.cons_ne_nil _ _) (Int.le_trans least fits) (by simpa using room)
  exact ⟨at₁, at₄, gone₄, traced⟩

/-- **A class that was added again keeps its old place in the sheet**, although it is held behind
the others: the engine serves the sheet that it compiled before. -/
theorem css_of_readding (hengine : Engine.ofSettings limits settings table isSweeping = .ok engine)
    (alive : engine.cache.generation.lifetime.isOver 0 = false)
    (hstart : ofEngine engine ownsEngine initial capacity keepsSheet = .ok start)
    (nodup : (first :: rest).Nodup) (own : ∀ name ∈ first :: rest, IsOwnName table limits name)
    (fits : ((first :: rest).length : Int) ≤ limits.requestSize)
    (room : ((first :: rest).length : Int) ≤ capacity) :
    (start.run (readding first rest)).classes = rest ++ [first] ∧
      ((start.run (readding first rest)).css .null).2 =
        .ok (plainCompile table limits start.options ((first :: rest).map .string)
          none).fromCache := by
  obtain ⟨-, last, gone, traced⟩ := isAt_readding hengine hstart nodup own fits room
  have perm : (rest ++ [first]).Perm (first :: rest) := List.perm_append_comm
  refine ⟨last.classes, (last.css gone ?_).2.trans ?_⟩
  · rw [(traced.parseTokens_spec ([first].map .string) none).limits_eq, perm.length_eq]
    exact fits
  · have sound := ((Engine.sound_ofSettings hengine fun _ => False).1.parseTokens_spec
      ((first :: rest).map .string) none).1
    have living : (engine.parseTokens ((first :: rest).map .string)
        none).1.cache.generation.lifetime.isOver 0 = false := by
      obtain ⟨_, _, frame⟩ := engine.parseTokens_frame ((first :: rest).map .string) none
      rw [frame]
      exact alive
    rw [sound.generate_again living (perm.map .string)]

end Readding

/-! ## The order of any sheet -/

/-- A sheet follows the order of a request with its key, and that of the classes that are held if it
was not kept. -/
theorem Holds.css (h : s.Holds table limits asked) {options : Json}
    (present : ∀ request ∈ (SessionEvent.css options).requests s, asked request)
    {sheet : Compilation} (answered : (s.css options).2 = .ok sheet) :
    ∃ settled, s.effectiveOptions options = .ok settled ∧
      (sheet.isCached = false → (sheet.rules.map (·.className)).Sublist s.classes) ∧
      Engine.IsAsked table limits asked (Engine.sheetKey settled s.held) sheet := by
  obtain ⟨settled, given, ⟨kept, found, rfl⟩ | ⟨request, rfl⟩⟩ := css_eq_ok answered
  · refine ⟨settled, given, ?_, h.sheet settled kept found⟩
    rintro ⟨⟩
  · have now := present _ (request ▸ List.mem_cons_self)
    refine ⟨settled, given, fun new => ?_, h.engine.isAsked_generate now⟩
    have order := (h.engine.generate none now).2.1 new
    rwa [held, (valid_of_ownNames h.nodup h.own).1] at order

/-- **The order of a sheet.** A sheet that was not kept follows the order of the classes that are
held. Any sheet follows the order in which the same classes were asked for under the same options
along the history, unless the request was for something else and two texts collide. -/
theorem order_of_css {settings : CacheSettings} {isSweeping ownsEngine keepsSheet : Bool}
    {engine : Engine} (hengine : Engine.ofSettings limits settings table isSweeping = .ok engine)
    {initial : Except OptionFault SheetOptions} {capacity : Int} {first : Session}
    (hfirst : ofEngine engine ownsEngine initial capacity keepsSheet = .ok first)
    {events : List SessionEvent} {options : Json} {sheet : Compilation}
    (answered : ((first.run events).css options).2 = .ok sheet) :
    (sheet.isCached = false →
        (sheet.rules.map (·.className)).Sublist (first.run events).classes) ∧
      ∃ settled, (first.run events).effectiveOptions options = .ok settled ∧
        ∃ request ∈ first.requests (events ++ [.css options]),
          request.Collides ⟨settled, (first.run events).held⟩ ∨
            ∃ order : List String, order.Perm (first.run events).classes ∧
              request = ⟨settled, order.map .string⟩ ∧
              (sheet.rules.map (·.className)).Sublist order := by
  have start := holds_ofEngine hfirst
    (Engine.isTraced_ofSettings hengine (· ∈ first.requests (events ++ [.css options])))
  have whole : first.requests (events ++ [.css options]) =
      first.requests events ++ (SessionEvent.css options).requests (first.run events) :=
    first.along_concat events _
  have used : (first.run events).Holds table limits
      (· ∈ first.requests (events ++ [.css options])) :=
    start.run fun request mem => whole ▸ List.mem_append_left _ mem
  obtain ⟨settled, given, now, request, mem, key, order⟩ :=
    used.css (fun request mem => whole ▸ List.mem_append_right _ mem) answered
  refine ⟨now, settled, given, request, mem, ?_⟩
  rcases SheetRequest.of_key_eq key.symm with collide | ⟨names, perm, rfl⟩
  · exact .inl collide
  · refine .inr ⟨names, perm, rfl, ?_⟩
    rwa [(valid_of_ownNames (perm.nodup_iff.2 used.nodup)
      fun name mem => used.own name (perm.subset mem)).1] at order

section Example

/-- The first of two classes is removed and added again. -/
def readdingTwo : List SessionEvent := readding "p-[1px]" ["p-[2px]"]

theorem exists_readdingTwo : ∃ engine first sheet,
    Engine.ofSettings .standard .standard .standard true = .ok engine ∧
      ofEngine engine false (.ok .default) 10 true = .ok first ∧
      ((first.run readdingTwo).css .null).2 = .ok sheet ∧
      (first.run readdingTwo).classes = ["p-[2px]", "p-[1px]"] ∧
      sheet.rules.map (·.className) = ["p-[1px]", "p-[2px]"] := by
  obtain ⟨engine, made, alive⟩ : ∃ engine, Engine.ofSettings .standard .standard .standard true =
      .ok engine ∧ engine.cache.generation.lifetime.isOver 0 = false := ⟨_, rfl, by decide +kernel⟩
  obtain ⟨first, start, options⟩ : ∃ first, ofEngine engine false (.ok .default) 10 true =
      .ok first ∧ first.options = .default := ⟨_, rfl, rfl⟩
  obtain ⟨classes, answered⟩ := css_of_readding made alive start (by decide) isOwnName_twoNames
    (by decide) (by decide)
  refine ⟨engine, first, _, made, start, answered, classes, ?_⟩
  rw [options]
  decide +kernel

/-- The order of this sheet is that of the first request. -/
theorem order_of_css_readdingTwo : ∃ engine first sheet settled,
    Engine.ofSettings .standard .standard .standard true = .ok engine ∧
      ofEngine engine false (.ok .default) 10 true = .ok first ∧
      ((first.run readdingTwo).css .null).2 = .ok sheet ∧
      (first.run readdingTwo).effectiveOptions .null = .ok settled ∧
      ∃ request ∈ first.requests (readdingTwo ++ [.css .null]),
        request.Collides ⟨settled, (first.run readdingTwo).held⟩ ∨
          ∃ order : List String, order.Perm (first.run readdingTwo).classes ∧
            request = ⟨settled, order.map .string⟩ ∧
            (sheet.rules.map (·.className)).Sublist order := by
  obtain ⟨engine, first, sheet, made, start, answered, -, -⟩ := exists_readdingTwo
  obtain ⟨-, settled, given, origin⟩ := order_of_css made start answered
  exact ⟨engine, first, sheet, settled, made, start, answered, given, origin⟩

/-- The class is held last, and it comes first in the sheet. -/
theorem exists_css_out_of_order : ∃ engine first sheet,
    Engine.ofSettings .standard .standard .standard true = .ok engine ∧
      ofEngine engine false (.ok .default) 10 true = .ok first ∧
      ((first.run readdingTwo).css .null).2 = .ok sheet ∧
      ¬ (sheet.rules.map (·.className)).Sublist (first.run readdingTwo).classes := by
  obtain ⟨engine, first, sheet, made, start, answered, classes, names⟩ := exists_readdingTwo
  refine ⟨engine, first, sheet, made, start, answered, ?_⟩
  rw [names, classes]
  decide

end Example

end BracketCss.Session
