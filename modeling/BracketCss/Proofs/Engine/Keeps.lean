import BracketCss.Proofs.Engine.Run

/-!
# What an engine keeps

What is known of the rules and the sheets that an engine keeps stays true under every event that
neither builds a rule nor compiles a sheet. So it stays true along a history if it does for these
two.

## Main definitions

* `Engine.Keeps table limits onRule onSheet e`: an engine that reads as without caches keeps only
  rules and sheets of some kind

## Main results

* `Engine.Keeps.perform`: an event keeps it if building a rule and compiling a sheet do
-/

namespace BracketCss.Engine

/-- An engine that reads as without caches, with what is known of the rules and the sheets that it
keeps under their keys. -/
structure Keeps (table : PropertyTable) (limits : InputLimits) (onRule : String → StyleRule → Prop)
    (onSheet : String → Compilation → Prop) (e : Engine) : Prop
    extends IsReading table limits e where
  rule : e.cache.rule.All onRule
  generation : e.cache.generation.All onSheet

namespace Keeps

variable {table : PropertyTable} {limits : InputLimits} {onRule : String → StyleRule → Prop}
  {onSheet : String → Compilation → Prop} {e : Engine}

theorem of_frame (h : e.Keeps table limits onRule onSheet) {next : Engine}
    (reading : next.IsReading table limits)
    (frame : ∃ keys parse, next = e.withCache { e.cache with keys := keys, parse := parse }) :
    next.Keeps table limits onRule onSheet := by
  obtain ⟨_, _, rfl⟩ := frame
  exact ⟨reading, h.rule, h.generation⟩

theorem parse_spec (h : e.Keeps table limits onRule onSheet) (token : Json) :
    (e.parse token).1.Keeps table limits onRule onSheet :=
  h.of_frame (h.toIsReading.parse_spec token).1 (e.parse_frame token)

theorem parseTokens_spec (h : e.Keeps table limits onRule onSheet) (tokens : List Json)
    (stop : Option Nat) : (e.parseTokens tokens stop).1.Keeps table limits onRule onSheet :=
  h.of_frame (h.toIsReading.parseTokens tokens stop).1 (e.parseTokens_frame tokens stop)

theorem lookedUp (h : e.Keeps table limits onRule onSheet) {keys : KeyMemo} (sound : keys.Sound)
    (key : String) : (e.lookedUp keys key).Keeps table limits onRule onSheet :=
  ⟨⟨h.table_eq, h.limits_eq, sound, h.parse⟩, h.rule, h.generation.get _ _⟩

theorem keep (h : e.Keeps table limits onRule onSheet) {key : String} {sheet : Compilation}
    (kept : onSheet key sheet) : (e.keep key sheet).Keeps table limits onRule onSheet :=
  ⟨⟨h.table_eq, h.limits_eq, h.keys, h.parse⟩, h.rule, h.generation.set _ kept⟩

theorem optimize (h : e.Keeps table limits onRule onSheet) :
    (e.withCache e.cache.optimize.1).Keeps table limits onRule onSheet :=
  ⟨⟨h.table_eq, h.limits_eq, h.keys.optimize, h.parse.sweep _ _⟩, h.rule.sweep _ _,
    h.generation.sweep _ _⟩

/-- An engine that is sound relative to no texts has kept neither a rule nor a sheet. -/
theorem of_sound (h : e.Sound table limits fun _ => False) :
    e.Keeps table limits onRule onSheet :=
  ⟨h.isReading, h.rule.imp fun _ _ ⟨_, _, _, text, _⟩ => text.elim,
    h.generation.imp fun _ _ ⟨_, _, text, _⟩ => text.elim⟩

/-- **An event keeps what is known of the rules and the sheets** if building a rule and compiling a
sheet do. -/
theorem perform (h : e.Keeps table limits onRule onSheet) {event : EngineEvent}
    (build : ∀ c important, event = .build c important →
      (e.build c important).1.Keeps table limits onRule onSheet)
    (generate : ∀ classes options stop, event = .generate classes options stop →
      ∀ settled tokens, SheetOptions.ofJson options = .ok settled → e.tokens classes = .ok tokens →
        (e.generate settled tokens stop).1.Keeps table limits onRule onSheet) :
    (e.perform event).Keeps table limits onRule onSheet := by
  cases event with
  | parse token => exact h.parse_spec token
  | build c important => exact build c important rfl
  | parseMany classes stop =>
    simp only [Engine.perform, Engine.parseMany]
    split
    · exact h
    · exact h.parseTokens_spec _ stop
  | generate classes options stop =>
    by_cases accepted : ∃ settled tokens, SheetOptions.ofJson options = .ok settled ∧
        e.tokens classes = .ok tokens
    · obtain ⟨settled, tokens, hoptions, htokens⟩ := accepted
      rw [Engine.perform, answer_of_ok hoptions htokens]
      exact generate classes options stop rfl settled tokens hoptions htokens
    · rw [Engine.perform, answer_of_refused fun settled tokens hoptions htokens =>
        accepted ⟨settled, tokens, hoptions, htokens⟩]
      exact h
  | tick seconds => exact ⟨⟨h.table_eq, h.limits_eq, h.keys, h.parse⟩, h.rule, h.generation⟩
  | optimize => exact h.optimize
  | startSweeper interval =>
    simp only [Engine.perform, CacheSystem.startSweeper]
    split
    · exact h
    · exact ⟨⟨h.table_eq, h.limits_eq, h.keys, h.parse⟩, h.rule, h.generation⟩
  | sweep =>
    have tidy := h.optimize
    exact ⟨⟨tidy.table_eq, tidy.limits_eq, tidy.keys, tidy.parse⟩, tidy.rule, tidy.generation⟩
  | clear =>
    exact ⟨⟨h.table_eq, h.limits_eq, KeyMemo.sound_clear _, .clear⟩, .clear, .clear⟩
  | shutdown => exact ⟨⟨h.table_eq, h.limits_eq, h.keys, h.parse⟩, h.rule, h.generation⟩

end Keeps

end BracketCss.Engine
