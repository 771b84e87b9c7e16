import BracketCss.Proofs.Cache.Tier
import BracketCss.Proofs.Engine.Plain

/-!
# Reading with a cache

What an engine needs in order to read tokens as without its caches: keys that belong to what they
are looked up by, and classes that were read from the texts in their keys. Nothing is assumed about
digests, since the key of a class holds its whole name. Reading touches no other cache.

A sheet is looked for under a key that holds two digests, and it is compiled only if none is kept
there.

## Main definitions

* `Engine.IsReading table limits e`: the engine reads as without its caches
* `Engine.sheetKey options tokens`: the key under which a sheet is kept
* `Engine.lookedUp`, `Engine.keep`: what looking for a sheet and keeping one change

## Main results

* `Engine.IsReading.parseTokens`: it still does after it has read a list of tokens
* `Engine.parseTokens_frame`: sheets, rules and the clock stay as they are
* `Engine.generate_cases`: a sheet is kept already, or it is compiled
-/

namespace BracketCss.Engine

/-- The keys are right, and the classes that are kept were read from the texts in their keys. -/
structure IsReading (table : PropertyTable) (limits : InputLimits) (e : Engine) : Prop where
  table_eq : e.table = table
  limits_eq : e.limits = limits
  keys : e.cache.keys.Sound
  parse : e.cache.parse.All fun key c =>
    ∃ s, key = CacheKey.parse s ∧ UtilityClass.read table limits (.string s) = .ok c

variable {table : PropertyTable} {limits : InputLimits} {e : Engine}

theorem IsReading.readToken (h : e.IsReading table limits) (token : Json) :
    e.readToken token = UtilityClass.read table limits token := by
  rw [Engine.readToken, h.table_eq, h.limits_eq]

theorem IsReading.parseText (h : e.IsReading table limits) (s : String) :
    (e.parseText s).1.IsReading table limits ∧
      (e.parseText s).2 = UtilityClass.read table limits (.string s) := by
  obtain ⟨keys, key⟩ := h.keys.parseKey s
  have tier := h.parse.get e.cache.now (CacheKey.parse s)
  unfold Engine.parseText
  simp only [key]
  split
  · next c hit =>
    refine ⟨⟨h.table_eq, h.limits_eq, keys, tier⟩, ?_⟩
    obtain ⟨t, same, read⟩ := h.parse.value_of_get hit
    rw [CacheKey.parse_inj same, read]
  · rw [h.readToken]
    split
    · next c read =>
      exact ⟨⟨h.table_eq, h.limits_eq, keys, tier.set _ ⟨s, rfl, read⟩⟩, read.symm⟩
    · next failure read => exact ⟨⟨h.table_eq, h.limits_eq, keys, tier⟩, read.symm⟩

theorem IsReading.parse_spec (h : e.IsReading table limits) (token : Json) :
    (e.parse token).1.IsReading table limits ∧
      (e.parse token).2 = UtilityClass.read table limits token := by
  cases text : token.string? with
  | none =>
    rw [parse_of_not_text text]
    exact ⟨h, h.readToken token⟩
  | some s =>
    obtain rfl := Json.eq_string_of_string? text
    exact h.parseText s

theorem IsReading.parseEach (h : e.IsReading table limits) (tokens : List Json) :
    (e.parseEach tokens).1.IsReading table limits ∧
      (e.parseEach tokens).2 = tokens.map (readResult table limits) := by
  induction tokens generalizing e with
  | nil => exact ⟨h, rfl⟩
  | cons token tokens ih =>
    obtain ⟨next, result⟩ := h.parse_spec token
    obtain ⟨last, results⟩ := ih next
    exact ⟨last, by simp only [Engine.parseEach, results, result, List.map_cons, readResult]⟩

/-- **A list of tokens is read as without caches.** -/
theorem IsReading.parseTokens (h : e.IsReading table limits) (tokens : List Json)
    (stop : Option Nat) :
    (e.parseTokens tokens stop).1.IsReading table limits ∧
      (e.parseTokens tokens stop).2 = plainBatch table limits tokens stop := by
  obtain ⟨reading, results⟩ := h.parseEach (distinctTokens (heard tokens stop))
  cases stop <;> exact ⟨reading, by simp only [plainBatch, ← results]; rfl⟩

theorem parseText_frame (e : Engine) (s : String) : ∃ keys parse,
    (e.parseText s).1 = e.withCache { e.cache with keys := keys, parse := parse } := by
  unfold parseText
  dsimp only
  split
  · exact ⟨_, _, rfl⟩
  · split <;> exact ⟨_, _, rfl⟩

theorem parse_frame (e : Engine) (token : Json) : ∃ keys parse,
    (e.parse token).1 = e.withCache { e.cache with keys := keys, parse := parse } := by
  cases token with
  | string s => exact e.parseText_frame s
  | _ => exact ⟨e.cache.keys, e.cache.parse, rfl⟩

theorem parseEach_frame (e : Engine) (tokens : List Json) : ∃ keys parse,
    (e.parseEach tokens).1 = e.withCache { e.cache with keys := keys, parse := parse } := by
  induction tokens generalizing e with
  | nil => exact ⟨e.cache.keys, e.cache.parse, rfl⟩
  | cons token tokens ih =>
    obtain ⟨_, _, first⟩ := e.parse_frame token
    obtain ⟨keys, parse, last⟩ := ih (e.parse token).1
    refine ⟨keys, parse, last.trans ?_⟩
    rw [first]
    rfl

/-- Reading touches the keys and the classes that are kept, and nothing else. -/
theorem parseTokens_frame (e : Engine) (tokens : List Json) (stop : Option Nat) :
    ∃ keys parse, (e.parseTokens tokens stop).1 =
      e.withCache { e.cache with keys := keys, parse := parse } :=
  e.parseEach_frame _

/-! ## Sheets -/

/-- The key under which a sheet is kept. -/
def sheetKey (options : SheetOptions) (tokens : List Json) : String :=
  CacheKey.generation (Digest.short (CacheKey.tokensText (tokens.map keyToken)))
    (Digest.short options.toJson.canonical)

/-- The engine after it has looked for a sheet. -/
def lookedUp (e : Engine) (keys : KeyMemo) (key : String) : Engine :=
  e.withCache { e.cache with
    keys := keys, generation := (e.cache.generation.get e.cache.now key).1 }

/-- The engine with a sheet that it keeps. -/
def keep (e : Engine) (key : String) (sheet : Compilation) : Engine :=
  e.withCache { e.cache with generation := e.cache.generation.set e.cache.now key sheet }

/-- A sheet that is kept is served; any other is compiled, and kept unless it was cancelled. -/
theorem generate_cases (h : e.cache.keys.Sound) (options : SheetOptions) (tokens : List Json)
    (stop : Option Nat) :
    ∃ keys : KeyMemo, keys.Sound ∧
      ((∃ sheet, (e.cache.generation.get e.cache.now (sheetKey options tokens)).2 = some sheet ∧
          e.generate options tokens stop =
            (e.lookedUp keys (sheetKey options tokens), sheet.fromCache)) ∨
        (e.cache.generation.get e.cache.now (sheetKey options tokens)).2 = none ∧
          ∃ next sheet, (e.lookedUp keys (sheetKey options tokens)).compile options tokens stop =
              (next, sheet) ∧
            e.generate options tokens stop =
              (if sheet.isCancelled then next else next.keep (sheetKey options tokens) sheet,
                sheet)) := by
  obtain ⟨sound, key⟩ := h.generationKey (tokens.map keyToken) options.toJson
  refine ⟨_, sound, ?_⟩
  unfold Engine.generate
  dsimp only
  rw [key]
  cases kept : (e.cache.generation.get e.cache.now (sheetKey options tokens)).2 with
  | some sheet =>
    refine .inl ⟨sheet, rfl, ?_⟩
    rw [sheetKey] at kept
    rw [kept]
    rfl
  | none =>
    refine .inr ⟨rfl, _, _, rfl, ?_⟩
    rw [sheetKey] at kept
    rw [kept]
    dsimp only
    split
    · next cancelled => rw [if_pos (by exact cancelled)]; rfl
    · next running => rw [if_neg (by exact running)]; rfl

end BracketCss.Engine
