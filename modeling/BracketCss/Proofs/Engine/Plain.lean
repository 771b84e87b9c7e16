import BracketCss.Engine.Basic
import BracketCss.Proofs.Cache.Memo
import BracketCss.Proofs.Class.Reader

/-!
# Compiling without caches

The compilation of a list of tokens as a function of the tokens, the options, the table and the
limits alone. It sees a token only as it enters the key of a sheet, so lists whose tokens have the
same keys in the same order have the same compilation.

## Main definitions

* `IsRead table limits c`: a class that some token is read as
* `heard tokens stop`: the tokens before a cancellation
* `plainBatch`, `plainBuild`, `plainCompile`: reading, building and compiling without caches

## Main results

* `keyToken_inj`: equal compact texts come from equal keys of tokens
* `plainCompile_congr`: tokens with equal keys compile alike
* `exists_perm_map_eq`: equal tokens in some order are a rearrangement with equal keys
-/

namespace BracketCss

open Engine (keyToken)

section Plain

variable (table : PropertyTable) (limits : InputLimits)

/-- Some token is read as the class. -/
def IsRead (c : UtilityClass) : Prop := ∃ token, UtilityClass.read table limits token = .ok c

/-- The tokens that are read before a cancellation after `n` of them. -/
def heard (tokens : List Json) : (stop : Option Nat) → List Json
  | none => tokens
  | some n => tokens.take n

/-- The result for a token. -/
def readResult (token : Json) : TokenResult := (token, UtilityClass.read table limits token)

/-- The batch of a list of tokens. -/
def plainBatch (tokens : List Json) (stop : Option Nat) : Batch :=
  .ofResults tokens.length (decide ((heard tokens stop).length < tokens.length))
    ((distinctTokens (heard tokens stop)).map (readResult table limits))

/-- The rules of classes, and the reports on those without one. -/
def plainBuild (important : Bool) : List UtilityClass → List StyleRule × List InvalidClass
  | [] => ([], [])
  | c :: rest =>
    let (rules, refused) := plainBuild important rest
    match c.rule important with
    | .ok rule => (rule :: rules, refused)
    | .error failure => (rules, .ofClass c.name failure :: refused)

/-- The compilation of a list of tokens. -/
def plainCompile (options : SheetOptions) (tokens : List Json) (stop : Option Nat) : Compilation :=
  let batch := plainBatch table limits tokens stop
  let built := plainBuild options.important batch.parsed
  .ofRules options batch built.1 built.2

end Plain

variable {table : PropertyTable} {limits : InputLimits}

theorem mem_of_mem_distinctFrom {α β : Type} [BEq β] {key : α → β} {seen : List β} {items : List α}
    {item : α} (h : item ∈ distinctFrom key seen items) : item ∈ items := by
  induction items generalizing seen with
  | nil => exact h
  | cons first items ih =>
    rw [distinctFrom] at h
    split at h
    · exact List.mem_cons_of_mem _ (ih h)
    · rcases List.mem_cons.1 h with rfl | h
      · exact List.mem_cons_self
      · exact List.mem_cons_of_mem _ (ih h)

/-- The classes of a batch are classes that tokens are read as. -/
theorem isRead_of_mem_parsed {tokens : List Json} {stop : Option Nat} {c : UtilityClass}
    (h : c ∈ (plainBatch table limits tokens stop).parsed) : IsRead table limits c := by
  obtain ⟨result, mem, found⟩ := List.mem_filterMap.1 (mem_of_mem_distinctFrom h)
  obtain ⟨token, _, rfl⟩ := List.mem_map.1 mem
  refine ⟨token, ?_⟩
  simp only [readResult, Batch.class?] at found
  split at found
  · next same =>
    obtain rfl := Option.some.inj found
    exact (Prod.mk.inj same).2
  · cases found

/-- A compilation is cancelled if a token was left out. -/
theorem isCancelled_plainCompile (options : SheetOptions) (tokens : List Json)
    (stop : Option Nat) :
    (plainCompile table limits options tokens stop).isCancelled =
      decide ((heard tokens stop).length < tokens.length) := rfl

/-- A compilation that is not cancelled has read all tokens. -/
theorem plainCompile_of_not_cancelled {options : SheetOptions} {tokens : List Json}
    {stop : Option Nat} (h : (plainCompile table limits options tokens stop).isCancelled = false) :
    heard tokens stop = tokens := by
  rw [isCancelled_plainCompile, decide_eq_false_iff_not] at h
  cases stop with
  | none => rfl
  | some n =>
    simp only [heard, List.length_take] at h ⊢
    exact List.take_of_length_le (by omega)

theorem plainBatch_of_not_cancelled {options : SheetOptions} {tokens : List Json}
    {stop : Option Nat} (h : (plainCompile table limits options tokens stop).isCancelled = false) :
    plainBatch table limits tokens stop = plainBatch table limits tokens none := by
  rw [plainBatch, plainCompile_of_not_cancelled h]
  rfl

/-- Items that agree in a key agree in everything that the key determines. -/
theorem map_eq_of_map_eq {α β γ : Type} {f : α → β} {key : α → γ}
    (hf : ∀ a b, key a = key b → f a = f b) {items others : List α}
    (h : items.map key = others.map key) : items.map f = others.map f := by
  induction items generalizing others with
  | nil =>
    cases others with
    | nil => rfl
    | cons => cases h
  | cons a items ih =>
    cases others with
    | nil => cases h
    | cons b others =>
      obtain ⟨first, rest⟩ := List.cons.inj h
      rw [List.map_cons, List.map_cons, hf a b first, ih rest]

section Keys

theorem isAtom_keyToken_fields (token : Json) :
    ∀ entry ∈ [("type", Json.string token.kindName), ("repr", Json.string token.literal)],
      entry.2.IsAtom := by
  intro entry mem
  simp only [List.mem_cons, List.not_mem_nil, or_false] at mem
  rcases mem with rfl | rfl <;> trivial

/-- A text, or a token that is told by its kind and its notation. -/
theorem keyToken_cases (token : Json) :
    (∃ s, token = .string s) ∨ token.string? = none ∧ keyToken token =
      .object [("type", .string token.kindName), ("repr", .string token.literal)] := by
  cases token <;> first | exact .inl ⟨_, rfl⟩ | exact .inr ⟨rfl, rfl⟩

theorem canonical_string_ne_object (s : String) (fields : List (String × Json)) :
    (Json.string s).canonical ≠ (Json.object fields).canonical := by
  intro same
  have texts := congrArg String.toList same
  rw [Json.canonical_string, Json.toList_stringText, Json.toList_canonical_object] at texts
  exact absurd (List.cons.inj texts).1 (by decide)

/-- The compact text of a token's key determines the key. -/
theorem keyToken_inj {a b : Json} (h : (keyToken a).canonical = (keyToken b).canonical) :
    keyToken a = keyToken b := by
  rcases keyToken_cases a with ⟨s, rfl⟩ | ⟨_, ha⟩
  · rcases keyToken_cases b with ⟨t, rfl⟩ | ⟨_, hb⟩
    · simp only [keyToken, Json.canonical_string] at h
      rw [Json.stringText_injective h]
    · rw [hb] at h
      exact absurd h (canonical_string_ne_object _ _)
  · rcases keyToken_cases b with ⟨t, rfl⟩ | ⟨_, hb⟩
    · rw [ha] at h
      exact absurd h.symm (canonical_string_ne_object _ _)
    · rw [ha, hb] at h ⊢
      have member := fun entry =>
        @Json.mem_fields_of_canonical_eq _ _ (isAtom_keyToken_fields a)
          (isAtom_keyToken_fields b) h entry
      have kind := member ("type", .string a.kindName) (by simp)
      have text := member ("repr", .string a.literal) (by simp)
      simp only [List.mem_cons, Prod.mk.injEq, String.reduceEq, Json.string.injEq, true_and,
        false_and, List.not_mem_nil, or_false, false_or] at kind text
      rw [kind, text]

theorem keyToken_eq_string {token : Json} {s : String} (h : keyToken token = .string s) :
    token = .string s := by
  rcases keyToken_cases token with ⟨t, rfl⟩ | ⟨_, other⟩
  · exact h
  · rw [other] at h
    cases h

/-- Two tokens with the same key are the same text, or no texts, of the same kind and with the
same notation. -/
theorem keyToken_eq_iff {a b : Json} (h : keyToken a = keyToken b) :
    (∃ s, a = .string s ∧ b = .string s) ∨
      a.string? = none ∧ b.string? = none ∧ a.kindName = b.kindName ∧ a.literal = b.literal := by
  rcases keyToken_cases a with ⟨s, rfl⟩ | ⟨noText, ha⟩
  · exact .inl ⟨s, rfl, keyToken_eq_string h.symm⟩
  · rcases keyToken_cases b with ⟨t, rfl⟩ | ⟨noText', hb⟩
    · exact .inl ⟨t, keyToken_eq_string h, rfl⟩
    · rw [ha, hb] at h
      simp only [Json.object.injEq, List.cons.injEq, Prod.mk.injEq, Json.string.injEq, true_and,
        and_true] at h
      exact .inr ⟨noText, noText', h⟩

theorem Json.eq_string_of_string? {token : Json} {s : String} (h : token.string? = some s) :
    token = .string s := by
  cases token <;> cases h
  rfl

theorem read_of_not_text {token : Json} (h : token.string? = none) :
    UtilityClass.read table limits token =
      .error ((Rejection.notText token.kindName).failure none []) := by
  cases token <;> first | rfl | cases h

theorem tokenName_of_not_text {token : Json} (h : token.string? = none) :
    InvalidClass.tokenName token = token.literal := by
  cases token <;> first | rfl | cases h

/-- What becomes of a token depends on its key only. -/
theorem result_eq_of_key {a b : Json} (h : keyToken a = keyToken b) :
    Batch.class? (readResult table limits a) = Batch.class? (readResult table limits b) ∧
      Batch.invalid? (readResult table limits a) = Batch.invalid? (readResult table limits b) := by
  rcases keyToken_eq_iff h with ⟨s, rfl, rfl⟩ | ⟨ha, hb, kind, text⟩
  · exact ⟨rfl, rfl⟩
  · simp only [readResult, read_of_not_text ha, read_of_not_text hb, kind, Batch.class?,
      Batch.invalid?, InvalidClass.ofToken, tokenName_of_not_text ha, tokenName_of_not_text hb,
      text, and_self]

theorem distinctTokensFrom_of_not_text {token : Json} (h : token.string? = none)
    (seen : List String) (tokens : List Json) :
    distinctTokensFrom seen (token :: tokens) = token :: distinctTokensFrom seen tokens := by
  cases token <;> first | rfl | cases h

theorem keys_distinctTokensFrom {tokens others : List Json}
    (h : tokens.map keyToken = others.map keyToken) (seen : List String) :
    (distinctTokensFrom seen tokens).map keyToken =
      (distinctTokensFrom seen others).map keyToken := by
  induction tokens generalizing others seen with
  | nil =>
    cases others with
    | nil => rfl
    | cons => cases h
  | cons a tokens ih =>
    cases others with
    | nil => cases h
    | cons b others =>
      obtain ⟨first, rest⟩ := List.cons.inj h
      rcases keyToken_eq_iff first with ⟨s, rfl, rfl⟩ | ⟨ha, hb, _, _⟩
      · simp only [distinctTokensFrom]
        split
        · exact ih rest seen
        · rw [List.map_cons, List.map_cons, ih rest]
      · rw [distinctTokensFrom_of_not_text ha, distinctTokensFrom_of_not_text hb, List.map_cons,
          List.map_cons, first, ih rest]

theorem plainBatch_congr {tokens others : List Json}
    (h : tokens.map keyToken = others.map keyToken) :
    plainBatch table limits tokens none = plainBatch table limits others none := by
  have length : tokens.length = others.length := by simpa using congrArg List.length h
  have keys := keys_distinctTokensFrom h []
  have results : ∀ {β : Type} (f : TokenResult → Option β),
      (∀ a b, keyToken a = keyToken b →
        f (readResult table limits a) = f (readResult table limits b)) →
      ((distinctTokens tokens).map (readResult table limits)).filterMap f =
        ((distinctTokens others).map (readResult table limits)).filterMap f := by
    intro β f hf
    have same := map_eq_of_map_eq (f := fun token => f (readResult table limits token)) hf keys
    have through := congrArg (List.filterMap id) same
    rw [List.filterMap_map, List.filterMap_map] at through ⊢
    exact through
  have classes := results Batch.class? fun a b key => (result_eq_of_key key).1
  have refused := results Batch.invalid? fun a b key => (result_eq_of_key key).2
  have whole : ∀ items : List Json, decide ((heard items none).length < items.length) = false := by
    simp [heard]
  rw [plainBatch, plainBatch, whole, whole, length, Batch.ofResults, Batch.ofResults]
  rw [Batch.mk.injEq]
  exact ⟨congrArg (distinctBy (·.name)) classes, refused, rfl, rfl⟩

/-- Tokens with equal keys compile alike. -/
theorem plainCompile_congr (options : SheetOptions) {tokens others : List Json}
    (h : tokens.map keyToken = others.map keyToken) :
    plainCompile table limits options tokens none =
      plainCompile table limits options others none := by
  simp only [plainCompile, plainBatch_congr h]

end Keys

/-- Images that agree up to their order come from a rearrangement with equal images. -/
theorem exists_perm_map_eq {α β : Type} {f : α → β} {items : List α} {images : List β}
    (h : images.Perm (items.map f)) :
    ∃ order : List α, order.Perm items ∧ order.map f = images := by
  induction images generalizing items with
  | nil =>
    have none := h.nil_eq
    exact ⟨[], by rw [List.map_eq_nil_iff.1 none.symm], rfl⟩
  | cons b images ih =>
    obtain ⟨a, mem, rfl⟩ := List.mem_map.1 (h.subset List.mem_cons_self)
    -- the first image is some item's: that item comes first, and the rest is arranged by induction
    obtain ⟨before, after, rfl⟩ := List.append_of_mem mem
    have rest : images.Perm ((before ++ after).map f) := by
      refine (h.trans ?_).cons_inv
      rw [← List.map_cons]
      exact List.perm_middle.map f
    obtain ⟨order, perm, rfl⟩ := ih rest
    exact ⟨a :: order, (perm.cons a).trans List.perm_middle.symm, rfl⟩

end BracketCss
