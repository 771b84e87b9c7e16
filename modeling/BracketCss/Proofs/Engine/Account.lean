import BracketCss.Proofs.Class.Form
import BracketCss.Proofs.Class.Grammar
import BracketCss.Proofs.Engine.Check
import BracketCss.Proofs.Json.Printed

/-!
# The account of a batch

A batch accounts for every place among its tokens. A place is accepted if its token is read as a
class and none with that name was read earlier; it is refused if its token is refused and is no text
that stood earlier; and nothing else is left out than repetitions of an earlier text or name. The
classes and the reports of a batch are those of the accepted and of the refused places, in their
order.

In a sheet that is compiled, every class has a rule or a report. A report on a token never takes the
name of a class: a text with the name of a class is read as it, and a value that is no text is not
shown like one. So every accepted name is counted once, whatever the engine was used for before.

## Main definitions

* `ListsPlaces yields items`: the items are what the places yield, in order
* `AcceptsNext`, `RefusesNext`: what the place of a token yields after the tokens in front of it

## Main results

* `listsPlaces_of_concat`: a list that grows by what each new place yields
* `listsPlaces_parsed`, `listsPlaces_invalid`: the places of a batch
* `literal_ne_name`: a value that is no text is not shown as the name of a class
* `Engine.account_of_run`: the account of a batch and of its sheet
-/

namespace BracketCss

open Text

/-! ## Places -/

/-- The items are what the places of a list yield, in the order of the places. -/
def ListsPlaces {β : Type} (yields : Nat → β → Prop) (items : List β) : Prop :=
  ∃ places : List Nat, places.Pairwise (· < ·) ∧ (∀ i, i ∈ places ↔ ∃ b, yields i b) ∧
    List.Forall₂ yields places items

section Places

variable {α β : Type} {yields : Nat → β → Prop} {items : List β} {n : Nat}

theorem ListsPlaces.congr {other : Nat → β → Prop} (h : ListsPlaces yields items)
    (same : ∀ i b, other i b ↔ yields i b) : ListsPlaces other items := by
  have equal : other = yields := funext fun i => funext fun b => propext (same i b)
  rwa [equal]

/-- A place behind all others yields an item at the end. -/
theorem ListsPlaces.concat (h : ListsPlaces yields items) (front : ∀ i b, yields i b → i < n)
    {step : β → Prop} {b : β} (hb : step b) :
    ListsPlaces (fun i b => yields i b ∨ i = n ∧ step b) (items ++ [b]) := by
  obtain ⟨places, sorted, mem, paired⟩ := h
  refine ⟨places ++ [n], ?_, fun i => ?_, ?_⟩
  · refine List.pairwise_append.2 ⟨sorted, List.pairwise_singleton _ _, fun i hi j hj => ?_⟩
    obtain ⟨c, hc⟩ := (mem i).1 hi
    rw [List.mem_singleton.1 hj]
    exact front i c hc
  · rw [List.mem_append, List.mem_singleton, mem]
    constructor
    · rintro (⟨c, hc⟩ | rfl)
      · exact ⟨c, .inl hc⟩
      · exact ⟨b, .inr ⟨rfl, hb⟩⟩
    · rintro ⟨c, hc | ⟨rfl, -⟩⟩
      · exact .inl ⟨c, hc⟩
      · exact .inr rfl
  · have kept : List.Forall₂ (fun i b => yields i b ∨ i = n ∧ step b) places items :=
      paired.imp fun _ _ old => .inl old
    exact List.rel_append kept (.cons (.inr ⟨rfl, hb⟩) .nil)

/-- **A list that grows by what each new place yields** lists the places. -/
theorem listsPlaces_of_concat {f : List α → List β} {step : List α → α → β → Prop}
    (nil : f [] = [])
    (concat : ∀ xs x, (∃ b, step xs x b ∧ f (xs ++ [x]) = f xs ++ [b]) ∨
      (∀ b, ¬ step xs x b) ∧ f (xs ++ [x]) = f xs) (xs : List α) :
    ListsPlaces (fun i b => ∃ x, xs[i]? = some x ∧ step (xs.take i) x b) (f xs) := by
  induction xs using List.reverseRecOn with
  | nil => exact ⟨[], .nil, by simp, by rw [nil]; exact .nil⟩
  | append_singleton xs x ih =>
    have places : ∀ i b, (∃ y, (xs ++ [x])[i]? = some y ∧ step ((xs ++ [x]).take i) y b) ↔
        (∃ y, xs[i]? = some y ∧ step (xs.take i) y b) ∨ i = xs.length ∧ step xs x b := by
      intro i b
      rcases Nat.lt_trichotomy i xs.length with before | rfl | behind
      · rw [List.getElem?_append_left before, List.take_append_of_le_length before.le]
        simp [before.ne]
      · simp
      · have outside : (xs ++ [x])[i]? = none := by
          refine List.getElem?_eq_none ?_
          rw [List.length_append, List.length_singleton]
          exact behind
        have further : xs[i]? = none := List.getElem?_eq_none behind.le
        simp only [outside, further, behind.ne', reduceCtorEq, false_and, exists_false, or_false]
    have front : ∀ i b, (∃ y, xs[i]? = some y ∧ step (xs.take i) y b) → i < xs.length := by
      rintro i b ⟨y, found, -⟩
      exact (List.getElem?_eq_some_iff.1 found).1
    rcases concat xs x with ⟨b, hb, grown⟩ | ⟨absent, same⟩
    · rw [grown]
      exact (ih.concat front hb).congr places
    · rw [same]
      refine ih.congr fun i b => (places i b).trans ?_
      simp [absent]

end Places

/-! ## The places of a batch -/

section Batch

variable {table : PropertyTable} {limits : InputLimits}

/-- A token is read as a class, and none in front of it as a class with the same name. -/
def AcceptsNext (table : PropertyTable) (limits : InputLimits) (earlier : List Json) (token : Json)
    (c : UtilityClass) : Prop :=
  UtilityClass.read table limits token = .ok c ∧
    ∀ other ∈ earlier, ∀ d, UtilityClass.read table limits other = .ok d → d.name ≠ c.name

/-- A token is refused with a report, and if it is a text, the text does not stand in front of
it. -/
def RefusesNext (table : PropertyTable) (limits : InputLimits) (earlier : List Json) (token : Json)
    (report : InvalidClass) : Prop :=
  (∃ failure, UtilityClass.read table limits token = .error failure ∧
      report = .ofToken token failure) ∧
    ∀ s, token = .string s → token ∉ earlier

/-- Only what was seen counts, not how often or in which order. -/
theorem distinctTokensFrom_congr {seen other : List String} (same : ∀ s, s ∈ seen ↔ s ∈ other)
    (tokens : List Json) : distinctTokensFrom seen tokens = distinctTokensFrom other tokens := by
  induction tokens generalizing seen other with
  | nil => rfl
  | cons token tokens ih =>
    cases text : token.string? with
    | none => rw [distinctTokensFrom_of_not_text text, distinctTokensFrom_of_not_text text, ih same]
    | some s =>
      obtain rfl := Json.eq_string_of_string? text
      have grown : ∀ t, t ∈ s :: seen ↔ t ∈ s :: other := fun t => by
        rw [List.mem_cons, List.mem_cons, same]
      simp only [distinctTokensFrom, List.contains_iff_mem, same, ih same, ih grown]

/-- Behind some tokens, their texts have been seen as well. -/
theorem distinctTokensFrom_append (seen : List String) (tokens more : List Json) :
    distinctTokensFrom seen (tokens ++ more) = distinctTokensFrom seen tokens ++
      distinctTokensFrom (tokens.filterMap Json.string? ++ seen) more := by
  induction tokens generalizing seen with
  | nil => rfl
  | cons token tokens ih =>
    rw [List.cons_append]
    cases text : token.string? with
    | none =>
      rw [distinctTokensFrom_of_not_text text, distinctTokensFrom_of_not_text text, ih,
        List.filterMap_cons_none text, List.cons_append]
    | some s =>
      rw [List.filterMap_cons_some text]
      obtain rfl := Json.eq_string_of_string? text
      rw [distinctTokensFrom, distinctTokensFrom]
      split
      · next known =>
        rw [ih]
        congr 1
        refine distinctTokensFrom_congr (fun t => ?_) more
        rw [List.cons_append, List.mem_cons, List.mem_append]
        refine (or_iff_right_of_imp ?_).symm
        rintro rfl
        exact .inr (List.contains_iff_mem.1 known)
      · rw [ih, List.cons_append]
        congr 2
        refine distinctTokensFrom_congr (fun t => ?_) more
        simp only [List.mem_append, List.mem_cons, or_left_comm, or_assoc]

/-- A token at the end is dropped if it is a text that stands in front, and read otherwise. -/
theorem distinctTokens_concat (tokens : List Json) (token : Json) :
    (∃ s, token = .string s ∧ token ∈ tokens) ∧
        distinctTokens (tokens ++ [token]) = distinctTokens tokens ∨
      (∀ s, token = .string s → token ∉ tokens) ∧
        distinctTokens (tokens ++ [token]) = distinctTokens tokens ++ [token] := by
  rw [distinctTokens, distinctTokensFrom_append, distinctTokens, List.append_nil]
  cases text : token.string? with
  | none =>
    refine .inr ⟨?_, ?_⟩
    · rintro s rfl
      cases text
    · rw [distinctTokensFrom_of_not_text text]
      rfl
  | some s =>
    obtain rfl := Json.eq_string_of_string? text
    have old : s ∈ tokens.filterMap Json.string? ↔ .string s ∈ tokens := by
      rw [List.mem_filterMap]
      constructor
      · rintro ⟨other, mem, same⟩
        exact Json.eq_string_of_string? same ▸ mem
      · intro mem
        exact ⟨_, mem, rfl⟩
    rw [distinctTokensFrom]
    split
    · next known =>
      exact .inl ⟨⟨s, rfl, old.1 (List.contains_iff_mem.1 known)⟩, List.append_nil _⟩
    · next new =>
      exact .inr ⟨fun _ _ mem => new (List.contains_iff_mem.2 (old.2 mem)), rfl⟩

/-- The report on a token, if it is refused. -/
def reportOf (table : PropertyTable) (limits : InputLimits) (token : Json) : Option InvalidClass :=
  Batch.invalid? (readResult table limits token)

theorem reportOf_eq_some_iff {token : Json} {report : InvalidClass} :
    reportOf table limits token = some report ↔
      ∃ failure, UtilityClass.read table limits token = .error failure ∧
        report = .ofToken token failure := by
  rw [reportOf, readResult]
  cases UtilityClass.read table limits token with
  | ok c => simp [Batch.invalid?]
  | error failure => simp [Batch.invalid?, eq_comm]

theorem invalid_plainBatch (tokens : List Json) (stop : Option Nat) :
    (plainBatch table limits tokens stop).invalid =
      (distinctTokens (heard tokens stop)).filterMap (reportOf table limits) := by
  simp only [plainBatch, Batch.ofResults, List.filterMap_map]
  rfl

theorem exists_named_iff {tokens : List Json} {name : String} :
    name ∈ (tokens.filterMap (classOf table limits)).map (·.name) ↔
      ∃ token ∈ tokens, ∃ c, UtilityClass.read table limits token = .ok c ∧ c.name = name := by
  simp only [List.mem_map, List.mem_filterMap, classOf_eq_some_iff]
  constructor
  · rintro ⟨c, ⟨token, mem, read⟩, named⟩
    exact ⟨token, mem, c, read, named⟩
  · rintro ⟨token, mem, c, read, named⟩
    exact ⟨c, ⟨token, mem, read⟩, named⟩

/-- **The classes of a batch** are those of the accepted places, in their order. -/
theorem listsPlaces_parsed (tokens : List Json) :
    ListsPlaces (fun i c => ∃ token, tokens[i]? = some token ∧
        AcceptsNext table limits (tokens.take i) token c)
      (plainBatch table limits tokens none).parsed := by
  rw [parsed_plainBatch, heard]
  refine listsPlaces_of_concat
    (f := fun tokens => distinctBy (·.name) (tokens.filterMap (classOf table limits))) rfl
    (fun tokens token => ?_) tokens
  cases found : classOf table limits token with
  | none =>
    refine .inr ⟨fun c accepts => ?_, ?_⟩
    · rw [classOf_eq_some_iff.2 accepts.1] at found
      cases found
    · rw [List.filterMap_append, List.filterMap_cons_none found, List.filterMap_nil,
        List.append_nil]
  | some c =>
    have read := classOf_eq_some_iff.1 found
    rw [List.filterMap_append, List.filterMap_cons_some found, List.filterMap_nil, distinctBy,
      distinctFrom_concat]
    split
    · next old =>
      obtain ⟨other, mem, d, hd, same⟩ := exists_named_iff.1 (old.resolve_left List.not_mem_nil)
      refine .inr ⟨fun b accepts => ?_, List.append_nil _⟩
      obtain rfl := Except.ok.inj (accepts.1.symm.trans read)
      exact accepts.2 other mem d hd same
    · next new =>
      refine .inl ⟨c, ⟨read, fun other mem d hd same => ?_⟩, rfl⟩
      exact new (.inr (exists_named_iff.2 ⟨other, mem, d, hd, same⟩))

/-- **The reports of a batch** are those of the refused places, in their order. -/
theorem listsPlaces_invalid (tokens : List Json) :
    ListsPlaces (fun i report => ∃ token, tokens[i]? = some token ∧
        RefusesNext table limits (tokens.take i) token report)
      (plainBatch table limits tokens none).invalid := by
  rw [invalid_plainBatch]
  refine listsPlaces_of_concat
    (f := fun tokens => (distinctTokens tokens).filterMap (reportOf table limits)) rfl
    (fun tokens token => ?_) tokens
  rcases distinctTokens_concat tokens token with ⟨⟨s, text, mem⟩, same⟩ | ⟨new, grown⟩
  · rw [same]
    exact .inr ⟨fun report refuses => refuses.2 s text mem, rfl⟩
  · rw [grown, List.filterMap_append]
    cases found : reportOf table limits token with
    | none =>
      refine .inr ⟨fun report refuses => ?_, ?_⟩
      · rw [reportOf_eq_some_iff.2 refuses.1] at found
        cases found
      · rw [List.filterMap_cons_none found, List.filterMap_nil, List.append_nil]
    | some report =>
      refine .inl ⟨report, ⟨reportOf_eq_some_iff.1 found, new⟩, ?_⟩
      rw [List.filterMap_cons_some found, List.filterMap_nil]

/-! ## How many there are -/

theorem sublist_distinctTokensFrom (seen : List String) (tokens : List Json) :
    (distinctTokensFrom seen tokens).Sublist tokens := by
  induction tokens generalizing seen with
  | nil => exact List.Sublist.slnil
  | cons token tokens ih =>
    cases text : token.string? with
    | none =>
      rw [distinctTokensFrom_of_not_text text]
      exact (ih seen).cons_cons token
    | some s =>
      obtain rfl := Json.eq_string_of_string? text
      rw [distinctTokensFrom]
      split
      · exact (ih seen).cons _
      · exact (ih _).cons_cons _

/-- A token gives a class or a report. -/
theorem length_classes_add_reports (tokens : List Json) :
    (tokens.filterMap (classOf table limits)).length +
      (tokens.filterMap (reportOf table limits)).length = tokens.length := by
  induction tokens with
  | nil => rfl
  | cons token tokens ih =>
    rw [List.filterMap_cons, List.filterMap_cons, classOf, reportOf, readResult, List.length_cons]
    cases UtilityClass.read table limits token with
    | ok c =>
      simp only [Except.toOption, Batch.invalid?, List.length_cons]
      omega
    | error failure =>
      simp only [Except.toOption, Batch.invalid?, List.length_cons]
      omega

/-- There are no more classes and reports in a batch than tokens. -/
theorem length_plainBatch_le (tokens : List Json) (stop : Option Nat) :
    (plainBatch table limits tokens stop).parsed.length +
      (plainBatch table limits tokens stop).invalid.length ≤ tokens.length := by
  have classes : (plainBatch table limits tokens stop).parsed.length ≤
      ((distinctTokens (heard tokens stop)).filterMap (classOf table limits)).length := by
    simp only [plainBatch, Batch.ofResults, filterMap_class?]
    exact (sublist_distinctFrom _ _ _).length_le
  have both := @length_classes_add_reports table limits (distinctTokens (heard tokens stop))
  have fewer : (distinctTokens (heard tokens stop)).length ≤ tokens.length := by
    refine (sublist_distinctTokensFrom _ _).length_le.trans ?_
    cases stop with
    | none => exact Nat.le_refl _
    | some n => exact List.length_take_le' n tokens
  rw [invalid_plainBatch]
  omega

/-! ## The names of reports -/

/-- The name of a class starts with a letter or a digit, and it holds a bracket. -/
theorem name_of_read {token : Json} {c : UtilityClass}
    (h : UtilityClass.read table limits token = .ok c) :
    ∃ d rest, c.name.toList = d :: rest ∧ IsFrontChar d ∧ '[' ∈ rest := by
  obtain ⟨s, name, -, -, found⟩ := UtilityClass.read_eq_ok h
  obtain ⟨⟨names, named, whole⟩, ⟨d, cs, utility, letter, -⟩, -, -⟩ :=
    UtilityClass.isWritten_of_ofClean found
  rw [UtilityClass.name_of_ofClean found, whole, utility]
  cases front : Variants.front names with
  | nil =>
    refine ⟨d, cs ++ ['-', '['] ++ c.raw.toList ++ [']'], by simp, .inl ?_, by simp⟩
    simp [isAsciiNameChar, isAsciiAlphanumeric, letter]
  | cons e rest =>
    refine ⟨e, rest ++ (d :: cs ++ ['-', '['] ++ c.raw.toList ++ [']']), by simp, ?_, by simp⟩
    exact named.isFrontChar_front e (by simp [front])

/-- A value that is no text is not shown as the name of a class. -/
theorem literal_ne_name {token value : Json} {c : UtilityClass}
    (h : UtilityClass.read table limits token = .ok c) (noText : value.string? = none) :
    value.literal ≠ c.name := by
  obtain ⟨d, rest, whole, front, bracket⟩ := name_of_read h
  have bracketed : value.literal = c.name → '[' ∈ value.literal.toList := by
    intro same
    rw [same, whole]
    exact List.mem_cons_of_mem _ bracket
  have mark : ∀ e others, value.literal.toList = e :: others → ¬ IsFrontChar e →
      value.literal ≠ c.name := by
    intro e others starts other same
    rw [same, whole] at starts
    exact other ((List.cons.inj starts).1 ▸ front)
  cases value with
  | null => exact fun same => absurd (bracketed same) (by decide)
  | bool b => exact fun same => absurd (bracketed same) (by cases b <;> decide)
  | number n =>
    intro same
    have digits := Json.isNumberText_toText n '[' (bracketed same)
    exact absurd digits (by decide)
  | string s => cases noText
  | array items => exact mark '[' _ (by simp [Json.literal]; rfl) (by decide)
  | object fields => exact mark '\x7b' _ (by simp [Json.literal]; rfl) (by decide)

/-- No report of a batch has the name of a class. -/
theorem name_not_mem_invalid {tokens : List Json} {stop : Option Nat} {token : Json}
    {c : UtilityClass} (h : UtilityClass.read table limits token = .ok c) :
    c.name ∉ (plainBatch table limits tokens stop).invalid.map (·.className) := by
  intro mem
  obtain ⟨report, found, named⟩ := List.mem_map.1 mem
  -- the token of that report is shown like the class, and a text that is so would be read as it
  rw [invalid_plainBatch] at found
  obtain ⟨other, -, found⟩ := List.mem_filterMap.1 found
  obtain ⟨failure, refused, rfl⟩ := reportOf_eq_some_iff.1 found
  cases text : other.string? with
  | none =>
    refine literal_ne_name h text ?_
    rw [← named, ← tokenName_of_not_text text]
    rfl
  | some s =>
    obtain rfl := Json.eq_string_of_string? text
    have same : s = c.name := named
    rw [same, UtilityClass.read_name h] at refused
    cases refused

end Batch

/-! ## The names in a sheet -/

namespace Engine

variable {table : PropertyTable} {limits : InputLimits} {asked : SheetRequest → Prop}
  {e first : Engine}

/-- Every class has a rule or a report, also if its rule was kept. -/
theorem IsTraced.perm_names_buildEach (h : e.IsTraced table limits asked) (important : Bool)
    (classes : List UtilityClass) :
    ((e.buildEach important classes).2.1.map (·.className) ++
      (e.buildEach important classes).2.2.map (·.className)).Perm (classes.map (·.name)) := by
  induction classes generalizing e with
  | nil => exact List.Perm.nil
  | cons c rest ih =>
    obtain ⟨next, named⟩ := h.build c important
    have others := ih next
    rw [Engine.buildEach]
    rcases built : e.build c important with ⟨other, failure | rule⟩
    · rw [built] at others
      exact List.perm_middle.trans (others.cons c.name)
    · rw [built] at others named
      simp only [List.map_cons, named rule rfl]
      exact others.cons c.name

/-- **A sheet that is compiled names every class of its batch once**, and every refused token. -/
theorem IsTraced.perm_names_compile (h : e.IsTraced table limits asked) (options : SheetOptions)
    (tokens : List Json) (stop : Option Nat) :
    ((e.compile options tokens stop).2.rules.map (·.className) ++
        (e.compile options tokens stop).2.invalid.map (·.className)).Perm
      ((plainBatch table limits tokens stop).invalid.map (·.className) ++
        (plainBatch table limits tokens stop).valid) := by
  have batch := (h.parseTokens tokens stop).2
  have names := (h.parseTokens_spec tokens stop).perm_names_buildEach options.important
    (plainBatch table limits tokens stop).parsed
  simp only [Engine.compile, batch, Compilation.ofRules, List.map_append]
  exact (List.perm_append_comm_assoc _ _ _).trans (names.append_left _)

/-- The same holds of a sheet that was asked for and not kept before. -/
theorem IsTraced.perm_names_generate (h : e.IsTraced table limits asked) (options : SheetOptions)
    (tokens : List Json) (stop : Option Nat)
    (new : (e.generate options tokens stop).2.isCached = false) :
    ((e.generate options tokens stop).2.rules.map (·.className) ++
        (e.generate options tokens stop).2.invalid.map (·.className)).Perm
      ((plainBatch table limits tokens stop).invalid.map (·.className) ++
        (plainBatch table limits tokens stop).valid) ∧
      (e.generate options tokens stop).2.total = tokens.length ∧
      (e.generate options tokens stop).2.isCancelled =
        (plainBatch table limits tokens stop).isCancelled := by
  obtain ⟨keys, sound, ⟨sheet, -, served⟩ | ⟨-, next, sheet, made, served⟩⟩ :=
    e.generate_cases h.keys options tokens stop
  · rw [served] at new
    cases new
  · have traced := h.lookedUp sound (sheetKey options tokens)
    have names := traced.perm_names_compile options tokens stop
    have batch := (traced.parseTokens tokens stop).2
    have counted : ((e.lookedUp keys (sheetKey options tokens)).compile options tokens stop).2.total
          = tokens.length ∧
        ((e.lookedUp keys (sheetKey options tokens)).compile options tokens stop).2.isCancelled =
          (plainBatch table limits tokens stop).isCancelled := by
      simp only [Engine.compile, batch, Compilation.ofRules]
      exact ⟨rfl, trivial⟩
    rw [made] at names counted
    rw [served]
    exact ⟨names, counted⟩

/-- The tokens that a value gives: the words of a text, or the items of a list. -/
def classTokens? : Json → Option (List Json)
  | .string s => some ((textWords s).map .string)
  | .array items => some items
  | _ => none

theorem tokens_of_classTokens? {classes : Json} {tokens : List Json}
    (given : classTokens? classes = some tokens)
    (within : (tokens.length : Int) ≤ e.limits.requestSize) : e.tokens classes = .ok tokens := by
  cases classes with
  | string s =>
    obtain rfl := Option.some.inj given
    simp only [Engine.tokens, pure_bind, if_neg (Int.not_lt.2 within)]
    rfl
  | array items =>
    obtain rfl := Option.some.inj given
    rw [tokens_items, if_neg (Int.not_lt.2 within)]
  | _ => cases given

/-- **No token of a batch is lost or counted twice**, whatever the engine was used for before. A
batch that is not cancelled has the classes of the accepted places and the reports of the refused
places, in their order. In a sheet that is neither cancelled nor served from what was kept, the name
of every class that a token is read as is that of exactly one rule or report, and there are no more
rules and reports than tokens. -/
theorem account_of_run {settings : CacheSettings} {isSweeping : Bool}
    (hfirst : ofSettings limits settings table isSweeping = .ok first) (events : List EngineEvent)
    {classes : Json} {tokens : List Json} (given : classTokens? classes = some tokens)
    (within : (tokens.length : Int) ≤ limits.requestSize) (stop : Option Nat) :
    (∃ batch, ((first.run events).parseMany classes stop).2 = .ok batch ∧
      batch.total = tokens.length ∧ (batch.isCancelled = false →
        ListsPlaces (fun i c => ∃ token, tokens[i]? = some token ∧
          AcceptsNext table limits (tokens.take i) token c) batch.parsed ∧
        ListsPlaces (fun i report => ∃ token, tokens[i]? = some token ∧
          RefusesNext table limits (tokens.take i) token report) batch.invalid)) ∧
    ∀ options settled, SheetOptions.ofJson options = .ok settled →
      ∃ sheet, ((first.run events).answer classes options stop).2 = .ok sheet ∧
        (sheet.isCancelled = false → sheet.isCached = false →
          (∀ token ∈ tokens, ∀ c, UtilityClass.read table limits token = .ok c →
            (sheet.rules.map (·.className)).count c.name +
              (sheet.invalid.map (·.className)).count c.name = 1) ∧
          sheet.total = tokens.length ∧
          sheet.rules.length + sheet.invalid.length ≤ sheet.total) := by
  have traced := (isTraced_ofSettings hfirst fun _ => True).run events
  have htokens : (first.run events).tokens classes = .ok tokens :=
    tokens_of_classTokens? given (by rwa [traced.limits_eq])
  have complete : (plainBatch table limits tokens stop).isCancelled = false →
      plainBatch table limits tokens stop = plainBatch table limits tokens none := by
    intro running
    have compiled : (plainCompile table limits .default tokens stop).isCancelled = false := running
    exact plainBatch_of_not_cancelled compiled
  constructor
  · have batch := (traced.toIsReading.parseTokens tokens stop).2
    refine ⟨plainBatch table limits tokens stop, ?_, rfl, fun running => ?_⟩
    · simp only [parseMany, htokens, batch]
    · rw [complete running]
      exact ⟨listsPlaces_parsed tokens, listsPlaces_invalid tokens⟩
  · intro options settled hoptions
    refine ⟨((first.run events).generate settled tokens stop).2, ?_, fun running new => ?_⟩
    · rw [answer_of_ok hoptions htokens]
    · obtain ⟨names, total, cancelled⟩ := traced.perm_names_generate settled tokens stop new
      rw [running] at cancelled
      rw [complete cancelled.symm] at names
      refine ⟨fun token mem c read => ?_, total, ?_⟩
      · have one : (plainBatch table limits tokens none).valid.count c.name = 1 := by
          refine List.count_eq_one_of_mem (nodup_valid tokens none) ?_
          exact List.mem_map_of_mem (mem_parsed.2 ⟨token, mem, read⟩)
        rw [← List.count_append, names.count_eq, List.count_append, one,
          List.count_eq_zero_of_not_mem (name_not_mem_invalid read)]
      · have lengths := names.length_eq
        have fewer := @length_plainBatch_le table limits tokens none
        simp only [List.length_append, List.length_map, Batch.valid] at lengths
        rw [total]
        omega

section Example

/-- A value that is no text and a text that is no class, each twice, a class in two writings, and a
class whose value would end its rule. -/
def mixedTokens : List Json :=
  [.null, .string " p-[1px]", .string "nope", .string "p-[1px]", .null, .string "nope",
    .string semicolonName]

/-- Seven tokens on a new engine. -/
theorem account_of_run_mixed : ∃ first batch sheet c,
    ofSettings .standard .standard .standard true = .ok first ∧
      ((first.run []).parseMany (.array mixedTokens) none).2 = .ok batch ∧ batch.total = 7 ∧
      ListsPlaces (fun i c => ∃ token, mixedTokens[i]? = some token ∧
        AcceptsNext .standard .standard (mixedTokens.take i) token c) batch.parsed ∧
      ((first.run []).answer (.array mixedTokens) .null none).2 = .ok sheet ∧
      UtilityClass.read .standard .standard (.string "p-[1px]") = .ok c ∧
      (sheet.rules.map (·.className)).count c.name +
        (sheet.invalid.map (·.className)).count c.name = 1 ∧
      sheet.rules.length + sheet.invalid.length ≤ 7 := by
  obtain ⟨first, made⟩ : ∃ first, ofSettings .standard .standard .standard true = .ok first :=
    ⟨_, rfl⟩
  obtain ⟨c, read, -⟩ := isOwnName_twoNames "p-[1px]" (by decide)
  have given : classTokens? (.array mixedTokens) = some mixedTokens := rfl
  have within : (mixedTokens.length : Int) ≤ InputLimits.standard.requestSize := by decide
  have limit := (sound_ofSettings made fun _ => False).1.limits_eq
  have htokens : first.tokens (.array mixedTokens) = .ok mixedTokens :=
    tokens_of_classTokens? given (by rwa [limit])
  obtain ⟨⟨batch, checked, total, places⟩, sheets⟩ := account_of_run made [] given within none
  obtain ⟨sheet, answered, counts⟩ := sheets .null .default rfl
  have running : batch.isCancelled = false := by
    rw [Except.ok.inj (checked.symm.trans (parseMany_of_run made [] htokens))]
    rfl
  have compiled : sheet = plainCompile .standard .standard .default mixedTokens none := by
    have plain : ((first.run []).answer (.array mixedTokens) .null none).2 =
        .ok (plainCompile .standard .standard .default mixedTokens none) := by
      rw [show first.run [] = first from rfl, answer_of_ok rfl htokens, generate_of_new made]
    exact Except.ok.inj (answered.symm.trans plain)
  obtain ⟨named, all, fewer⟩ := counts (by rw [compiled]; rfl) (by rw [compiled]; rfl)
  refine ⟨first, batch, sheet, c, made, checked, total, (places running).1, answered, read, ?_, ?_⟩
  · exact named (.string "p-[1px]") (by simp [mixedTokens]) c read
  · exact fewer.trans_eq all

end Example

end Engine

end BracketCss
