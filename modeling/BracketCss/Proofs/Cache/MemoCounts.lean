import BracketCss.Proofs.Cache.MemoLedger
import Mathlib.Logic.Function.Basic

/-!
# The counts of a memo apart from its keys

A memo can keep its counts of use in one table for all kinds, apart from the tables of keys. Such a
memo has to pair the two: a key that is held without a count cannot be asked for again, and a count
without a key is never forgotten. It never comes to either, and it gives the answers of the memo
whose entries bear their own counts.

## Main definitions

* `SplitMemo`: a memo with a table of counts of its own
* `KeyMemo.split`: the counts of a memo set apart from its keys

## Main results

* `split_remember`: a question to one memo and to the other
* `split_run`: a history of both
* `books_of_run`: answers, bounds, counts and books of a memo after any history
-/

namespace BracketCss

/-- A memo whose counts of use stand apart from its keys. -/
@[ext] structure SplitMemo where
  /-- The greatest number of keys of one kind. -/
  capacity : Nat
  /-- The share of a full table that goes at once. -/
  fraction : Decimal
  /-- What the keys of a kind were built from, and the keys, the oldest first. -/
  keys : KeyKind → List (String × String)
  /-- How often a key was asked for. -/
  counts : KeyKind → String → Option Nat
  /-- Questions for a key that was there. -/
  hits : KeyKind → Nat
  /-- Questions for a key that had to be built. -/
  misses : KeyKind → Nat
  /-- All questions so far. -/
  accesses : Nat
  /-- The keys that gave way to new ones. -/
  evictions : Nat

namespace SplitMemo

/-- A memo without keys and counts. -/
def empty (capacity : Nat) (fraction : Decimal) : SplitMemo :=
  ⟨capacity, fraction, fun _ => [], fun _ _ => none, fun _ => 0, fun _ => 0, 0, 0⟩

/-- The key of a text. -/
def key? (memo : SplitMemo) (kind : KeyKind) (lookup : String) : Option String :=
  ((memo.keys kind).find? fun entry => entry.1 == lookup).map (·.2)

/-- How often a key was asked for, as far as it was counted. -/
def uses (memo : SplitMemo) (kind : KeyKind) (lookup : String) : Nat :=
  (memo.counts kind lookup).getD 0

/-- The memo with a count. -/
def setCount (memo : SplitMemo) (kind : KeyKind) (lookup : String) (count : Nat) : SplitMemo :=
  { memo with
    counts := Function.update memo.counts kind
      (Function.update (memo.counts kind) lookup (some count)) }

/-- The memo without some keys of a kind and without their counts. -/
def forget (memo : SplitMemo) (kind : KeyKind) (gone : List String) : SplitMemo :=
  { memo with
    keys := Function.update memo.keys kind
      ((memo.keys kind).filter fun entry => !gone.contains entry.1)
    counts := Function.update memo.counts kind fun lookup =>
      if gone.contains lookup then none else memo.counts kind lookup }

/-- The texts of the `count` least used keys of a kind, the oldest of equally used ones first. -/
def coldest (memo : SplitMemo) (kind : KeyKind) (count : Nat) : List String :=
  (((memo.keys kind).mergeSort fun a b =>
    decide (memo.uses kind a.1 ≤ memo.uses kind b.1)).take count).map (·.1)

/-- The memo without the share of keys that goes at once. -/
def evict (memo : SplitMemo) (kind : KeyKind) : SplitMemo :=
  let gone := memo.coldest kind (max 1 (truncatedProduct (memo.keys kind).length memo.fraction))
  { memo.forget kind gone with evictions := memo.evictions + gone.length }

/-- The memo after a question for a key that it does not hold, with room for it. -/
def missed (memo : SplitMemo) (kind : KeyKind) : SplitMemo :=
  let memo := { memo with misses := Function.update memo.misses kind (memo.misses kind + 1) }
  if (memo.keys kind).length < memo.capacity then memo else memo.evict kind

/-- The memo with a new key, counted once. -/
def add (memo : SplitMemo) (kind : KeyKind) (lookup key : String) : SplitMemo :=
  { memo.setCount kind lookup 1 with
    keys := Function.update memo.keys kind (memo.keys kind ++ [(lookup, key)]) }

/-- The key of a text, built by `build` if it is not held. It fails if a key is held that has no
count, or if building fails. -/
def remember (memo : SplitMemo) (kind : KeyKind) (lookup : String)
    (build : SplitMemo → Option (SplitMemo × String)) : Option (SplitMemo × String) :=
  let memo := { memo with accesses := memo.accesses + 1 }
  match memo.key? kind lookup with
  | some key => do
    let count ← memo.counts kind lookup
    return ({ memo.setCount kind lookup (count + 1) with
      hits := Function.update memo.hits kind (memo.hits kind + 1) }, key)
  | none => do
    let (memo, key) ← build (memo.missed kind)
    return (memo.add kind lookup key, key)

/-- The digest of a text. -/
def hashOf (memo : SplitMemo) (text : String) : Option (SplitMemo × String) :=
  memo.remember .hash text fun memo => some (memo, Digest.short text)

/-- The key of a class name. -/
def parseKey (memo : SplitMemo) (name : String) : Option (SplitMemo × String) :=
  memo.remember .parse name fun memo => some (memo, CacheKey.parse name)

/-- The key of a sheet, from its tokens and its options. -/
def generationKey (memo : SplitMemo) (tokens : List Json) (options : Json) :
    Option (SplitMemo × String) :=
  let tokensText := CacheKey.tokensText tokens
  let optionsText := Json.canonical options
  memo.remember .generation (CacheKey.pair tokensText optionsText) fun memo => do
    let (memo, tokensDigest) ← memo.hashOf tokensText
    let (memo, optionsDigest) ← memo.hashOf optionsText
    return (memo, CacheKey.generation tokensDigest optionsDigest)

/-- The key of a rule, from its selector and its declarations. -/
def ruleKey (memo : SplitMemo) (selector : String) (declarations : Json) :
    Option (SplitMemo × String) :=
  let declarationsText := Json.canonical declarations
  memo.remember .rule (CacheKey.pair selector declarationsText) fun memo => do
    let (memo, digest) ← memo.hashOf declarationsText
    return (memo, CacheKey.rule selector digest)

/-- The number of keys of all kinds. -/
def size (memo : SplitMemo) : Nat := (KeyKind.all.map fun kind => (memo.keys kind).length).sum

/-- The texts of the keys of a kind that were not used often enough. -/
def cold (memo : SplitMemo) (kind : KeyKind) : List String :=
  ((memo.keys kind).filter fun entry =>
    decide (memo.uses kind entry.1 < 1) ||
      decide (memo.uses kind entry.1 * (memo.size * 10) < memo.accesses)).map (·.1)

/-- Forgets the keys that were not used often enough. -/
def optimize (memo : SplitMemo) : SplitMemo :=
  KeyKind.all.foldl (fun kept kind => kept.forget kind (memo.cold kind)) memo

/-- Forgets all keys and all counts. -/
def clear (memo : SplitMemo) : SplitMemo :=
  { memo with keys := fun _ => [], counts := fun _ _ => none }

/-- The memo after an event, and the key it answers with. -/
def answer (memo : SplitMemo) : MemoEvent → Option (SplitMemo × Option String)
  | .hash text => (memo.hashOf text).map (.map id some)
  | .parseKey name => (memo.parseKey name).map (.map id some)
  | .generationKey tokens options => (memo.generationKey tokens options).map (.map id some)
  | .ruleKey selector declarations => (memo.ruleKey selector declarations).map (.map id some)
  | .optimize => some (memo.optimize, none)
  | .clear => some (memo.clear, none)

/-- The memo after a history, if no event of it fails. -/
def run (memo : SplitMemo) (events : List MemoEvent) : Option SplitMemo :=
  events.foldlM (fun memo event => (memo.answer event).map (·.1)) memo

end SplitMemo

/-! ## Setting the counts apart -/

namespace MemoTable

variable {table : MemoTable} {lookup : String} {entry : MemoEntry}

/-- The keys of a table without their counts. -/
def pairs (table : MemoTable) : List (String × String) :=
  table.entries.map fun entry => (entry.lookup, entry.key)

/-- The counts of a table. -/
def counts (table : MemoTable) (lookup : String) : Option Nat :=
  (table.find? lookup).map (·.uses)

theorem pairs_touch (table : MemoTable) (lookup : String) :
    (table.touch lookup).pairs = table.pairs := by
  simp only [pairs, touch, List.map_map]
  refine List.map_congr_left fun entry _ => ?_
  simp only [Function.comp_apply]
  split <;> rfl

theorem pairs_add (table : MemoTable) (lookup key : String) :
    (table.add lookup key).pairs = table.pairs ++ [(lookup, key)] := by simp [pairs, add]

/-- Using a key again changes its own count only. -/
theorem counts_touch (found : table.find? lookup = some entry) :
    (table.touch lookup).counts =
      Function.update table.counts lookup (some (entry.uses + 1)) := by
  funext other
  have keeps : ((fun old : MemoEntry => old.lookup == other) ∘ fun old : MemoEntry =>
      if old.lookup == lookup then { old with uses := old.uses + 1 } else old) =
        fun old => old.lookup == other := by
    funext old
    simp only [Function.comp_apply]
    split <;> rfl
  simp only [counts, find?, touch, List.find?_map, keeps, Option.map_map]
  by_cases same : other = lookup
  · subst same
    have named : entry.lookup = other := by simpa using List.find?_some found
    simp only [find?] at found
    simp [found, named]
  · rw [Function.update_of_ne same]
    refine Option.map_congr fun old hold => ?_
    have named : old.lookup = other := by simpa using List.find?_some hold
    simp [named, same]

theorem counts_add (absent : lookup ∉ table.lookups) (key : String) :
    (table.add lookup key).counts = Function.update table.counts lookup (some 1) := by
  funext other
  rw [← find?_eq_none_iff] at absent
  simp only [find?] at absent
  by_cases same : other = lookup
  · simp [counts, find?, add, List.find?_append, same, absent]
  · simp [counts, find?, add, List.find?_append, same, beq_eq_false_iff_ne.2 (Ne.symm same)]

/-- What goes takes its count with it. -/
theorem counts_filter (table : MemoTable) (gone : List String) (lookup : String) :
    ({ table with entries := table.entries.filter (!gone.contains ·.lookup) } :
        MemoTable).counts lookup =
      if gone.contains lookup then none else table.counts lookup := by
  have keeps : (fun entry : MemoEntry =>
      decide ((!gone.contains entry.lookup) = true ∧ (entry.lookup == lookup) = true)) =
        fun entry => !gone.contains lookup && entry.lookup == lookup := by
    funext entry
    by_cases same : entry.lookup = lookup <;> simp [same]
  simp only [counts, find?, List.find?_filter, keeps]
  cases gone.contains lookup <;> simp

theorem counts_of_mem (distinct : table.lookups.Nodup) (mem : entry ∈ table.entries) :
    table.counts entry.lookup = some entry.uses := by
  rw [counts, (find?_eq_some_iff distinct).2 ⟨mem, rfl⟩, Option.map_some]

end MemoTable

namespace KeyMemo

variable {memo : KeyMemo} {kind : KeyKind} {lookup : String} {capacity : Nat}

/-- The counts of a memo set apart from its keys. -/
def split (memo : KeyMemo) : SplitMemo where
  capacity := memo.capacity
  fraction := memo.fraction
  keys kind := (memo.table kind).pairs
  counts kind := (memo.table kind).counts
  hits kind := (memo.table kind).hits
  misses kind := (memo.table kind).misses
  accesses := memo.accesses
  evictions := memo.evictions

@[simp] theorem keys_split (memo : KeyMemo) (kind : KeyKind) :
    memo.split.keys kind = (memo.table kind).pairs := rfl

@[simp] theorem counts_split (memo : KeyMemo) (kind : KeyKind) :
    memo.split.counts kind = (memo.table kind).counts := rfl

theorem comp_table_setTable {β : Type} (f : MemoTable → β) (memo : KeyMemo) (kind : KeyKind)
    (table : MemoTable) :
    (fun other => f ((memo.setTable kind table).table other)) =
      Function.update (fun other => f (memo.table other)) kind (f table) := by
  funext other
  by_cases same : other = kind
  · rw [same, table_setTable_self, Function.update_self]
  · rw [table_setTable_of_ne same, Function.update_of_ne same]

theorem split_setTable (memo : KeyMemo) (kind : KeyKind) (table : MemoTable) :
    (memo.setTable kind table).split =
      { memo.split with
        keys := Function.update memo.split.keys kind table.pairs
        counts := Function.update memo.split.counts kind table.counts
        hits := Function.update memo.split.hits kind table.hits
        misses := Function.update memo.split.misses kind table.misses } := by
  refine SplitMemo.ext (capacity_setTable ..) ?_ (comp_table_setTable MemoTable.pairs ..)
    (comp_table_setTable MemoTable.counts ..) (comp_table_setTable MemoTable.hits ..)
    (comp_table_setTable MemoTable.misses ..) (accesses_setTable ..) ?_
  · cases kind <;> rfl
  · cases kind <;> rfl

theorem key?_split (memo : KeyMemo) (kind : KeyKind) (lookup : String) :
    memo.split.key? kind lookup = ((memo.table kind).find? lookup).map (·.key) := by
  simp [SplitMemo.key?, split, MemoTable.pairs, MemoTable.find?, List.find?_map,
    Function.comp_def]

theorem uses_split (distinct : (memo.table kind).lookups.Nodup) {entry : MemoEntry}
    (mem : entry ∈ (memo.table kind).entries) :
    memo.split.uses kind entry.lookup = entry.uses := by
  rw [SplitMemo.uses, counts_split, MemoTable.counts_of_mem distinct mem, Option.getD_some]

/-- The coldest keys are the same, whether their counts stand beside them or apart. -/
theorem coldest_split (distinct : (memo.table kind).lookups.Nodup) (count : Nat) :
    memo.split.coldest kind count =
      ((MemoTable.coldest (memo.table kind).entries).take count).map (·.lookup) := by
  have order := List.map_mergeSort (f := fun entry : MemoEntry => (entry.lookup, entry.key))
    (r := fun a b => decide (a.uses ≤ b.uses))
    (s := fun a b => decide (memo.split.uses kind a.1 ≤ memo.split.uses kind b.1))
    (l := (memo.table kind).entries) fun a ha b hb => by
      rw [uses_split distinct ha, uses_split distinct hb]
  rw [SplitMemo.coldest, keys_split, MemoTable.pairs, ← order, ← List.map_take, List.map_map]
  rfl

theorem split_evictions (memo : KeyMemo) (count : Nat) :
    ({ memo with evictions := count } : KeyMemo).split =
      { memo.split with evictions := count } := rfl

/-- A table changes in its keys and counts only. -/
theorem split_setTable_entries (memo : KeyMemo) (kind : KeyKind) (entries : List MemoEntry) :
    (memo.setTable kind { memo.table kind with entries := entries }).split =
      { memo.split with
        keys := Function.update memo.split.keys kind
          (MemoTable.pairs { memo.table kind with entries := entries })
        counts := Function.update memo.split.counts kind
          (MemoTable.counts { memo.table kind with entries := entries }) } := by
  rw [split_setTable]
  exact SplitMemo.ext rfl rfl rfl rfl (Function.update_eq_self ..) (Function.update_eq_self ..)
    rfl rfl

/-- Keys that go take their counts along. -/
theorem split_forget (memo : KeyMemo) (kind : KeyKind) (gone : List String) :
    (memo.setTable kind { memo.table kind with
      entries := (memo.table kind).entries.filter (!gone.contains ·.lookup) }).split =
      memo.split.forget kind gone := by
  rw [split_setTable_entries]
  refine SplitMemo.ext rfl rfl (congrArg (Function.update memo.split.keys kind) ?_)
    (congrArg (Function.update memo.split.counts kind) ?_) rfl rfl rfl rfl
  · rw [keys_split, MemoTable.pairs, MemoTable.pairs, List.filter_map]
    rfl
  · exact funext fun lookup => MemoTable.counts_filter ..

/-- Evicting is the same, whether counts stand beside keys or apart. -/
theorem split_cooled (distinct : (memo.table kind).lookups.Nodup) :
    ({ memo.setTable kind (memo.cooled kind) with
      evictions := memo.evictions +
        ((memo.table kind).entries.length - (memo.cooled kind).entries.length) } : KeyMemo).split =
      memo.split.evict kind := by
  have fewer : (memo.cooled kind).entries.length =
      (memo.table kind).entries.length - memo.evictionCount (memo.table kind).entries.length :=
    MemoTable.length_dropColdest distinct _
  have gone : memo.split.coldest kind
      (max 1 (truncatedProduct (memo.split.keys kind).length memo.split.fraction)) =
        ((MemoTable.coldest (memo.table kind).entries).take
          (memo.evictionCount (memo.table kind).entries.length)).map (·.lookup) := by
    rw [coldest_split distinct, keys_split, MemoTable.pairs, List.length_map]
    rfl
  rw [split_evictions, fewer, SplitMemo.evict]
  dsimp only
  rw [gone, ← split_forget, List.length_map, List.length_take, MemoTable.coldest,
    List.length_mergeSort, Nat.sub_sub_eq_min, Nat.min_comm]
  rfl

theorem split_makeRoom (distinct : (memo.table kind).lookups.Nodup) :
    (memo.makeRoom kind).split =
      if (memo.split.keys kind).length < memo.split.capacity then memo.split
      else memo.split.evict kind := by
  have long : (memo.split.keys kind).length = (memo.table kind).entries.length :=
    List.length_map ..
  rcases memo.makeRoom_cases kind with ⟨room, made⟩ | ⟨full, made⟩ <;> rw [made]
  · rw [if_pos (long ▸ room)]
  · rw [if_neg (by rw [long]; exact Nat.not_lt.2 full), split_cooled distinct]

theorem split_missed (distinct : (memo.table kind).lookups.Nodup) :
    (memo.missed kind).split = memo.split.missed kind := by
  have counted : (memo.setTable kind
      { memo.table kind with misses := (memo.table kind).misses + 1 }).split =
        { memo.split with
          misses := Function.update memo.split.misses kind (memo.split.misses kind + 1) } := by
    rw [split_setTable]
    exact SplitMemo.ext rfl rfl (Function.update_eq_self ..) (Function.update_eq_self ..)
      (Function.update_eq_self ..) rfl rfl rfl
  rw [missed, split_makeRoom, counted, SplitMemo.missed]
  rwa [table_setTable_self]

/-- Using a key again adds to its count. -/
theorem split_touch {entry : MemoEntry} (found : (memo.table kind).find? lookup = some entry) :
    (memo.setTable kind ((memo.table kind).touch lookup)).split =
      { memo.split.setCount kind lookup (entry.uses + 1) with
        hits := Function.update memo.split.hits kind (memo.split.hits kind + 1) } := by
  rw [split_setTable, MemoTable.pairs_touch, MemoTable.counts_touch found]
  exact SplitMemo.ext rfl rfl (Function.update_eq_self ..) rfl rfl (Function.update_eq_self ..)
    rfl rfl

/-- A new key is counted once. -/
theorem split_add (absent : lookup ∉ (memo.table kind).lookups) (key : String) :
    (memo.setTable kind ((memo.table kind).add lookup key)).split =
      memo.split.add kind lookup key := by
  rw [split_setTable, MemoTable.pairs_add, MemoTable.counts_add absent]
  exact SplitMemo.ext rfl rfl rfl rfl (Function.update_eq_self ..) (Function.update_eq_self ..)
    rfl rfl

/-- **A question to one memo and to the other.** If a key that has to be built is built by both
alike, then both give the same key, and what they hold is the same. -/
theorem split_remember (h : memo.IsKept capacity) (kind : KeyKind) (lookup : String)
    {build : KeyMemo → KeyMemo × String} {other : SplitMemo → Option (SplitMemo × String)}
    (alike : ∀ memo : KeyMemo, memo.IsKept capacity →
      (build memo).1.table kind = memo.table kind ∧
        other memo.split = some ((build memo).1.split, (build memo).2)) :
    memo.split.remember kind lookup other =
      some ((memo.remember kind lookup build).1.split, (memo.remember kind lookup build).2) := by
  have asked : ({ memo.split with accesses := memo.split.accesses + 1 } : SplitMemo) =
      memo.ask.split := rfl
  rw [SplitMemo.remember, asked, key?_split]
  dsimp only
  rcases memo.remember_cases kind lookup build with ⟨entry, found, h'⟩ | ⟨absent, h'⟩ <;> rw [h']
  · rw [← table_ask] at found
    have touched := split_touch found
    have count : memo.ask.split.counts kind lookup = some entry.uses := by
      rw [counts_split, MemoTable.counts, found, Option.map_some]
    rw [table_ask] at touched
    rw [found, touched]
    simp only [Option.map_some, count, Option.bind_eq_bind, Option.bind_some]
    rfl
  · obtain ⟨kept, -, fewer⟩ := h.missed kind
    obtain ⟨same, built⟩ := alike _ kept
    have distinct : (memo.ask.table kind).lookups.Nodup := by
      rw [table_ask]
      exact (h.tables kind).distinct
    have new : lookup ∉ ((build (memo.ask.missed kind)).1.table kind).lookups := by
      rw [same]
      exact fun mem => MemoTable.find?_eq_none_iff.1 absent (fewer mem)
    rw [table_ask, absent, split_add new]
    simp only [Option.map_none, ← split_missed distinct, built, Option.bind_eq_bind,
      Option.bind_some]
    rfl

/-! ## Histories -/

theorem split_hashOf (h : memo.IsKept capacity) (text : String) :
    memo.split.hashOf text = some ((memo.hashOf text).1.split, (memo.hashOf text).2) :=
  split_remember h .hash text fun _ _ => ⟨rfl, rfl⟩

theorem split_parseKey (h : memo.IsKept capacity) (name : String) :
    memo.split.parseKey name = some ((memo.parseKey name).1.split, (memo.parseKey name).2) :=
  split_remember h .parse name fun _ _ => ⟨rfl, rfl⟩

theorem split_generationKey (h : memo.IsKept capacity) (tokens : List Json) (options : Json) :
    memo.split.generationKey tokens options =
      some ((memo.generationKey tokens options).1.split,
        (memo.generationKey tokens options).2) := by
  simp only [SplitMemo.generationKey, generationKey]
  refine split_remember h .generation _ fun other kept => ?_
  dsimp only
  refine ⟨?_, ?_⟩
  · rw [table_hashOf _ _ (by decide), table_hashOf _ _ (by decide)]
  · rw [split_hashOf kept]
    simp only [Option.bind_eq_bind, Option.bind_some]
    rw [split_hashOf (kept.hashOf _)]
    rfl

theorem split_ruleKey (h : memo.IsKept capacity) (selector : String) (declarations : Json) :
    memo.split.ruleKey selector declarations =
      some ((memo.ruleKey selector declarations).1.split,
        (memo.ruleKey selector declarations).2) := by
  simp only [SplitMemo.ruleKey, ruleKey]
  refine split_remember h .rule _ fun other kept => ⟨table_hashOf _ _ (by decide), ?_⟩
  rw [split_hashOf kept]
  rfl

theorem size_split (memo : KeyMemo) : memo.split.size = memo.size := by
  simp only [SplitMemo.size, size, KeyKind.all, keys_split, MemoTable.pairs, List.length_map,
    List.map_cons, List.map_nil, List.sum_cons, List.sum_nil, List.foldl_cons, List.foldl_nil]
  omega

theorem mem_cold_iff (distinct : (memo.table kind).lookups.Nodup) {entry : MemoEntry}
    (mem : entry ∈ (memo.table kind).entries) :
    entry.lookup ∈ memo.split.cold kind ↔
      entry.uses < 1 ∨ entry.uses * (memo.size * 10) < memo.accesses := by
  simp only [SplitMemo.cold, size_split, keys_split, MemoTable.pairs, List.mem_map,
    List.mem_filter, Bool.or_eq_true, decide_eq_true_eq]
  constructor
  · rintro ⟨_, ⟨⟨other, hother, rfl⟩, few⟩, same⟩
    rw [List.inj_on_of_nodup_map distinct hother mem same, uses_split distinct mem] at few
    exact few
  · intro few
    rw [← uses_split distinct mem] at few
    exact ⟨_, ⟨⟨entry, mem, rfl⟩, few⟩, rfl⟩

/-- The keys that are used often enough are the same for both. -/
theorem wellUsed_eq_filter (distinct : (memo.table kind).lookups.Nodup) :
    memo.wellUsed (memo.table kind).entries =
      (memo.table kind).entries.filter (!(memo.split.cold kind).contains ·.lookup) := by
  refine List.filter_congr fun entry mem => Bool.eq_iff_iff.2 ?_
  rw [Bool.not_eq_true', List.contains_eq_mem, decide_eq_false_iff_not, mem_cold_iff distinct mem,
    Bool.and_eq_true, decide_eq_true_iff, decide_eq_true_iff]
  omega

theorem keys_optimize (memo : SplitMemo) (kind : KeyKind) :
    memo.optimize.keys kind = (memo.keys kind).filter (!(memo.cold kind).contains ·.1) := by
  cases kind <;> rfl

theorem counts_optimize (memo : SplitMemo) (kind : KeyKind) (lookup : String) :
    memo.optimize.counts kind lookup =
      if (memo.cold kind).contains lookup then none else memo.counts kind lookup := by
  cases kind <;> rfl

theorem split_optimize (h : memo.IsKept capacity) :
    memo.optimize.1.split = memo.split.optimize := by
  have tables (kind : KeyKind) : memo.optimize.1.table kind = { memo.table kind with
      entries := (memo.table kind).entries.filter
        (!(memo.split.cold kind).contains ·.lookup) } := by
    rw [← wellUsed_eq_filter (h.tables kind).distinct, ← table_mapEntries]
    rfl
  refine SplitMemo.ext rfl rfl (funext fun kind => ?_) (funext fun kind => funext fun lookup => ?_)
    ?_ ?_ rfl rfl
  · rw [keys_optimize, keys_split, keys_split, tables, MemoTable.pairs, MemoTable.pairs,
      List.filter_map]
    rfl
  · rw [counts_optimize, counts_split, counts_split, tables, MemoTable.counts_filter]
  · funext kind; cases kind <;> rfl
  · funext kind; cases kind <;> rfl

theorem split_clear (memo : KeyMemo) : memo.clear.split = memo.split.clear := by
  refine SplitMemo.ext rfl rfl ?_ ?_ ?_ ?_ rfl rfl <;> funext kind <;> cases kind <;> rfl

/-- One event of both memos: the same answer, and the same is held. -/
theorem split_answer (h : memo.IsKept capacity) (event : MemoEvent) :
    memo.split.answer event = some ((memo.answer event).1.split, (memo.answer event).2) := by
  cases event with
  | hash text => rw [SplitMemo.answer, split_hashOf h]; rfl
  | parseKey name => rw [SplitMemo.answer, split_parseKey h]; rfl
  | generationKey tokens options => rw [SplitMemo.answer, split_generationKey h]; rfl
  | ruleKey selector declarations => rw [SplitMemo.answer, split_ruleKey h]; rfl
  | optimize => rw [SplitMemo.answer, ← split_optimize h]; rfl
  | clear => rw [SplitMemo.answer, ← split_clear]; rfl

/-- **A history of both memos**: setting the counts apart never fails, and what is held is the
same. -/
theorem split_run (h : memo.IsKept capacity) (events : List MemoEvent) :
    memo.split.run events = some (memo.run events).split := by
  induction events generalizing memo with
  | nil => rfl
  | cons event events ih =>
    rw [SplitMemo.run, List.foldlM_cons, split_answer h]
    exact ih (h.answer event)

theorem split_ofLimits {bound : Int} {fraction : Json.Number}
    (h : ofLimits bound fraction = .ok memo) :
    memo.split = .empty bound.toNat fraction.toDecimal := by
  simp only [ofLimits] at h
  split at h
  · cases h
  · split at h
    · cases h
    · obtain rfl := Except.ok.inj h
      refine SplitMemo.ext rfl rfl ?_ ?_ ?_ ?_ rfl rfl <;> funext kind <;> cases kind <;> rfl

/-- **Answers, bounds, counts and books of a memo.** After any history every request is answered
with the key that is built without a memo. No kind has more keys than the bound, and no two of them
for one text. If counts stand apart from keys, the answers and the keys are the same, and a text has
a count if and only if its key is held; that count is positive. All questions are hits or misses,
those included that are asked to build a key. -/
theorem books_of_run {bound : Int} {fraction : Json.Number} {first : KeyMemo}
    (h : ofLimits bound fraction = .ok first) (events : List MemoEvent) :
    let memo := first.run events
    (∀ event, (memo.answer event).2 = event.plainKey?) ∧
      (∀ kind, ((memo.table kind).entries.length : Int) ≤ bound ∧
        (memo.table kind).lookups.Nodup) ∧
      (∃ apart, (SplitMemo.empty bound.toNat fraction.toDecimal).run events = some apart ∧
        (∀ event, (apart.answer event).map (·.2) = some event.plainKey?) ∧
        (∀ kind, apart.keys kind = (memo.table kind).pairs) ∧
        ∀ kind lookup,
          (lookup ∈ (memo.table kind).lookups → 1 ≤ memo.uses kind lookup ∧
            apart.counts kind lookup = some (memo.uses kind lookup)) ∧
          (lookup ∉ (memo.table kind).lookups → memo.uses kind lookup = 0 ∧
            apart.counts kind lookup = none)) ∧
      memo.accesses = memo.questions ∧
      ∀ event, (memo.answer event).1.accesses = memo.accesses + memo.asked event := by
  intro memo
  have kept : memo.IsKept bound.toNat := (isKept_ofLimits h).run events
  have sound : memo.Sound := (sound_ofLimits h).run events
  refine ⟨fun event => (sound.answer event).2, fun kind => ⟨?_, (kept.tables kind).distinct⟩,
    ⟨memo.split, ?_, fun event => ?_, fun _ => rfl,
      fun kind lookup => ⟨fun held => ?_, fun absent => ?_⟩⟩,
    kept.counted, fun event => memo.accesses_answer event⟩
  · have bounded := (kept.tables kind).bounded
    have positive := kept.positive
    omega
  · rw [← split_ofLimits h, split_run (isKept_ofLimits h)]
  · rw [split_answer kept, Option.map_some, (sound.answer event).2]
  · obtain ⟨entry, found⟩ := Option.isSome_iff_exists.1 (MemoTable.isSome_find?_iff.2 held)
    have used := (kept.tables kind).used entry (List.mem_of_find?_eq_some found)
    simpa only [uses, MemoTable.uses, counts_split, MemoTable.counts, found, Option.map_some,
      Option.getD_some, and_true] using used
  · have missing := MemoTable.find?_eq_none_iff.2 absent
    simp only [uses, MemoTable.uses, counts_split, MemoTable.counts, missing, Option.map_none,
      Option.getD_none, and_self]

/-- In a memo for one key of a kind, a new key takes the place of the old one and of its count. -/
theorem books_of_run_one :
    ∃ first, ofLimits 1 (.whole 1) = .ok first ∧
      let events := [.parseKey "p", .parseKey "p", .parseKey "w"]
      ((first.run events).table .parse).lookups = ["w"] ∧ (first.run events).accesses = 3 ∧
        ∃ apart, (SplitMemo.empty 1 ⟨false, 1, 0⟩).run events = some apart ∧
          apart.counts .parse "p" = none ∧ apart.counts .parse "w" = some 1 := by
  obtain ⟨first, made⟩ : ∃ first, ofLimits 1 (.whole 1) = .ok first := ⟨_, rfl⟩
  refine ⟨first, made, ?_⟩
  obtain ⟨-, -, ⟨apart, ran, -, -, counted⟩, -⟩ :=
    books_of_run made [.parseKey "p", .parseKey "p", .parseKey "w"]
  obtain rfl := Except.ok.inj made
  refine ⟨by decide +kernel, by decide +kernel, apart, ran, ?_, ?_⟩
  · exact ((counted .parse "p").2 (by decide +kernel)).2
  · rw [((counted .parse "w").1 (by decide +kernel)).2]
    decide +kernel

end KeyMemo

end BracketCss
