import BracketCss.Proofs.Cache.Entries
import BracketCss.Proofs.Cache.Memo
import BracketCss.Proofs.Json.Printed
import Mathlib.Algebra.GroupWithZero.Nat

/-!
# The books of a memo

Whatever a memo is asked, none of its tables grows over the bound, a text has one key at most, and
every question is counted as a hit or a miss, those included that the memo asks itself while it
builds a key.

## Main definitions

* `MemoEvent`, `KeyMemo.run`: what a memo can be asked, and a history of it
* `MemoEvent.plainKey?`: the key asked for, built without a memo
* `KeyMemo.questions`: the hits and misses of all kinds
* `KeyMemo.IsKept`: the books of a memo are in order

## Main results

* `MemoTable.perm_dropColdest`: evicting leaves all but the coldest entries
* `KeyMemo.remember_cases`: what one question does
* `IsKept.remember`: a question keeps the books in order if building the key does
* `answer_eq_plainKey`, `isKept_run`: the answers and the books after any history
-/

namespace BracketCss

/-! ## Tables -/

namespace MemoTable

variable {table : MemoTable} {lookup key : String} {capacity : Nat} {entry : MemoEntry}

/-- The texts that a table holds keys of. -/
def lookups (table : MemoTable) : List String := table.entries.map (·.lookup)

theorem isSome_find?_iff : (table.find? lookup).isSome ↔ lookup ∈ table.lookups :=
  isSome_find?_key_iff

theorem find?_eq_none_iff : table.find? lookup = none ↔ lookup ∉ table.lookups := by
  rw [← isSome_find?_iff, Option.not_isSome_iff_eq_none]

theorem find?_eq_some_iff (distinct : table.lookups.Nodup) :
    table.find? lookup = some entry ↔ entry ∈ table.entries ∧ entry.lookup = lookup :=
  find?_key_eq_some_iff distinct

theorem lookups_touch (table : MemoTable) (lookup : String) :
    (table.touch lookup).lookups = table.lookups := by
  simp only [lookups, touch, List.map_map]
  refine List.map_congr_left fun entry _ => ?_
  simp only [Function.comp_apply]
  split <;> rfl

theorem lookups_add (table : MemoTable) (lookup key : String) :
    (table.add lookup key).lookups = table.lookups ++ [lookup] := by
  simp [lookups, add]

theorem filter_front (front back : List MemoEntry)
    (distinct : ((front ++ back).map (·.lookup)).Nodup) :
    ((front ++ back).filter fun entry => !(front.map (·.lookup)).contains entry.lookup) = back := by
  rw [List.map_append, List.nodup_append] at distinct
  rw [List.filter_append, List.filter_eq_nil_iff.2, List.filter_eq_self.2, List.nil_append]
  · intro entry mem
    rw [Bool.not_eq_true', List.contains_eq_mem, decide_eq_false_iff_not]
    exact fun gone => distinct.2.2 _ gone _ (List.mem_map_of_mem mem) rfl
  · intro entry mem
    rw [Bool.not_eq_true, Bool.not_eq_false', List.contains_eq_mem, decide_eq_true_iff]
    exact List.mem_map_of_mem mem

/-- **Evicting leaves all but the coldest entries.** -/
theorem perm_dropColdest {entries : List MemoEntry} (distinct : (entries.map (·.lookup)).Nodup)
    (count : Nat) : (dropColdest count entries).Perm ((coldest entries).drop count) := by
  have sorted : (coldest entries).Perm entries := List.mergeSort_perm _ _
  have cut := filter_front ((coldest entries).take count) ((coldest entries).drop count)
    (by rwa [List.take_append_drop, (sorted.map _).nodup_iff])
  rw [List.take_append_drop] at cut
  rw [← cut]
  exact sorted.symm.filter _

theorem length_dropColdest {entries : List MemoEntry} (distinct : (entries.map (·.lookup)).Nodup)
    (count : Nat) : (dropColdest count entries).length = entries.length - count := by
  rw [(perm_dropColdest distinct count).length_eq, List.length_drop, coldest, List.length_mergeSort]

/-- The books of a table are in order: it is not too long, a text has one key, and every key was
asked for. -/
structure IsKept (capacity : Nat) (table : MemoTable) : Prop where
  bounded : table.entries.length ≤ capacity
  distinct : table.lookups.Nodup
  used : ∀ entry ∈ table.entries, 1 ≤ entry.uses

theorem IsKept.touch (h : table.IsKept capacity) (lookup : String) :
    (table.touch lookup).IsKept capacity where
  bounded := by simpa [MemoTable.touch] using h.bounded
  distinct := by
    rw [lookups_touch]
    exact h.distinct
  used := by
    intro entry mem
    obtain ⟨old, hold, rfl⟩ := List.mem_map.1 mem
    have := h.used old hold
    split
    · exact Nat.le_add_left 1 _
    · exact this

theorem IsKept.add (h : table.IsKept capacity) (room : table.entries.length < capacity)
    (absent : lookup ∉ table.lookups) (key : String) : (table.add lookup key).IsKept capacity where
  bounded := by simpa [MemoTable.add, Nat.add_one_le_iff] using room
  distinct := by
    rw [lookups_add]
    exact h.distinct.append (List.nodup_singleton _) (List.disjoint_singleton.2 absent)
  used := by
    intro entry mem
    rcases List.mem_append.1 mem with old | new
    · exact h.used entry old
    · rw [List.mem_singleton.1 new]

theorem IsKept.filter (h : table.IsKept capacity) (p : MemoEntry → Bool) :
    ({ table with entries := table.entries.filter p } : MemoTable).IsKept capacity where
  bounded := (List.length_filter_le _ _).trans h.bounded
  distinct := h.distinct.sublist (List.filter_sublist.map _)
  used := fun entry mem => h.used entry (List.mem_filter.1 mem).1

end MemoTable

/-! ## What a question does -/

namespace KeyMemo

variable {memo : KeyMemo} {kind : KeyKind} {lookup : String} {capacity : Nat}
  {build : KeyMemo → KeyMemo × String}

/-- All hits and misses. -/
def questions (memo : KeyMemo) : Nat :=
  (KeyKind.all.map fun kind => (memo.table kind).hits + (memo.table kind).misses).sum

/-- The memo with one more question counted. -/
def ask (memo : KeyMemo) : KeyMemo := { memo with accesses := memo.accesses + 1 }

@[simp] theorem capacity_setTable (memo : KeyMemo) (kind : KeyKind) (table : MemoTable) :
    (memo.setTable kind table).capacity = memo.capacity := by cases kind <;> rfl

@[simp] theorem accesses_setTable (memo : KeyMemo) (kind : KeyKind) (table : MemoTable) :
    (memo.setTable kind table).accesses = memo.accesses := by cases kind <;> rfl

@[simp] theorem table_ask (memo : KeyMemo) (kind : KeyKind) :
    memo.ask.table kind = memo.table kind := by cases kind <;> rfl

/-- What holds of all tables still holds if it holds of a new one. -/
theorem forall_table_setTable {P : MemoTable → Prop} {table : MemoTable}
    (h : ∀ kind, P (memo.table kind)) (new : P table) (other : KeyKind) :
    P ((memo.setTable kind table).table other) := by
  by_cases same : other = kind
  · rwa [same, table_setTable_self]
  · rw [table_setTable_of_ne same]
    exact h other

@[simp] theorem table_evictions (memo : KeyMemo) (count : Nat) (kind : KeyKind) :
    ({ memo with evictions := count } : KeyMemo).table kind = memo.table kind := by
  cases kind <;> rfl

@[simp] theorem accesses_ask (memo : KeyMemo) : memo.ask.accesses = memo.accesses + 1 := rfl

@[simp] theorem questions_ask (memo : KeyMemo) : memo.ask.questions = memo.questions := rfl

theorem questions_setTable (memo : KeyMemo) (kind : KeyKind) (table : MemoTable) :
    (memo.setTable kind table).questions + ((memo.table kind).hits + (memo.table kind).misses) =
      memo.questions + (table.hits + table.misses) := by
  cases kind <;>
    simp only [questions, KeyKind.all, List.map_cons, List.map_nil, List.sum_cons, List.sum_nil,
      KeyMemo.table, setTable] <;> omega

/-- The table of a kind after the coldest entries gave their places to new ones. -/
def cooled (memo : KeyMemo) (kind : KeyKind) : MemoTable :=
  { memo.table kind with
    entries := MemoTable.dropColdest (memo.evictionCount (memo.table kind).entries.length)
      (memo.table kind).entries }

/-- Room is there, or it is made. -/
theorem makeRoom_cases (memo : KeyMemo) (kind : KeyKind) :
    (memo.table kind).entries.length < memo.capacity ∧ memo.makeRoom kind = memo ∨
      memo.capacity ≤ (memo.table kind).entries.length ∧
        memo.makeRoom kind = { memo.setTable kind (memo.cooled kind) with
          evictions := memo.evictions +
            ((memo.table kind).entries.length - (memo.cooled kind).entries.length) } := by
  unfold makeRoom
  dsimp only
  split
  · next room => exact .inl ⟨room, rfl⟩
  · next full => exact .inr ⟨Nat.le_of_not_lt full, rfl⟩

/-- **What one question does**: it finds the key of a text and counts the use, or it makes room,
builds the key and adds it. -/
theorem remember_cases (memo : KeyMemo) (kind : KeyKind) (lookup : String)
    (build : KeyMemo → KeyMemo × String) :
    (∃ entry, (memo.table kind).find? lookup = some entry ∧
        memo.remember kind lookup build =
          (memo.ask.setTable kind ((memo.table kind).touch lookup), entry.key)) ∨
      (memo.table kind).find? lookup = none ∧
        memo.remember kind lookup build =
          ((build (memo.ask.missed kind)).1.setTable kind
            (((build (memo.ask.missed kind)).1.table kind).add lookup
              (build (memo.ask.missed kind)).2), (build (memo.ask.missed kind)).2) := by
  rw [← table_ask]
  unfold remember
  dsimp only
  split
  · next entry found => exact .inl ⟨entry, found, rfl⟩
  · next absent => exact .inr ⟨absent, rfl⟩

/-- The books of a memo are in order: those of its tables are, and every question was counted as a
hit or a miss. -/
structure IsKept (capacity : Nat) (memo : KeyMemo) : Prop where
  positive : 0 < capacity
  sized : memo.capacity = capacity
  tables : ∀ kind, (memo.table kind).IsKept capacity
  counted : memo.accesses = memo.questions

/-- A table may change if no question is forgotten. -/
theorem IsKept.setTable (h : memo.IsKept capacity) {table : MemoTable}
    (new : table.IsKept capacity)
    (same : table.hits + table.misses = (memo.table kind).hits + (memo.table kind).misses) :
    (memo.setTable kind table).IsKept capacity where
  positive := h.positive
  sized := (capacity_setTable ..).trans h.sized
  tables := forall_table_setTable h.tables new
  counted := by
    have := memo.questions_setTable kind table
    rw [accesses_setTable, h.counted]
    omega

/-- One more question is one more hit or miss. -/
theorem IsKept.ask (h : memo.IsKept capacity) {table : MemoTable} (new : table.IsKept capacity)
    (one : table.hits + table.misses = (memo.table kind).hits + (memo.table kind).misses + 1) :
    (memo.ask.setTable kind table).IsKept capacity where
  positive := h.positive
  sized := (capacity_setTable ..).trans h.sized
  tables := forall_table_setTable (fun other => by rw [table_ask]; exact h.tables other) new
  counted := by
    have := memo.ask.questions_setTable kind table
    have counted := h.counted
    simp only [accesses_setTable, accesses_ask, questions_ask, table_ask] at this ⊢
    omega

/-- A full table loses one entry at least, so there is room afterwards. -/
theorem IsKept.makeRoom (h : memo.IsKept capacity) (kind : KeyKind) :
    (memo.makeRoom kind).IsKept capacity ∧
      ((memo.makeRoom kind).table kind).entries.length < capacity ∧
      ((memo.makeRoom kind).table kind).lookups ⊆ (memo.table kind).lookups := by
  rcases memo.makeRoom_cases kind with ⟨room, made⟩ | ⟨full, made⟩ <;> rw [made]
  · exact ⟨h, h.sized ▸ room, List.Subset.refl _⟩
  · have kept : (memo.setTable kind (memo.cooled kind)).IsKept capacity :=
      h.setTable ((h.tables kind).filter _) rfl
    have gone : 1 ≤ memo.evictionCount (memo.table kind).entries.length := Nat.le_max_left 1 _
    have fewer := MemoTable.length_dropColdest (h.tables kind).distinct
      (memo.evictionCount (memo.table kind).entries.length)
    have bounded := (h.tables kind).bounded
    have positive := h.positive
    refine ⟨⟨positive, kept.sized, fun other => ?_, kept.counted⟩, ?_, ?_⟩
    · rw [table_evictions]
      exact kept.tables other
    · rw [table_evictions, table_setTable_self]
      simp only [cooled, fewer]
      omega
    · rw [table_evictions, table_setTable_self]
      exact List.map_subset _ (List.filter_subset_self _)

theorem IsKept.missed (h : memo.IsKept capacity) (kind : KeyKind) :
    (memo.ask.missed kind).IsKept capacity ∧
      ((memo.ask.missed kind).table kind).entries.length < capacity ∧
      ((memo.ask.missed kind).table kind).lookups ⊆ (memo.table kind).lookups := by
  obtain ⟨bounded, distinct, used⟩ := h.tables kind
  have asked : (memo.ask.setTable kind
      { memo.table kind with misses := (memo.table kind).misses + 1 }).IsKept capacity :=
    h.ask ⟨bounded, distinct, used⟩ rfl
  obtain ⟨kept, room, fewer⟩ := asked.makeRoom kind
  rw [table_setTable_self] at fewer
  rw [← table_ask] at kept room fewer ⊢
  exact ⟨kept, room, fewer⟩

/-- **A question keeps the books in order** if building the key does, and if that leaves the
table alone that the key is for. -/
theorem IsKept.remember (h : memo.IsKept capacity) (kind : KeyKind) (lookup : String)
    (keeps : ∀ other : KeyMemo, other.IsKept capacity → (build other).1.IsKept capacity ∧
      (build other).1.table kind = other.table kind) :
    (memo.remember kind lookup build).1.IsKept capacity := by
  rcases memo.remember_cases kind lookup build with ⟨entry, found, h'⟩ | ⟨absent, h'⟩ <;> rw [h']
  · refine h.ask ((h.tables kind).touch lookup) ?_
    simp only [MemoTable.touch]
    omega
  · obtain ⟨kept, room, fewer⟩ := h.missed kind
    obtain ⟨built, same⟩ := keeps _ kept
    refine built.setTable ((built.tables kind).add ?_ ?_ _) rfl
    · rwa [same]
    · rw [same]
      exact fun mem => MemoTable.find?_eq_none_iff.1 absent (fewer mem)

/-- A question that is not answered yet changes its own table only. -/
theorem missed_frame (memo : KeyMemo) (kind : KeyKind) :
    (memo.missed kind).accesses = memo.accesses ∧
      ∀ other ≠ kind, (memo.missed kind).table other = memo.table other := by
  have room (memo : KeyMemo) : (memo.makeRoom kind).accesses = memo.accesses ∧
      ∀ other ≠ kind, (memo.makeRoom kind).table other = memo.table other := by
    rcases memo.makeRoom_cases kind with ⟨-, made⟩ | ⟨-, made⟩ <;> rw [made]
    · exact ⟨rfl, fun _ _ => rfl⟩
    · refine ⟨accesses_setTable .., fun other ne => ?_⟩
      rw [table_evictions, table_setTable_of_ne ne]
  obtain ⟨accesses, tables⟩ := room (memo.setTable kind
    { memo.table kind with misses := (memo.table kind).misses + 1 })
  exact ⟨accesses.trans (accesses_setTable ..),
    fun other ne => (tables other ne).trans (table_setTable_of_ne ne)⟩

/-- A question leaves the tables of other kinds alone if building the key does. -/
theorem table_remember_of_ne {other : KeyKind} (ne : other ≠ kind) (memo : KeyMemo)
    (lookup : String) (keeps : ∀ memo : KeyMemo, (build memo).1.table other = memo.table other) :
    (memo.remember kind lookup build).1.table other = memo.table other := by
  rcases memo.remember_cases kind lookup build with ⟨entry, -, h⟩ | ⟨-, h⟩ <;> rw [h]
  · rw [table_setTable_of_ne ne, table_ask]
  · rw [table_setTable_of_ne ne, keeps, (missed_frame ..).2 other ne, table_ask]

/-- A question counts once, and those count too that are asked to build the key. -/
theorem accesses_remember (memo : KeyMemo) (kind : KeyKind) (lookup : String) {count : Nat}
    (asks : ∀ other : KeyMemo, (build other).1.accesses = other.accesses + count) :
    (memo.remember kind lookup build).1.accesses =
      memo.accesses + if lookup ∈ (memo.table kind).lookups then 1 else count + 1 := by
  rcases memo.remember_cases kind lookup build with ⟨entry, found, h⟩ | ⟨absent, h⟩ <;> rw [h]
  · rw [if_pos (MemoTable.isSome_find?_iff.1 (Option.isSome_of_eq_some found)), accesses_setTable,
      accesses_ask]
  · rw [if_neg (MemoTable.find?_eq_none_iff.1 absent), accesses_setTable, asks,
      (missed_frame ..).1, accesses_ask, Nat.add_assoc, Nat.add_comm 1]

/-! ## Requests -/

theorem IsKept.hashOf (h : memo.IsKept capacity) (text : String) :
    (memo.hashOf text).1.IsKept capacity :=
  h.remember .hash text fun _ kept => ⟨kept, rfl⟩

theorem table_hashOf (memo : KeyMemo) (text : String) (ne : kind ≠ .hash) :
    (memo.hashOf text).1.table kind = memo.table kind :=
  table_remember_of_ne ne memo text fun _ => rfl

theorem IsKept.parseKey (h : memo.IsKept capacity) (name : String) :
    (memo.parseKey name).1.IsKept capacity :=
  h.remember .parse name fun _ kept => ⟨kept, rfl⟩

theorem IsKept.generationKey (h : memo.IsKept capacity) (tokens : List Json) (options : Json) :
    (memo.generationKey tokens options).1.IsKept capacity := by
  refine h.remember .generation _ fun other kept => ?_
  dsimp only
  refine ⟨(kept.hashOf _).hashOf _, ?_⟩
  rw [table_hashOf _ _ (by decide), table_hashOf _ _ (by decide)]

theorem IsKept.ruleKey (h : memo.IsKept capacity) (selector : String) (declarations : Json) :
    (memo.ruleKey selector declarations).1.IsKept capacity :=
  h.remember .rule _ fun _ kept => ⟨kept.hashOf _, table_hashOf _ _ (by decide)⟩

theorem table_mapEntries (memo : KeyMemo) (f : List MemoEntry → List MemoEntry) (kind : KeyKind) :
    (memo.mapEntries f).table kind =
      { memo.table kind with entries := f (memo.table kind).entries } := by
  cases kind <;> rfl

theorem IsKept.mapEntries (h : memo.IsKept capacity) (p : MemoEntry → Bool) :
    (memo.mapEntries (List.filter p)).IsKept capacity where
  positive := h.positive
  sized := h.sized
  tables := by
    intro kind
    rw [table_mapEntries]
    exact (h.tables kind).filter p
  counted := h.counted

theorem clear_eq_mapEntries (memo : KeyMemo) :
    memo.clear = memo.mapEntries (List.filter fun _ => false) := by
  simp [clear, mapEntries]

end KeyMemo

/-! ## Histories -/

/-- What a memo can be asked. -/
inductive MemoEvent where
  | hash (text : String)
  | parseKey (name : String)
  | generationKey (tokens : List Json) (options : Json)
  | ruleKey (selector : String) (declarations : Json)
  | optimize
  | clear

/-- The key asked for, built without a memo. -/
def MemoEvent.plainKey? : MemoEvent → Option String
  | hash text => some (Digest.short text)
  | parseKey name => some (CacheKey.parse name)
  | generationKey tokens options =>
    some (CacheKey.generation (Digest.short (CacheKey.tokensText tokens))
      (Digest.short options.canonical))
  | ruleKey selector declarations =>
    some (CacheKey.rule selector (Digest.short declarations.canonical))
  | optimize | clear => none

namespace KeyMemo

variable {memo : KeyMemo} {capacity : Nat}

/-- The memo after an event, and the key it answers with. -/
def answer (memo : KeyMemo) : MemoEvent → KeyMemo × Option String
  | .hash text => (memo.hashOf text).map id some
  | .parseKey name => (memo.parseKey name).map id some
  | .generationKey tokens options => (memo.generationKey tokens options).map id some
  | .ruleKey selector declarations => (memo.ruleKey selector declarations).map id some
  | .optimize => (memo.optimize.1, none)
  | .clear => (memo.clear, none)

/-- The memo after a history. -/
def run (memo : KeyMemo) (events : List MemoEvent) : KeyMemo :=
  events.foldl (fun memo event => (memo.answer event).1) memo

theorem run_concat (memo : KeyMemo) (events : List MemoEvent) (event : MemoEvent) :
    memo.run (events ++ [event]) = ((memo.run events).answer event).1 := by simp [run]

/-- How many questions an event asks: one for a key, and if a key of a sheet or of a rule has to
be built, one more for each digest in it. -/
def asked (memo : KeyMemo) : MemoEvent → Nat
  | .hash _ | .parseKey _ => 1
  | .generationKey tokens options =>
    if CacheKey.pair (CacheKey.tokensText tokens) options.canonical ∈
      (memo.table .generation).lookups then 1 else 3
  | .ruleKey selector declarations =>
    if CacheKey.pair selector declarations.canonical ∈ (memo.table .rule).lookups then 1 else 2
  | .optimize | .clear => 0

theorem accesses_hashOf (memo : KeyMemo) (text : String) :
    (memo.hashOf text).1.accesses = memo.accesses + 1 := by
  rw [hashOf, accesses_remember memo .hash text fun _ => (Nat.add_zero _).symm, ite_self]

/-- Every question that an event asks is counted. -/
theorem accesses_answer (memo : KeyMemo) (event : MemoEvent) :
    (memo.answer event).1.accesses = memo.accesses + memo.asked event := by
  cases event with
  | hash text => exact memo.accesses_hashOf text
  | parseKey name =>
    show (memo.parseKey name).1.accesses = memo.accesses + 1
    rw [parseKey, accesses_remember memo .parse name fun _ => (Nat.add_zero _).symm, ite_self]
  | generationKey tokens options =>
    show (memo.generationKey tokens options).1.accesses = _
    refine memo.accesses_remember .generation _ fun other => ?_
    dsimp only
    rw [accesses_hashOf, accesses_hashOf]
  | ruleKey selector declarations =>
    show (memo.ruleKey selector declarations).1.accesses = _
    exact memo.accesses_remember .rule _ fun other => other.accesses_hashOf _
  | optimize => rfl
  | clear => rfl

theorem IsKept.answer (h : memo.IsKept capacity) (event : MemoEvent) :
    (memo.answer event).1.IsKept capacity := by
  cases event with
  | hash text => exact h.hashOf text
  | parseKey name => exact h.parseKey name
  | generationKey tokens options => exact h.generationKey tokens options
  | ruleKey selector declarations => exact h.ruleKey selector declarations
  | optimize => exact h.mapEntries _
  | clear =>
    show memo.clear.IsKept capacity
    rw [clear_eq_mapEntries]
    exact h.mapEntries _

/-- **A sound memo gives the plain keys**, and stays sound. -/
theorem Sound.answer (h : memo.Sound) (event : MemoEvent) :
    (memo.answer event).1.Sound ∧ (memo.answer event).2 = event.plainKey? := by
  cases event with
  | hash text => exact (h.hashOf text).imp_right (congrArg some)
  | parseKey name => exact (h.parseKey name).imp_right (congrArg some)
  | generationKey tokens options => exact (h.generationKey tokens options).imp_right (congrArg some)
  | ruleKey selector declarations =>
    exact (h.ruleKey selector (Json.isPrinted_canonical declarations)).imp_right (congrArg some)
  | optimize => exact ⟨h.optimize, rfl⟩
  | clear => exact ⟨memo.sound_clear, rfl⟩

theorem Sound.run (h : memo.Sound) (events : List MemoEvent) : (memo.run events).Sound := by
  induction events using List.reverseRecOn with
  | nil => exact h
  | append_singleton events event ih =>
    rw [run_concat]
    exact (ih.answer event).1

theorem IsKept.run (h : memo.IsKept capacity) (events : List MemoEvent) :
    (memo.run events).IsKept capacity := by
  induction events using List.reverseRecOn with
  | nil => exact h
  | append_singleton events event ih =>
    rw [run_concat]
    exact ih.answer event

theorem isKept_ofLimits {bound : Int} {fraction : Json.Number}
    (h : ofLimits bound fraction = .ok memo) : memo.IsKept bound.toNat := by
  simp only [ofLimits] at h
  split at h
  · cases h
  · next positive =>
    split at h
    · cases h
    · obtain rfl := Except.ok.inj h
      have empty : MemoTable.empty.IsKept bound.toNat :=
        ⟨Nat.zero_le _, List.nodup_nil, List.forall_mem_nil _⟩
      refine ⟨by omega, rfl, fun kind => ?_, rfl⟩
      cases kind <;> exact empty

end KeyMemo

end BracketCss
