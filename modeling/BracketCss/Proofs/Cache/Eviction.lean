import BracketCss.Proofs.Cache.MemoLedger
import BracketCss.Proofs.Number.Binary

/-!
# What a full memo forgets

A question for a key that a full table does not hold makes room: the entries that were used least
go, and of equally used ones those that came first. Building a key of a sheet or of a rule asks the
memo for digests, and each of these questions may make room in the table of digests. So what is said
of a question is said of those that are asked on the way as well, with the memo as each meets it.

## Main definitions

* `Inquiry`: a question as it is put to a memo
* `KeyMemo.inquiries memo event`: the questions that an event puts, one after the other
* `Inquiry.Evicts gone kept`: a question makes the room for its key by taking out some entries

## Main results

* `MemoTable.pairwise_coldest`: the order in which entries go
* `KeyMemo.length_inquiries`: no question is left out
* `KeyMemo.evicts_of_run`: what goes when a question finds its table full
-/

namespace BracketCss

/-! ## The order in which entries go -/

section Order

variable {α : Type} [BEq α] [LawfulBEq α] {items : List α} {a b : α}

/-- Items without repetitions stand in the order of their places. -/
theorem idxOf_lt_of_pair_sublist (distinct : items.Nodup) (h : [a, b].Sublist items) :
    items.idxOf a < items.idxOf b := by
  have places : items.Pairwise fun a b => items.idxOf a < items.idxOf b := by
    rw [List.pairwise_iff_getElem]
    intro i j hi hj before
    rwa [distinct.idxOf_getElem i hi, distinct.idxOf_getElem j hj]
  exact List.pairwise_iff_forall_sublist.1 places h

theorem pair_sublist_of_idxOf_lt (mem : b ∈ items) (h : items.idxOf a < items.idxOf b) :
    [a, b].Sublist items := by
  by_contra apart
  have never : items.Pairwise fun x y => ¬ (x = a ∧ y = b) := by
    refine List.pairwise_iff_forall_sublist.2 ?_
    rintro x y pair ⟨rfl, rfl⟩
    exact apart pair
  have second := List.idxOf_lt_length_of_mem mem
  refine List.pairwise_iff_getElem.1 never _ _ (h.trans second) second h ⟨?_, ?_⟩
  · exact List.getElem_idxOf _
  · exact List.getElem_idxOf _

end Order

namespace MemoTable

variable {entries : List MemoEntry}

/-- **The less used entries go first**, and of equally used ones those that came first. -/
theorem pairwise_coldest (distinct : entries.Nodup) :
    (coldest entries).Pairwise fun a b => a.uses < b.uses ∨
      a.uses = b.uses ∧ entries.idxOf a < entries.idxOf b := by
  have trans : ∀ a b c : MemoEntry, decide (a.uses ≤ b.uses) = true →
      decide (b.uses ≤ c.uses) = true → decide (a.uses ≤ c.uses) = true := by
    simp only [decide_eq_true_eq]
    exact fun _ _ _ => Nat.le_trans
  have total : ∀ a b : MemoEntry,
      (decide (a.uses ≤ b.uses) || decide (b.uses ≤ a.uses)) = true := by
    simp only [Bool.or_eq_true, decide_eq_true_eq]
    exact fun _ _ => Nat.le_total _ _
  have arranged : (coldest entries).Perm entries := List.mergeSort_perm _ _
  have nodup : (coldest entries).Nodup := arranged.nodup_iff.2 distinct
  refine List.pairwise_iff_forall_sublist.2 fun {a b} pair => ?_
  have sorted : a.uses ≤ b.uses := of_decide_eq_true
    (List.pairwise_iff_forall_sublist.1 (List.pairwise_mergeSort trans total entries) pair)
  rcases Nat.lt_or_eq_of_le sorted with less | same
  · exact .inl less
  · refine .inr ⟨same, ?_⟩
    have memA : a ∈ entries := arranged.subset (pair.subset (by simp))
    have memB : b ∈ entries := arranged.subset (pair.subset (by simp))
    by_contra behind
    rcases Nat.lt_or_eq_of_le (Nat.le_of_not_lt behind) with before | equal
    -- sorting keeps the order of equally used entries, so they would stand the other way round
    · have kept : [b, a].Sublist (coldest entries) := List.pair_sublist_mergeSort trans total
        (decide_eq_true same.ge) (pair_sublist_of_idxOf_lt memA before)
      exact Nat.lt_asymm (idxOf_lt_of_pair_sublist nodup kept)
        (idxOf_lt_of_pair_sublist nodup pair)
    · obtain rfl := (List.idxOf_inj memB).1 equal
      exact Nat.lt_irrefl _ (idxOf_lt_of_pair_sublist nodup pair)

/-- The entries that go and those that stay are all entries. -/
theorem perm_take_append_dropColdest (distinct : (entries.map (·.lookup)).Nodup) (count : Nat) :
    ((coldest entries).take count ++ dropColdest count entries).Perm entries := by
  have arranged : (coldest entries).Perm entries := List.mergeSort_perm _ _
  refine ((perm_dropColdest distinct count).append_left _).trans ?_
  rwa [List.take_append_drop]

/-- An entry that goes was used less than one that stays, or equally often and came earlier. -/
theorem colder_of_mem (distinct : (entries.map (·.lookup)).Nodup) (count : Nat)
    {gone kept : MemoEntry} (hgone : gone ∈ (coldest entries).take count)
    (hkept : kept ∈ dropColdest count entries) : gone.uses < kept.uses ∨
      gone.uses = kept.uses ∧ entries.idxOf gone < entries.idxOf kept := by
  have order := pairwise_coldest (List.Nodup.of_map _ distinct)
  rw [← List.take_append_drop count (coldest entries), List.pairwise_append] at order
  exact order.2.2 gone hgone kept ((perm_dropColdest distinct count).subset hkept)

end MemoTable

/-! ## Questions -/

/-- A question as it is put to a memo: the text that a key is looked up by, and how the key is built
if it is not held. -/
structure Inquiry where
  /-- The memo that is asked. -/
  memo : KeyMemo
  /-- The kind of the key. -/
  kind : KeyKind
  /-- What the key is looked up by. -/
  lookup : String
  /-- How the key is built. -/
  build : KeyMemo → KeyMemo × String

namespace Inquiry

/-- The memo after the question. -/
def after (q : Inquiry) : KeyMemo := (q.memo.remember q.kind q.lookup q.build).1

/-- The table that the key is looked for in. -/
def table (q : Inquiry) : MemoTable := q.memo.table q.kind

/-- The memo when the key is not held and room has been made for it. -/
def cleared (q : Inquiry) : KeyMemo := q.memo.ask.missed q.kind

/-- The table is full and does not hold the key. -/
def IsCrowded (q : Inquiry) : Prop :=
  q.table.find? q.lookup = none ∧ q.memo.capacity ≤ q.table.entries.length

/-- How many entries the share of a full table comes to, and one at least. -/
def share (q : Inquiry) : Nat := max 1 (truncatedProduct q.table.entries.length q.memo.fraction)

/-- The question makes the room for its key by taking out some entries and keeping the others, and
the key comes behind those. -/
structure Evicts (q : Inquiry) (gone kept : List MemoEntry) : Prop where
  /-- Every entry goes or stays. -/
  perm : (gone ++ kept).Perm q.table.entries
  /-- Those that stay keep their order. -/
  order : kept.Sublist q.table.entries
  /-- Only these are left when the key is built. -/
  room : (q.cleared.table q.kind).entries = kept
  /-- No other table loses an entry. -/
  others : ∀ other ≠ q.kind, q.cleared.table other = q.memo.table other
  /-- None that goes was used more than one that stays, and equally used ones go in the order in
  which they came. -/
  coldest : ∀ old ∈ gone, ∀ entry ∈ kept, old.uses < entry.uses ∨
    old.uses = entry.uses ∧ q.table.entries.idxOf old < q.table.entries.idxOf entry
  /-- Those that go are counted. -/
  counted : q.cleared.evictions = q.memo.evictions + gone.length
  /-- The new key was used once. -/
  added : ∃ key, (q.after.table q.kind).entries = kept ++ [⟨q.lookup, key, 1⟩]

end Inquiry

namespace KeyMemo

variable {memo first : KeyMemo} {capacity : Nat}

/-- The question for a digest. -/
def digestInquiry (memo : KeyMemo) (text : String) : Inquiry :=
  ⟨memo, .hash, text, fun memo => (memo, Digest.short text)⟩

/-- The question for the key of a class name. -/
def parseInquiry (memo : KeyMemo) (name : String) : Inquiry :=
  ⟨memo, .parse, name, fun memo => (memo, CacheKey.parse name)⟩

/-- The question for the key of a sheet. -/
def generationInquiry (memo : KeyMemo) (tokens : List Json) (options : Json) : Inquiry :=
  ⟨memo, .generation, CacheKey.pair (CacheKey.tokensText tokens) options.canonical, fun memo =>
    let (memo, tokensDigest) := memo.hashOf (CacheKey.tokensText tokens)
    let (memo, optionsDigest) := memo.hashOf options.canonical
    (memo, CacheKey.generation tokensDigest optionsDigest)⟩

/-- The question for the key of a rule. -/
def ruleInquiry (memo : KeyMemo) (selector : String) (declarations : Json) : Inquiry :=
  ⟨memo, .rule, CacheKey.pair selector declarations.canonical, fun memo =>
    let (memo, digest) := memo.hashOf declarations.canonical
    (memo, CacheKey.rule selector digest)⟩

/-- The questions that an event puts, each to the memo as it is then: one for the key, and if the
key of a sheet or of a rule has to be built, one for each digest in it. -/
def inquiries (memo : KeyMemo) : MemoEvent → List Inquiry
  | .hash text => [memo.digestInquiry text]
  | .parseKey name => [memo.parseInquiry name]
  | .generationKey tokens options =>
    let q := memo.generationInquiry tokens options
    let first := q.cleared.digestInquiry (CacheKey.tokensText tokens)
    q :: if q.lookup ∈ q.table.lookups then []
      else [first, first.after.digestInquiry options.canonical]
  | .ruleKey selector declarations =>
    let q := memo.ruleInquiry selector declarations
    q :: if q.lookup ∈ q.table.lookups then [] else [q.cleared.digestInquiry declarations.canonical]
  | .optimize | .clear => []

/-- As many questions are listed as an event asks. -/
theorem length_inquiries (memo : KeyMemo) (event : MemoEvent) :
    (memo.inquiries event).length = memo.asked event := by
  cases event with
  | generationKey tokens options =>
    rw [inquiries, List.length_cons, apply_ite List.length]
    exact apply_ite Nat.succ _ _ _
  | ruleKey selector declarations =>
    rw [inquiries, List.length_cons, apply_ite List.length]
    exact apply_ite Nat.succ _ _ _
  | _ => rfl

/-- The first question leads to what the event leads to. -/
theorem after_head_inquiries (memo : KeyMemo) (event : MemoEvent) :
    ∀ q ∈ (memo.inquiries event).head?, q.memo = memo ∧ q.after = (memo.answer event).1 := by
  cases event <;> rintro q ⟨⟩ <;> exact ⟨rfl, rfl⟩

/-! ## What is the same for all questions -/

@[simp] theorem fraction_setTable (memo : KeyMemo) (kind : KeyKind) (table : MemoTable) :
    (memo.setTable kind table).fraction = memo.fraction := by cases kind <;> rfl

@[simp] theorem evictions_setTable (memo : KeyMemo) (kind : KeyKind) (table : MemoTable) :
    (memo.setTable kind table).evictions = memo.evictions := by cases kind <;> rfl

theorem fraction_makeRoom (memo : KeyMemo) (kind : KeyKind) :
    (memo.makeRoom kind).fraction = memo.fraction := by
  rcases memo.makeRoom_cases kind with ⟨-, made⟩ | ⟨-, made⟩ <;> rw [made]
  exact fraction_setTable ..

theorem fraction_missed (memo : KeyMemo) (kind : KeyKind) :
    (memo.missed kind).fraction = memo.fraction := by
  rw [missed, fraction_makeRoom, fraction_setTable]

/-- A question leaves the fraction alone if building the key does. -/
theorem fraction_remember {build : KeyMemo → KeyMemo × String} (memo : KeyMemo) (kind : KeyKind)
    (lookup : String) (keeps : ∀ other : KeyMemo, (build other).1.fraction = other.fraction) :
    (memo.remember kind lookup build).1.fraction = memo.fraction := by
  rcases memo.remember_cases kind lookup build with ⟨entry, -, h⟩ | ⟨-, h⟩ <;> rw [h]
  · rw [fraction_setTable]
    rfl
  · rw [fraction_setTable, keeps, fraction_missed]
    rfl

theorem fraction_hashOf (memo : KeyMemo) (text : String) :
    (memo.hashOf text).1.fraction = memo.fraction :=
  memo.fraction_remember .hash text fun _ => rfl

theorem fraction_answer (memo : KeyMemo) (event : MemoEvent) :
    (memo.answer event).1.fraction = memo.fraction := by
  cases event with
  | hash text => exact memo.fraction_hashOf text
  | parseKey name =>
    show (memo.parseKey name).1.fraction = _
    exact memo.fraction_remember .parse name fun _ => rfl
  | generationKey tokens options =>
    show (memo.generationKey tokens options).1.fraction = _
    refine memo.fraction_remember .generation _ fun other => ?_
    dsimp only
    rw [fraction_hashOf, fraction_hashOf]
  | ruleKey selector declarations =>
    show (memo.ruleKey selector declarations).1.fraction = _
    exact memo.fraction_remember .rule _ fun other => other.fraction_hashOf _
  | optimize => rfl
  | clear => rfl

theorem fraction_run (memo : KeyMemo) (events : List MemoEvent) :
    (memo.run events).fraction = memo.fraction := by
  induction events using List.reverseRecOn with
  | nil => rfl
  | append_singleton events event ih => rw [run_concat, fraction_answer, ih]

end KeyMemo

/-! ## What goes -/

namespace Inquiry

/-- A question is in order: it is put to a memo whose books are, and building its key leaves the
table alone that the key is for. -/
structure IsOrderly (capacity : Nat) (fraction : Decimal) (q : Inquiry) : Prop where
  kept : q.memo.IsKept capacity
  fraction_eq : q.memo.fraction = fraction
  apart : ∀ memo, (q.build memo).1.table q.kind = memo.table q.kind

variable {q : Inquiry} {capacity : Nat} {fraction : Decimal}

theorem fraction_cleared (q : Inquiry) : q.cleared.fraction = q.memo.fraction :=
  q.memo.ask.fraction_missed q.kind

/-- The memo when room has been made in a full table. -/
theorem cleared_of_full (full : q.memo.capacity ≤ q.table.entries.length) :
    (q.cleared.table q.kind).entries = MemoTable.dropColdest q.share q.table.entries ∧
      q.cleared.evictions = q.memo.evictions + (q.table.entries.length -
        (MemoTable.dropColdest q.share q.table.entries).length) := by
  have missed : q.cleared = KeyMemo.makeRoom (q.memo.ask.setTable q.kind
      { q.table with misses := q.table.misses + 1 }) q.kind := by
    simp only [cleared, KeyMemo.missed, KeyMemo.table_ask, table]
  rw [missed]
  rcases KeyMemo.makeRoom_cases (q.memo.ask.setTable q.kind
    { q.table with misses := q.table.misses + 1 }) q.kind with ⟨room, -⟩ | ⟨-, made⟩
  · rw [KeyMemo.table_setTable_self, KeyMemo.capacity_setTable] at room
    exact absurd full (Nat.not_le.2 room)
  · rw [made, KeyMemo.table_evictions]
    simp only [KeyMemo.cooled, KeyMemo.table_setTable_self, KeyMemo.evictionCount,
      KeyMemo.fraction_setTable, KeyMemo.evictions_setTable]
    exact ⟨rfl, rfl⟩

/-- **A question that finds its table full takes out the coldest entries.** -/
theorem IsOrderly.evicts (h : q.IsOrderly capacity fraction) (crowded : q.IsCrowded) :
    q.Evicts ((MemoTable.coldest q.table.entries).take q.share)
      (MemoTable.dropColdest q.share q.table.entries) := by
  obtain ⟨absent, full⟩ := crowded
  have distinct : (q.table.entries.map (·.lookup)).Nodup := (h.kept.tables q.kind).distinct
  obtain ⟨room, counted⟩ := cleared_of_full full
  refine ⟨MemoTable.perm_take_append_dropColdest distinct _, List.filter_sublist, room, ?_,
    fun old hold entry hentry => MemoTable.colder_of_mem distinct _ hold hentry, ?_, ?_⟩
  · intro other ne
    exact ((KeyMemo.missed_frame _ _).2 other ne).trans (KeyMemo.table_ask ..)
  · rw [counted, MemoTable.length_dropColdest distinct, List.length_take, MemoTable.coldest,
      List.length_mergeSort]
    omega
  · refine ⟨(q.build q.cleared).2, ?_⟩
    rcases q.memo.remember_cases q.kind q.lookup q.build with ⟨entry, found, -⟩ | ⟨-, asked⟩
    · exact absurd (found.symm.trans absent) (Option.some_ne_none entry)
    · rw [after, asked, KeyMemo.table_setTable_self]
      show ((q.build q.cleared).1.table q.kind).entries ++ _ = _
      rw [h.apart, room]
      rfl

end Inquiry

namespace KeyMemo

variable {memo first : KeyMemo} {capacity : Nat} {fraction : Decimal}

theorem IsKept.isOrderly_digest (h : memo.IsKept capacity) (text : String) :
    (memo.digestInquiry text).IsOrderly capacity memo.fraction :=
  ⟨h, rfl, fun _ => rfl⟩

/-- **Every question that an event puts is in order.** -/
theorem IsKept.isOrderly (h : memo.IsKept capacity) {event : MemoEvent} {q : Inquiry}
    (asked : q ∈ memo.inquiries event) : q.IsOrderly capacity memo.fraction := by
  cases event with
  | hash text =>
    rw [List.mem_singleton.1 asked]
    exact h.isOrderly_digest text
  | parseKey name =>
    rw [List.mem_singleton.1 asked]
    exact ⟨h, rfl, fun _ => rfl⟩
  | generationKey tokens options =>
    have cleared := (h.missed .generation).1
    have share := (memo.generationInquiry tokens options).fraction_cleared
    have next := cleared.hashOf (CacheKey.tokensText tokens)
    rcases List.mem_cons.1 asked with rfl | nested
    · refine ⟨h, rfl, fun other => ?_⟩
      show (((other.hashOf _).1.hashOf _).1).table .generation = _
      rw [table_hashOf _ _ (by decide), table_hashOf _ _ (by decide)]
      rfl
    · split at nested
      · cases nested
      · simp only [List.mem_cons, List.not_mem_nil, or_false] at nested
        rcases nested with rfl | rfl
        · exact share ▸ cleared.isOrderly_digest _
        · refine ⟨next, ?_, fun _ => rfl⟩
          exact (fraction_hashOf _ _).trans share
  | ruleKey selector declarations =>
    have cleared := (h.missed .rule).1
    have share := (memo.ruleInquiry selector declarations).fraction_cleared
    rcases List.mem_cons.1 asked with rfl | nested
    · exact ⟨h, rfl, fun other => table_hashOf _ _ (show KeyKind.rule ≠ .hash by decide)⟩
    · split at nested
      · cases nested
      · rw [List.mem_singleton.1 nested]
        exact share ▸ cleared.isOrderly_digest _
  | optimize => cases asked
  | clear => cases asked

end KeyMemo

theorem Json.Number.toRat_toDecimal (n : Json.Number) : n.toDecimal.toRat = n.toRat := by
  cases n with
  | whole n =>
    have signed : (toDecimal (whole n)).signed = n := by
      simp only [toDecimal, Decimal.signed, decide_eq_true_eq]
      split <;> omega
    rw [Decimal.toRat_eq, signed]
    simp [toDecimal, toRat]
  | real d => rfl
  | infinite _ | undefined => exact Decimal.toRat_ofNat 0

namespace KeyMemo

variable {first : KeyMemo} {bound : Int} {share : Json.Number}

/-- The share of a full table that goes is a part of it. -/
theorem fraction_ofLimits (h : ofLimits bound share = .ok first) :
    first.fraction = share.toDecimal ∧ 0 < share.toDecimal.toRat ∧ share.toDecimal.toRat ≤ 1 := by
  rw [Json.Number.toRat_toDecimal]
  simp only [ofLimits] at h
  split at h
  · cases h
  · split at h
    · cases h
    · next within =>
      obtain rfl := Except.ok.inj h
      rw [not_or, not_le, not_lt] at within
      exact ⟨rfl, within⟩

/-- **A full memo forgets the keys that were used least.** Whatever was asked before, each question
that finds its table full and does not hold its key takes out as many entries of this table as the
share comes to, and one at least. None of them was used more often than one that stays, and equally
used ones go in the order in which they came. The other tables lose nothing, and the new key has
been used once. Only the share of more than `2 ^ 53` entries may be rounded to more than there are,
and then all of them go. -/
theorem evicts_of_run (made : ofLimits bound share = .ok first)
    (events : List MemoEvent) (event : MemoEvent) {q : Inquiry}
    (asked : q ∈ (first.run events).inquiries event) (crowded : q.IsCrowded) :
    ∃ gone kept, q.Evicts gone kept ∧
      gone.length = min (max 1 (truncatedProduct q.table.entries.length share.toDecimal))
        q.table.entries.length ∧
      (q.table.entries.length ≤ 2 ^ 53 →
        gone.length = max 1 (truncatedProduct q.table.entries.length share.toDecimal)) := by
  obtain ⟨fraction, positive, small⟩ := fraction_ofLimits made
  have orderly := ((isKept_ofLimits made).run events).isOrderly asked
  have share_eq : q.share = max 1 (truncatedProduct q.table.entries.length share.toDecimal) := by
    rw [Inquiry.share, orderly.fraction_eq, fraction_run, fraction]
  have length : ((MemoTable.coldest q.table.entries).take q.share).length =
      min q.share q.table.entries.length := by
    rw [List.length_take, MemoTable.coldest, List.length_mergeSort]
  refine ⟨_, _, orderly.evicts crowded, ?_, fun bounded => ?_⟩
  · rw [length, share_eq]
  · have fits : truncatedProduct q.table.entries.length share.toDecimal ≤
        q.table.entries.length := truncatedProduct_le positive small bounded
    have some_ : 0 < q.table.entries.length :=
      orderly.kept.positive.trans_le (orderly.kept.sized ▸ crowded.2)
    rw [length, share_eq]
    omega

/-- Of two keys that fill a memo, one has to go for a third one. -/
theorem evicts_of_run_parse : ∃ first,
    ofLimits 2 (.real ⟨false, 5, -1⟩) = .ok first ∧
      let q := (first.run [.parseKey "a", .parseKey "b", .parseKey "a"]).parseInquiry "c"
      q.table.entries = [⟨"a", "parse:a", 2⟩, ⟨"b", "parse:b", 1⟩] ∧ q.IsCrowded ∧
        ∃ gone kept, q.Evicts gone kept ∧ gone.length = 1 := by
  obtain ⟨first, made, full⟩ : ∃ first, ofLimits 2 (.real ⟨false, 5, -1⟩) = .ok first ∧
      ((first.run [.parseKey "a", .parseKey "b", .parseKey "a"]).parseInquiry "c").table.entries =
        [⟨"a", "parse:a", 2⟩, ⟨"b", "parse:b", 1⟩] := ⟨_, rfl, by decide +kernel⟩
  have crowded :
      ((first.run [.parseKey "a", .parseKey "b", .parseKey "a"]).parseInquiry "c").IsCrowded := by
    refine ⟨?_, ?_⟩
    · rw [MemoTable.find?, full]
      rfl
    · rw [full]
      exact (isKept_ofLimits made).run _ |>.sized.le
  obtain ⟨gone, kept, evicts, -, length⟩ := evicts_of_run made
    [.parseKey "a", .parseKey "b", .parseKey "a"] (.parseKey "c") (List.mem_singleton_self _)
    crowded
  refine ⟨first, made, full, crowded, gone, kept, evicts, ?_⟩
  rw [length (by rw [full]; decide), full]
  decide +kernel

end KeyMemo

end BracketCss
