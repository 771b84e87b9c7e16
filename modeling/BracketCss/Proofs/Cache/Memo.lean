import BracketCss.Cache.Keys
import BracketCss.Proofs.Json.Canonical
import BracketCss.Proofs.Text.Pair

/-!
# The memo gives the plain keys

Whatever was asked, forgotten and evicted before, the memo answers with the key that is built
without it. Its tables are told apart by what a key is built from, and for sheets and rules that
is a pair of texts with a mark between them that a printed text does not hold.

## Main definitions

* `KeyKind.Justified kind lookup key`: the key of a kind that belongs to what is looked up
* `KeyMemo.Sound memo`: every key that is held belongs to what it is looked up by

## Main results

* `Sound.remember`: what the memo holds and what it answers
* `Sound.parseKey`, `Sound.generationKey`, `Sound.ruleKey`: the keys with the help of a sound memo
* `tokensText_inj`, `tokensText_perm`: texts of token lists are equal if the tokens are the same up
  to their order, and only then
* `parse_inj`, `generation_inj`, `rule_inj`: what a key gives away
-/

namespace BracketCss

open Json Text

namespace CacheKey

theorem toList_pair (first second : String) :
    (pair first second).toList = first.toList ++ '\x00' :: second.toList := by
  simp [pair]

theorem zero_not_mem {cs : List Char} (h : IsPrinted cs) : '\x00' ∉ cs :=
  fun mem => absurd (h _ mem) (by decide)

/-- A pair is taken apart at its mark if neither first part holds it. -/
theorem pair_inj_left {a b c d : String} (ha : IsPrinted a.toList) (hc : IsPrinted c.toList)
    (h : pair a b = pair c d) : a = c ∧ b = d := by
  have texts := congrArg String.toList h
  rw [toList_pair, toList_pair] at texts
  obtain ⟨first, second⟩ := append_cons_inj (zero_not_mem ha) (zero_not_mem hc) texts
  exact ⟨String.toList_inj.1 first, String.toList_inj.1 second⟩

/-- A pair is taken apart at its mark if neither second part holds it. -/
theorem pair_inj_right {a b c d : String} (hb : IsPrinted b.toList) (hd : IsPrinted d.toList)
    (h : pair a b = pair c d) : a = c ∧ b = d := by
  have texts := congrArg (List.reverse ∘ String.toList) h
  simp only [Function.comp_apply, toList_pair, List.reverse_append, List.reverse_cons,
    List.append_assoc, List.singleton_append] at texts
  obtain ⟨second, first⟩ := append_cons_inj (by simpa using zero_not_mem hb)
    (by simpa using zero_not_mem hd) texts
  exact ⟨String.toList_inj.1 (List.reverse_inj.1 first),
    String.toList_inj.1 (List.reverse_inj.1 second)⟩

theorem isPrinted_tokensText (tokens : List Json) : IsPrinted (tokensText tokens).toList :=
  isPrinted_canonical_strings _

/-- Equal texts of two lists of tokens come from the same tokens in some order, as far as their
compact texts tell. -/
theorem tokensText_inj {tokens others : List Json} (h : tokensText tokens = tokensText others) :
    (tokens.map canonical).Perm (others.map canonical) := by
  have sorted := canonical_strings_inj h
  have arranged := List.mergeSort_perm (tokens.map canonical) fun a b => decide (a ≤ b)
  rw [sorted] at arranged
  exact arranged.symm.trans (List.mergeSort_perm _ _)

/-- The text of a list of tokens is the same for every order. -/
theorem tokensText_perm {tokens others : List Json} (h : tokens.Perm others) :
    tokensText tokens = tokensText others := by
  have sorted (texts : List String) :
      (texts.mergeSort fun a b => decide (a ≤ b)).Pairwise fun a b => decide (a ≤ b) = true :=
    List.pairwise_mergeSort (fun a b c => by simpa using String.le_trans)
      (fun a b => by simpa using String.le_total a b) texts
  have arranged := ((List.mergeSort_perm (tokens.map canonical) fun a b => decide (a ≤ b)).trans
    (h.map canonical)).trans
      (List.mergeSort_perm (others.map canonical) fun a b => decide (a ≤ b)).symm
  have same := arranged.eq_of_pairwise
    (fun a b _ _ below above => String.le_antisymm (by simpa using below) (by simpa using above))
    (sorted _) (sorted _)
  rw [tokensText, same, tokensText]

theorem length_short (s : String) : (Digest.short s).toList.length = 16 := by
  simp [Digest.short, Digest.hexText, Digest.sha256, length_hexPadded]

theorem parse_inj {a b : String} (h : parse a = parse b) : a = b := by
  have texts := congrArg String.toList h
  simp only [parse, String.toList_append] at texts
  exact String.toList_inj.1 (List.append_cancel_left texts)

/-- The key of a sheet gives away both digests. -/
theorem generation_inj {a b c d : String}
    (h : generation (Digest.short a) (Digest.short b) =
      generation (Digest.short c) (Digest.short d)) :
    Digest.short a = Digest.short c ∧ Digest.short b = Digest.short d := by
  have texts := congrArg String.toList h
  simp only [generation, String.toList_append, List.append_assoc] at texts
  obtain ⟨first, rest⟩ := List.append_inj (List.append_cancel_left texts)
    (by rw [length_short, length_short])
  exact ⟨String.toList_inj.1 first, String.toList_inj.1 (List.append_cancel_left rest)⟩

/-- The key of a rule gives away its selector and the digest. -/
theorem rule_inj {selector other a b : String}
    (h : rule selector (Digest.short a) = rule other (Digest.short b)) :
    selector = other ∧ Digest.short a = Digest.short b := by
  have texts := congrArg String.toList h
  simp only [rule, String.toList_append] at texts
  obtain ⟨front, digest⟩ := List.append_inj' texts (by rw [length_short, length_short])
  refine ⟨String.toList_inj.1 ?_, String.toList_inj.1 digest⟩
  exact List.append_cancel_left (List.append_cancel_right front)

end CacheKey

/-- The key of a kind that belongs to what it is looked up by. -/
def KeyKind.Justified (kind : KeyKind) (lookup key : String) : Prop :=
  match kind with
  | .parse => key = CacheKey.parse lookup
  | .generation =>
    ∃ tokens options, lookup = CacheKey.pair (CacheKey.tokensText tokens) options ∧
      key = CacheKey.generation (Digest.short (CacheKey.tokensText tokens)) (Digest.short options)
  | .rule =>
    ∃ selector declarations : String, IsPrinted declarations.toList ∧
      lookup = CacheKey.pair selector declarations ∧
      key = CacheKey.rule selector (Digest.short declarations)
  | .hash => key = Digest.short lookup

namespace KeyMemo

variable {memo : KeyMemo} {kind : KeyKind} {lookup : String}

/-- The entries of a list hold keys that belong to what they are looked up by. -/
def Justified (kind : KeyKind) (entries : List MemoEntry) : Prop :=
  ∀ entry ∈ entries, kind.Justified entry.lookup entry.key

/-- Every key that the memo holds belongs to what it is looked up by. -/
def Sound (memo : KeyMemo) : Prop := ∀ kind, Justified kind (memo.table kind).entries

theorem Sound.setTable (h : memo.Sound) (table : MemoTable)
    (new : Justified kind table.entries) : (memo.setTable kind table).Sound := by
  intro other
  by_cases same : other = kind
  · subst same
    rwa [table_setTable_self]
  · rw [table_setTable_of_ne same]
    exact h other

theorem Justified.touch {table : MemoTable} (h : Justified kind table.entries) :
    Justified kind (table.touch lookup).entries := by
  intro entry mem
  obtain ⟨old, hold, rfl⟩ := List.mem_map.1 mem
  split
  · exact h old hold
  · exact h old hold

theorem Justified.add {table : MemoTable} (h : Justified kind table.entries) {key : String}
    (new : kind.Justified lookup key) : Justified kind (table.add lookup key).entries := by
  intro entry mem
  rcases List.mem_append.1 mem with old | last
  · exact h entry old
  · rw [List.mem_singleton.1 last]
    exact new

theorem Justified.filter {entries : List MemoEntry} (h : Justified kind entries)
    (p : MemoEntry → Bool) : Justified kind (entries.filter p) :=
  fun entry mem => h entry (List.mem_filter.1 mem).1

theorem Sound.makeRoom (h : memo.Sound) (kind : KeyKind) : (memo.makeRoom kind).Sound := by
  unfold KeyMemo.makeRoom
  dsimp only
  split
  · exact h
  · have kept := h.setTable { memo.table kind with
        entries := MemoTable.dropColdest
          (memo.evictionCount (memo.table kind).entries.length) (memo.table kind).entries }
      ((h kind).filter _)
    intro other
    have := kept other
    cases other <;> exact this

theorem Sound.missed (h : memo.Sound) (kind : KeyKind) : (memo.missed kind).Sound := by
  have counted :=
    h.setTable { memo.table kind with misses := (memo.table kind).misses + 1 } (h kind)
  exact counted.makeRoom kind

theorem Sound.mapEntries (h : memo.Sound) (p : MemoEntry → Bool) :
    (memo.mapEntries (List.filter p)).Sound := by
  intro kind
  have := (h kind).filter p
  cases kind <;> exact this

/-- **What is remembered is right.** If a key that has to be built is built right from any sound
memo, then the key that is given is right, and the memo stays sound. -/
theorem Sound.remember (h : memo.Sound) (kind : KeyKind) (lookup : String)
    {build : KeyMemo → KeyMemo × String}
    (right : ∀ other : KeyMemo, other.Sound →
      (build other).1.Sound ∧ kind.Justified lookup (build other).2) :
    (memo.remember kind lookup build).1.Sound ∧
      kind.Justified lookup (memo.remember kind lookup build).2 := by
  have counted : ({ memo with accesses := memo.accesses + 1 } : KeyMemo).Sound := by
    intro other
    have := h other
    cases other <;> exact this
  unfold KeyMemo.remember
  dsimp only
  split
  · next entry found =>
    have same : entry.lookup = lookup := by simpa using List.find?_some found
    refine ⟨counted.setTable _ ((counted kind).touch), ?_⟩
    rw [← same]
    exact counted kind entry (List.mem_of_find?_eq_some found)
  -- a miss: room is made before the key is built, which may use the memo itself
  · obtain ⟨sound, key⟩ := right _ (counted.missed kind)
    exact ⟨sound.setTable _ ((sound kind).add key), key⟩

theorem Sound.hashOf (h : memo.Sound) (text : String) :
    (memo.hashOf text).1.Sound ∧ (memo.hashOf text).2 = Digest.short text :=
  h.remember .hash text fun _ sound => ⟨sound, rfl⟩

theorem Sound.parseKey (h : memo.Sound) (name : String) :
    (memo.parseKey name).1.Sound ∧ (memo.parseKey name).2 = CacheKey.parse name :=
  h.remember .parse name fun _ sound => ⟨sound, rfl⟩

/-- The key of a sheet, as it is built without a memo. -/
theorem Sound.generationKey (h : memo.Sound) (tokens : List Json) (options : Json) :
    (memo.generationKey tokens options).1.Sound ∧
      (memo.generationKey tokens options).2 =
        CacheKey.generation (Digest.short (CacheKey.tokensText tokens))
          (Digest.short options.canonical) := by
  simp only [KeyMemo.generationKey]
  refine (h.remember .generation
    (CacheKey.pair (CacheKey.tokensText tokens) options.canonical) ?_).imp_right ?_
  · intro other sound
    obtain ⟨sound₁, first⟩ := sound.hashOf (CacheKey.tokensText tokens)
    obtain ⟨sound₂, second⟩ := sound₁.hashOf options.canonical
    exact ⟨sound₂, tokens, options.canonical, rfl, by simp only [first, second]⟩
  -- the remembered key may come from other tokens with the same text
  rintro ⟨others, text, same, key⟩
  obtain ⟨first, rfl⟩ := CacheKey.pair_inj_left (CacheKey.isPrinted_tokensText _)
    (CacheKey.isPrinted_tokensText _) same
  rw [key, first]

/-- The key of a rule with printed declarations, as it is built without a memo. -/
theorem Sound.ruleKey (h : memo.Sound) (selector : String) {declarations : Json}
    (printed : IsPrinted declarations.canonical.toList) :
    (memo.ruleKey selector declarations).1.Sound ∧
      (memo.ruleKey selector declarations).2 =
        CacheKey.rule selector (Digest.short declarations.canonical) := by
  simp only [KeyMemo.ruleKey]
  refine (h.remember .rule (CacheKey.pair selector declarations.canonical) ?_).imp_right ?_
  · intro other sound
    obtain ⟨sound₁, digest⟩ := sound.hashOf declarations.canonical
    exact ⟨sound₁, selector, declarations.canonical, printed, rfl, by simp only [digest]⟩
  rintro ⟨other, text, hprinted, same, key⟩
  obtain ⟨rfl, rfl⟩ := CacheKey.pair_inj_right printed hprinted same
  exact key

theorem Sound.optimize (h : memo.Sound) : memo.optimize.1.Sound := h.mapEntries _

theorem sound_clear (memo : KeyMemo) : memo.clear.Sound := by
  intro kind entry mem
  cases kind <;> simp [KeyMemo.clear, KeyMemo.mapEntries, KeyMemo.table] at mem

theorem sound_ofLimits {capacity : Int} {fraction : Json.Number}
    (h : ofLimits capacity fraction = .ok memo) : memo.Sound := by
  simp only [ofLimits] at h
  split at h
  · cases h
  · split at h
    · cases h
    · obtain rfl := Except.ok.inj h
      intro kind entry mem
      cases kind <;> simp [KeyMemo.table, MemoTable.empty] at mem

end KeyMemo

end BracketCss
