import BracketCss.Cache.Tier

/-!
# What a tier keeps

A tier invents nothing: every operation keeps entries that were there or adds the one that is set.
So a property of all entries survives as long as it holds of what is set, and what is read has it.

## Main definitions

* `CacheTier.All P tier`: every entry has the property

## Main results

* `get_set`: what was set is read
* `All.get`, `All.value_of_get`, `All.set`, `All.sweep`: the operations keep the property, and a
  value that is read has it
-/

namespace BracketCss.CacheTier

variable {α : Type} {P Q : String → α → Prop} {tier : CacheTier α}

/-- Every entry of a tier has a property of its key and its value. -/
def All (P : String → α → Prop) (tier : CacheTier α) : Prop :=
  ∀ entry ∈ tier.entries, P entry.key entry.value

theorem All.imp (h : tier.All P) (imp : ∀ key value, P key value → Q key value) : tier.All Q :=
  fun entry mem => imp _ _ (h entry mem)

theorem all_ofLimits {capacity : Int} {lifetime : Json.Number}
    (h : ofLimits capacity lifetime = .ok tier) : tier.All P := by
  simp only [ofLimits] at h
  split at h
  · cases h
  · split at h
    · cases h
    · obtain rfl := Except.ok.inj h
      simp [All]

theorem mem_others {key : String} {entry : CacheEntry α} (h : entry ∈ tier.others key) :
    entry ∈ tier.entries := (List.mem_filter.1 h).1

theorem all_append_singleton {entries : List (CacheEntry α)} {key : String} {value : α}
    {stamp : Rat} (kept : ∀ entry ∈ entries, P entry.key entry.value) (new : P key value) :
    ∀ entry ∈ entries ++ [⟨key, value, stamp⟩], P entry.key entry.value := by
  intro entry mem
  rcases List.mem_append.1 mem with old | last
  · exact kept entry old
  · rw [List.mem_singleton.1 last]
    exact new

@[simp] theorem lifetime_get (tier : CacheTier α) (now : Rat) (key : String) :
    (tier.get now key).1.lifetime = tier.lifetime := by
  unfold CacheTier.get
  split
  · rfl
  · split <;> rfl

theorem All.get (h : tier.All P) (now : Rat) (key : String) : (tier.get now key).1.All P := by
  intro entry mem
  unfold CacheTier.get at mem
  split at mem
  · exact h entry mem
  · next found hit =>
    split at mem
    · exact h entry (mem_others mem)
    · rcases List.mem_append.1 mem with old | last
      · exact h entry (mem_others old)
      · rw [List.mem_singleton.1 last]
        exact h found (List.mem_of_find?_eq_some hit)

/-- What is read under a key was kept under it. -/
theorem All.value_of_get (h : tier.All P) {now : Rat} {key : String} {value : α}
    (read : (tier.get now key).2 = some value) : P key value := by
  unfold CacheTier.get at read
  split at read
  · cases read
  · next found hit =>
    split at read
    · cases read
    · obtain rfl := Option.some.inj read
      have same : found.key = key := by simpa using List.find?_some hit
      rw [← same]
      exact h found (List.mem_of_find?_eq_some hit)

theorem All.set (h : tier.All P) (now : Rat) {key : String} {value : α} (new : P key value) :
    (tier.set now key value).All P := by
  unfold CacheTier.set
  dsimp only
  split
  · exact all_append_singleton (fun entry mem => h entry (mem_others mem)) new
  · split
    · exact all_append_singleton (fun entry mem => h entry (List.mem_of_mem_tail mem)) new
    · exact all_append_singleton h new

theorem find?_of_last {entries : List (CacheEntry α)} {key : String} {value : α} {stamp : Rat}
    (last : tier.entries = entries ++ [⟨key, value, stamp⟩])
    (new : ∀ old ∈ entries, old.key ≠ key) :
    tier.find? key = some ⟨key, value, stamp⟩ := by
  have absent : entries.find? (fun old => old.key == key) = none := by
    rw [List.find?_eq_none]
    intro old mem same
    exact new old mem (by simpa using same)
  rw [find?, last, List.find?_append, absent]
  simp

/-- What was set is read, since no time has passed. -/
theorem get_set (alive : tier.lifetime.isOver 0 = false) (now : Rat) (key : String) (value : α) :
    ((tier.set now key value).get now key).2 = some value := by
  obtain ⟨found, lifetime⟩ : (tier.set now key value).find? key = some ⟨key, value, now⟩ ∧
      (tier.set now key value).lifetime = tier.lifetime := by
    unfold CacheTier.set
    dsimp only
    split
    · refine ⟨find?_of_last rfl fun old mem => ?_, rfl⟩
      simpa using (List.mem_filter.1 mem).2
    · next absent =>
      have new : ∀ old ∈ tier.entries, old.key ≠ key := by
        intro old mem same
        simp only [find?, List.find?_isSome, not_exists, not_and] at absent
        exact absent old mem (by simpa using same)
      split
      · exact ⟨find?_of_last rfl fun old mem => new old (List.mem_of_mem_tail mem), rfl⟩
      · exact ⟨find?_of_last rfl new, rfl⟩
  have fresh : (tier.set now key value).isExpired now ⟨key, value, now⟩ = false := by
    rw [isExpired, lifetime, Rat.sub_self, alive]
  simp only [CacheTier.get, found, fresh, Bool.false_eq_true, if_false]

theorem All.clear : tier.clear.All P := by simp [All, CacheTier.clear]

theorem All.sweep (h : tier.All P) (now : Rat) (age : Duration) :
    (tier.sweep now age).1.All P :=
  fun entry mem => h entry (List.mem_filter.1 mem).1

theorem get_of_nil (h : tier.entries = []) (now : Rat) (key : String) :
    (tier.get now key).2 = none := by
  simp [CacheTier.get, find?, h]

theorem entries_ofLimits {capacity : Int} {lifetime : Json.Number}
    (h : ofLimits capacity lifetime = .ok tier) : tier.entries = [] :=
  List.eq_nil_iff_forall_not_mem.2 fun _ mem => all_ofLimits (P := fun _ _ => False) h _ mem

end BracketCss.CacheTier
