import BracketCss.Proofs.Cache.Recency
import Mathlib.Algebra.GroupWithZero.Nat

/-!
# The books of a tier

Every read is counted as a hit or a miss, and every entry that was added is still there or is
counted where it went: evicted, expired, or removed on request.

## Main definitions

* `TimedTier.added`, `TimedTier.removed`: the entries that an event adds, and those that it removes
  on request

## Main results

* `TimedTier.perform_reads`, `TimedTier.perform_entries`: the balance of one event
* `CacheTier.ledger_of_run`: order, bounds and books of a tier after any history
-/

namespace BracketCss

variable {α : Type}

/-- The event is a read. -/
def TierEvent.isRead : TierEvent α → Bool
  | get _ => true
  | _ => false

namespace CacheTier

theorem length_others {tier : CacheTier α} {key : String} (nodup : tier.keys.Nodup)
    (present : key ∈ tier.keys) : (tier.others key).length + 1 = tier.size := by
  have count := List.length_erase_of_mem present
  have positive := List.length_pos_of_mem present
  rw [nodup.erase_eq_filter, ← keys_others, List.length_map, length_keys] at count
  rw [length_keys] at positive
  omega

end CacheTier

namespace TimedTier

/-- The number of entries that an event adds: one for a write under a key that has no entry. -/
def added (t : TimedTier α) : TierEvent α → Nat
  | .set key _ => if key ∈ t.tier.keys then 0 else 1
  | _ => 0

/-- The number of entries that an event removes on request, as it is answered: one for a deletion
that finds its entry, all for a clearing, and those that a sweep counts. -/
def removed (t : TimedTier α) : TierEvent α → Nat
  | .delete key => if (t.tier.delete key).2 then 1 else 0
  | .clear => t.tier.size
  | .sweep age => (t.tier.sweep t.now age).2
  | _ => 0

/-- A read is a hit or a miss. -/
theorem perform_reads (t : TimedTier α) (event : TierEvent α) :
    (t.perform event).tier.hits + (t.perform event).tier.misses =
      t.tier.hits + t.tier.misses + (if event.isRead then 1 else 0) := by
  cases event with
  | get key =>
    rcases t.tier.get_cases t.now key with ⟨_, h⟩ | ⟨_, h⟩ | ⟨_, _, _, h⟩ <;>
      simp only [perform, h, TierEvent.isRead, if_true] <;> omega
  | set key value =>
    rcases t.tier.set_cases t.now key value with ⟨_, h⟩ | ⟨_, _, h⟩ | ⟨_, _, h⟩ <;>
      simp only [perform, h] <;> rfl
  | has key => rcases t.tier.has_cases t.now key with h | ⟨_, h⟩ <;> simp only [perform, h] <;> rfl
  | _ => rfl

/-- **An event keeps the books balanced**: the entries that were there and those that it adds are
there still, or counted where they went. -/
theorem perform_entries {t : TimedTier α} (nodup : t.tier.keys.Nodup)
    (positive : 0 < t.tier.capacity) (event : TierEvent α) :
    (t.perform event).tier.size + (t.perform event).tier.evictions +
        (t.perform event).tier.expirations + t.removed event =
      t.tier.size + t.tier.evictions + t.tier.expirations + t.added event := by
  have others : ∀ {key}, key ∈ t.tier.keys → (t.tier.others key).length + 1 = t.tier.size :=
    fun present => CacheTier.length_others nodup present
  cases event with
  | get key =>
    rcases t.tier.get_cases t.now key with ⟨_, h⟩ | ⟨present, h⟩ | ⟨present, entry, _, h⟩ <;>
      simp only [perform, h, removed, added, CacheTier.size, List.length_append,
        List.length_singleton]
    · have := others present
      simp only [CacheTier.size] at this
      omega
    · have := others present
      simp only [CacheTier.size] at this
      omega
  | set key value =>
    rcases t.tier.set_cases t.now key value with
      ⟨present, h⟩ | ⟨absent, full, h⟩ | ⟨absent, room, h⟩
    · have := others present
      simp only [perform, h, removed, added, if_pos present, CacheTier.size, List.length_append,
        List.length_singleton] at this ⊢
      omega
    · simp only [perform, h, removed, added, if_neg absent, CacheTier.size, List.length_append,
        List.length_singleton, List.length_tail] at full ⊢
      omega
    · simp only [perform, h, removed, added, if_neg absent, CacheTier.size, List.length_append,
        List.length_singleton]
      omega
  | has key =>
    rcases t.tier.has_cases t.now key with h | ⟨present, h⟩ <;>
      simp only [perform, h, removed, added]
    have := others present
    simp only [CacheTier.size] at this ⊢
    omega
  | delete key =>
    by_cases present : key ∈ t.tier.keys
    · have := others present
      simp only [perform, removed, added, CacheTier.delete, CacheTier.isSome_find?_iff, present,
        if_true, CacheTier.size] at this ⊢
      omega
    · have same : t.tier.others key = t.tier.entries := by
        refine List.filter_eq_self.2 fun entry mem => bne_iff_ne.2 fun same => present ?_
        rw [← same]
        exact List.mem_map_of_mem mem
      simp only [perform, removed, added, CacheTier.delete, CacheTier.isSome_find?_iff, present,
        if_false, CacheTier.size, same]
  | clear =>
    simp only [perform, removed, added, CacheTier.clear, CacheTier.size, List.length_nil]
    omega
  | sweep age =>
    have fewer : (t.tier.entries.filter fun entry =>
        !age.isOver (t.now - entry.stamp)).length ≤ t.tier.entries.length :=
      List.length_filter_le _ _
    simp only [perform, removed, added, CacheTier.sweep, CacheTier.size]
    omega
  | tick seconds => rfl

variable {t : TimedTier α}

theorem reads_run (events : List (TierEvent α)) :
    (t.run events).tier.hits + (t.run events).tier.misses =
      t.tier.hits + t.tier.misses + events.countP TierEvent.isRead := by
  induction events using List.reverseRecOn with
  | nil => rfl
  | append_singleton events event ih =>
    rw [run_concat, perform_reads, ih, List.countP_append, List.countP_singleton, Nat.add_assoc]

/-- **A history keeps the books balanced.** -/
theorem entries_run (empty : t.tier.keys = []) (positive : 0 < t.tier.capacity)
    (events : List (TierEvent α)) :
    (t.run events).tier.size + (t.run events).tier.evictions +
        (t.run events).tier.expirations + (t.along removed events).sum =
      t.tier.size + t.tier.evictions + t.tier.expirations + (t.along added events).sum := by
  induction events using List.reverseRecOn with
  | nil => rfl
  | append_singleton events event ih =>
    have step := perform_entries (nodup_keys_run empty events)
      (by rw [capacity_run]; exact positive) event
    rw [run_concat, along_concat, along_concat, List.sum_append, List.sum_append,
      List.sum_singleton, List.sum_singleton]
    omega

end TimedTier

namespace CacheTier

theorem ofLimits_eq_ok {capacity : Int} {lifetime : Json.Number} {tier : CacheTier α}
    (h : ofLimits capacity lifetime = .ok tier) :
    1 ≤ capacity ∧ tier = ⟨capacity.toNat, .ofNumber lifetime, [], 0, 0, 0, 0⟩ := by
  simp only [ofLimits] at h
  split at h
  · cases h
  · split at h
    · cases h
    · exact ⟨by omega, (Except.ok.inj h).symm⟩

/-- **Order, bounds and books of a tier.** After any history the keys are distinct, as many as there
is room for at most, and in the order of their last uses; they are the most recently used ones if
nothing has expired and nothing was removed on request. Reads are hits or misses, and every entry
that was added is there still, or counted where it went. -/
theorem ledger_of_run {capacity : Int} {lifetime : Json.Number} {tier : CacheTier α}
    (h : ofLimits capacity lifetime = .ok tier) (start : Rat) (events : List (TierEvent α)) :
    let first : TimedTier α := ⟨tier, start⟩
    let last := (first.run events).tier
    last.keys.Nodup ∧ (last.size : Int) ≤ capacity ∧
      last.keys.Sublist (first.uses events).dedup ∧
      ((∀ event ∈ events, event.IsQuiet) → last.expirations = 0 →
        last.keys = (first.uses events).dedup.rtake capacity.toNat) ∧
      last.hits + last.misses = events.countP TierEvent.isRead ∧
      (first.along TimedTier.added events).sum =
        last.size + last.evictions + last.expirations +
          (first.along TimedTier.removed events).sum := by
  intro first last
  obtain ⟨positive, rfl⟩ := ofLimits_eq_ok h
  have empty : first.tier.keys = [] := rfl
  have room : 0 < first.tier.capacity := by
    show 0 < capacity.toNat
    omega
  have bounded : last.size ≤ capacity.toNat := TimedTier.size_run_le empty room events
  have reads := TimedTier.reads_run (t := first) events
  have entries := TimedTier.entries_run empty room events
  refine ⟨TimedTier.nodup_keys_run empty events, by omega,
    TimedTier.sublist_uses_run empty events,
    fun quiet lasting => TimedTier.keys_run_of_quiet empty room quiet lasting, ?_, ?_⟩
  · exact reads.trans (Nat.zero_add _)
  · have start : first.tier.size + first.tier.evictions + first.tier.expirations = 0 := rfl
    rw [start, Nat.zero_add] at entries
    exact entries.symm

/-- In a tier for two, the entry that was read stays and the other one goes. -/
theorem ledger_of_run_two :
    ∃ tier : CacheTier Nat, ofLimits 2 (.whole 10) = .ok tier ∧
      ((TimedTier.mk tier 0).run [.set "a" 1, .set "b" 2, .tick 5, .get "a", .get "d",
        .set "c" 3]).tier.keys = ["a", "c"] := by
  obtain ⟨tier, made⟩ : ∃ tier : CacheTier Nat, ofLimits 2 (.whole 10) = .ok tier := ⟨_, rfl⟩
  refine ⟨tier, made, ?_⟩
  obtain ⟨-, -, -, recent, -⟩ :=
    ledger_of_run made 0 [.set "a" 1, .set "b" 2, .tick 5, .get "a", .get "d", .set "c" 3]
  obtain rfl := Except.ok.inj made
  rw [recent (by simp [TierEvent.IsQuiet]) (by decide +kernel)]
  decide +kernel

end CacheTier

end BracketCss
