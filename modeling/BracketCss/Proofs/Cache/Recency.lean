import BracketCss.Proofs.Cache.Tier
import Mathlib.Data.List.Dedup
import Mathlib.Data.List.DropRight
import Mathlib.Data.List.Induction

/-!
# Tiers in use

A history of a tier: entries are written, read, looked up and removed, and time passes. The keys
stand in the order of their last uses, a use being a write or a read that finds its entry. As long
as an entry goes for want of room only, the keys are those that were used most recently. The order
of last uses is `List.dedup` of all uses, which keeps the last occurrence of each key.

## Main definitions

* `TierEvent`, `TimedTier.perform`, `TimedTier.run`: what a tier is asked, and what becomes of it
* `TimedTier.along f t events`: what a function of a tier and an event yields along a history
* `TimedTier.uses t events`: the keys that are used along a history
* `renew capacity key keys`: the keys after one of them, or a new one, was used

## Main results

* `TimedTier.perform_keys`: what an event does to the keys
* `TimedTier.sublist_uses_run`: the keys stand in the order of their last uses
* `TimedTier.keys_run_of_quiet`: the keys are the most recently used ones
-/

namespace BracketCss

/-- What a tier is asked to do, and the passing of time. -/
inductive TierEvent (α : Type) where
  | get (key : String)
  | set (key : String) (value : α)
  | has (key : String)
  | delete (key : String)
  | clear
  | sweep (age : Duration)
  | tick (seconds : Rat)

/-- Nothing is removed on request. -/
def TierEvent.IsQuiet {α : Type} : TierEvent α → Prop
  | delete _ | clear | sweep _ => False
  | get _ | set _ _ | has _ | tick _ => True

/-- A tier with the time on its clock. -/
structure TimedTier (α : Type) where
  tier : CacheTier α
  now : Rat

variable {α : Type}

/-! ## The operations -/

namespace CacheTier

variable {tier : CacheTier α} {key : String}

theorem length_keys (tier : CacheTier α) : tier.keys.length = tier.size := List.length_map _

theorem isSome_find?_iff : (tier.find? key).isSome ↔ key ∈ tier.keys := by
  simp [find?, keys]

theorem keys_others (tier : CacheTier α) (key : String) :
    (tier.others key).map (·.key) = tier.keys.filter (· != key) := by
  rw [keys, List.filter_map]
  rfl

theorem get_cases (tier : CacheTier α) (now : Rat) (key : String) :
    (key ∉ tier.keys ∧ tier.get now key = ({ tier with misses := tier.misses + 1 }, none)) ∨
      (key ∈ tier.keys ∧ tier.get now key =
        ({ tier with
            entries := tier.others key
            expirations := tier.expirations + 1
            misses := tier.misses + 1 }, none)) ∨
      (key ∈ tier.keys ∧ ∃ entry : CacheEntry α, entry.key = key ∧ tier.get now key =
        ({ tier with entries := tier.others key ++ [entry], hits := tier.hits + 1 },
          some entry.value)) := by
  unfold get
  split
  · next absent =>
    refine .inl ⟨fun present => ?_, rfl⟩
    rw [← isSome_find?_iff, absent] at present
    cases present
  · next entry found =>
    have present : key ∈ tier.keys := isSome_find?_iff.1 (by rw [found]; rfl)
    split
    · exact .inr (.inl ⟨present, rfl⟩)
    · exact .inr (.inr ⟨present, entry, by simpa using List.find?_some found, rfl⟩)

theorem set_cases (tier : CacheTier α) (now : Rat) (key : String) (value : α) :
    (key ∈ tier.keys ∧ tier.set now key value =
        { tier with entries := tier.others key ++ [⟨key, value, now⟩] }) ∨
      (key ∉ tier.keys ∧ tier.capacity ≤ tier.size ∧ tier.set now key value =
        { tier with
            entries := tier.entries.tail ++ [⟨key, value, now⟩]
            evictions := tier.evictions + 1 }) ∨
      (key ∉ tier.keys ∧ tier.size < tier.capacity ∧ tier.set now key value =
        { tier with entries := tier.entries ++ [⟨key, value, now⟩] }) := by
  unfold set
  dsimp only
  split
  · next present => exact .inl ⟨isSome_find?_iff.1 present, rfl⟩
  · next absent =>
    rw [isSome_find?_iff] at absent
    split
    · next full => exact .inr (.inl ⟨absent, full, rfl⟩)
    · next room => exact .inr (.inr ⟨absent, Nat.lt_of_not_le room, rfl⟩)

theorem has_cases (tier : CacheTier α) (now : Rat) (key : String) :
    (tier.has now key).1 = tier ∨ key ∈ tier.keys ∧ (tier.has now key).1 =
      { tier with entries := tier.others key, expirations := tier.expirations + 1 } := by
  unfold has
  split
  · exact .inl rfl
  · next entry found =>
    split
    · exact .inr ⟨isSome_find?_iff.1 (by rw [found]; rfl), rfl⟩
    · exact .inl rfl

end CacheTier

/-! ## Histories -/

namespace TimedTier

/-- The tier after an event. -/
def perform (t : TimedTier α) : TierEvent α → TimedTier α
  | .get key => { t with tier := (t.tier.get t.now key).1 }
  | .set key value => { t with tier := t.tier.set t.now key value }
  | .has key => { t with tier := (t.tier.has t.now key).1 }
  | .delete key => { t with tier := (t.tier.delete key).1 }
  | .clear => { t with tier := t.tier.clear }
  | .sweep age => { t with tier := (t.tier.sweep t.now age).1 }
  | .tick seconds => { t with now := t.now + seconds }

/-- The tier after some events. -/
def run (t : TimedTier α) (events : List (TierEvent α)) : TimedTier α := events.foldl perform t

/-- What a function of a tier and an event yields along a history. -/
def along {β : Type} (f : TimedTier α → TierEvent α → β) (t : TimedTier α) :
    List (TierEvent α) → List β
  | [] => []
  | event :: events => f t event :: (t.perform event).along f events

/-- The key that an event uses, if it does: a write uses its key, and a read that finds an entry. -/
def used (t : TimedTier α) : TierEvent α → List String
  | .get key => if (t.tier.get t.now key).2.isSome then [key] else []
  | .set key _ => [key]
  | _ => []

/-- The keys that are used along a history. -/
def uses (t : TimedTier α) (events : List (TierEvent α)) : List String :=
  (t.along used events).flatten

section Along

variable {β : Type} {f : TimedTier α → TierEvent α → β}

theorem run_concat (t : TimedTier α) (events : List (TierEvent α)) (event : TierEvent α) :
    t.run (events ++ [event]) = (t.run events).perform event := by
  rw [run, List.foldl_concat]
  rfl

theorem along_concat (t : TimedTier α) (events : List (TierEvent α)) (event : TierEvent α) :
    t.along f (events ++ [event]) = t.along f events ++ [f (t.run events) event] := by
  induction events generalizing t with
  | nil => rfl
  | cons first events ih =>
    rw [List.cons_append, along, ih, along]
    rfl

theorem uses_concat (t : TimedTier α) (events : List (TierEvent α)) (event : TierEvent α) :
    t.uses (events ++ [event]) = t.uses events ++ (t.run events).used event := by
  rw [uses, along_concat, List.flatten_append, List.flatten_singleton]
  rfl

end Along

theorem capacity_perform (t : TimedTier α) (event : TierEvent α) :
    (t.perform event).tier.capacity = t.tier.capacity := by
  cases event with
  | get key =>
    rcases t.tier.get_cases t.now key with ⟨_, h⟩ | ⟨_, h⟩ | ⟨_, _, _, h⟩ <;>
      simp only [perform, h]
  | set key value =>
    rcases t.tier.set_cases t.now key value with ⟨_, h⟩ | ⟨_, _, h⟩ | ⟨_, _, h⟩ <;>
      simp only [perform, h]
  | has key => rcases t.tier.has_cases t.now key with h | ⟨_, h⟩ <;> simp only [perform, h]
  | _ => rfl

theorem capacity_run (t : TimedTier α) (events : List (TierEvent α)) :
    (t.run events).tier.capacity = t.tier.capacity := by
  induction events using List.reverseRecOn with
  | nil => rfl
  | append_singleton events event ih => rw [run_concat, capacity_perform, ih]

end TimedTier

/-! ## One use -/

/-- The keys after one was used: it comes last, and if it is new and there is no room, the first
one goes. -/
def renew (capacity : Nat) (key : String) (keys : List String) : List String :=
  (if key ∈ keys then keys.filter (· != key)
    else if capacity ≤ keys.length then keys.tail
    else keys) ++ [key]

section Renew

variable {capacity : Nat} {key : String} {keys uses : List String}

theorem filter_ne_of_not_mem (absent : key ∉ keys) : keys.filter (· != key) = keys :=
  List.filter_eq_self.2 fun _ mem => bne_iff_ne.2 fun same => absent (same ▸ mem)

theorem length_renew_le (positive : 0 < capacity) (bounded : keys.length ≤ capacity) :
    (renew capacity key keys).length ≤ capacity := by
  unfold renew
  rw [List.length_append, List.length_singleton]
  split
  · next present =>
    have fewer : (keys.filter (· != key)).length < keys.length :=
      List.length_filter_lt_length_iff_exists.2 ⟨key, present, by simp⟩
    omega
  · split
    · rw [List.length_tail]
      omega
    · omega

/-- A use moves its key to the end of the order of last uses. -/
theorem dedup_concat (uses : List String) (key : String) :
    (uses ++ [key]).dedup = uses.dedup.filter (· != key) ++ [key] := by
  induction uses with
  | nil => simp
  | cons other uses ih =>
    rw [List.cons_append]
    by_cases again : other ∈ uses
    · rw [List.dedup_cons_of_mem (List.mem_append_left _ again), ih,
        List.dedup_cons_of_mem again]
    · rw [List.dedup_cons_of_notMem again]
      by_cases same : other = key
      · subst same
        rw [List.dedup_cons_of_mem (List.mem_append_right _ (List.mem_singleton.2 rfl)), ih,
          List.filter_cons_of_neg (by simp)]
      · rw [List.dedup_cons_of_notMem (by simp [again, same]), ih,
          List.filter_cons_of_pos (by simpa using same), List.cons_append]

/-- A use keeps the order of last uses. -/
theorem renew_sublist_dedup (order : keys.Sublist uses.dedup) :
    (renew capacity key keys).Sublist (uses ++ [key]).dedup := by
  rw [dedup_concat, renew]
  refine List.Sublist.append_right ?_ [key]
  split
  · exact order.filter _
  · next absent =>
    have kept := order.filter (· != key)
    rw [filter_ne_of_not_mem absent] at kept
    split
    · exact (List.tail_sublist keys).trans kept
    · exact kept

/-- Of the first items without a certain one: if it is among them, the others come before one item
more. -/
theorem take_filter_ne {items : List String} (nodup : items.Nodup) (n : Nat) :
    (items.filter (· != key)).take n =
      if key ∈ items.take (n + 1) then (items.take (n + 1)).filter (· != key)
      else items.take n := by
  induction items generalizing n with
  | nil => simp
  | cons item items ih =>
    obtain ⟨apart, nodup⟩ := List.nodup_cons.1 nodup
    by_cases same : item = key
    · subst same
      have apartFromFirst : item ∉ items.take n := fun mem => apart (List.mem_of_mem_take mem)
      rw [List.filter_cons_of_neg (by simp), List.take_succ_cons, if_pos List.mem_cons_self,
        List.filter_cons_of_neg (by simp), filter_ne_of_not_mem apart,
        filter_ne_of_not_mem apartFromFirst]
    · rw [List.filter_cons_of_pos (by simpa using same)]
      cases n with
      | zero => simp [Ne.symm same]
      | succ n =>
        have other : key ∈ item :: items.take (n + 1) ↔ key ∈ items.take (n + 1) := by
          simp [Ne.symm same]
        rw [List.take_succ_cons, ih nodup, List.take_succ_cons, List.take_succ_cons,
          List.filter_cons_of_pos (by simpa using same)]
        simp only [other]
        split <;> rfl

/-- The most recently used keys, and one more use. -/
theorem renew_rtake_dedup (positive : 0 < capacity) :
    renew capacity key (uses.dedup.rtake capacity) = (uses ++ [key]).dedup.rtake capacity := by
  obtain ⟨n, rfl⟩ := Nat.exists_eq_succ_of_ne_zero positive.ne'
  have nodup : uses.dedup.reverse.Nodup := List.nodup_reverse.2 (List.nodup_dedup uses)
  rw [dedup_concat, List.rtake_concat_succ, renew]
  congr 1
  rw [List.rtake_eq_reverse_take_reverse, List.rtake_eq_reverse_take_reverse,
    ← List.filter_reverse, take_filter_ne nodup]
  by_cases present : key ∈ uses.dedup.reverse.take (n + 1)
  · rw [if_pos (List.mem_reverse.2 present), if_pos present, List.filter_reverse]
  · rw [if_neg (mt List.mem_reverse.1 present), if_neg present, List.tail_reverse]
    split
    · next full =>
      simp only [List.length_reverse, List.length_take] at full
      have cut : min (n + 1) uses.dedup.length - 1 = n := by omega
      rw [List.dropLast_eq_take, List.length_take, List.length_reverse, cut, List.take_take,
        Nat.min_eq_left (Nat.le_succ n)]
    · next room =>
      simp only [List.length_reverse, List.length_take] at room
      rw [List.take_of_length_le (by simp only [List.length_reverse]; omega),
        List.take_of_length_le (by simp only [List.length_reverse]; omega)]

end Renew

/-! ## Any event -/

namespace TimedTier

/-- **What an event does to the keys**: it uses one of them, or it uses none, and then some may
go; they all stay if nothing is removed on request or found to have expired. -/
theorem perform_keys (t : TimedTier α) (event : TierEvent α) :
    (∃ key, t.used event = [key] ∧
        (t.perform event).tier.keys = renew t.tier.capacity key t.tier.keys) ∨
      t.used event = [] ∧ (t.perform event).tier.keys.Sublist t.tier.keys ∧
        (event.IsQuiet → (t.perform event).tier.expirations = t.tier.expirations →
          (t.perform event).tier.keys = t.tier.keys) := by
  have others : ∀ key, ((t.tier.others key).map (·.key)).Sublist t.tier.keys := fun key =>
    List.filter_sublist.map _
  cases event with
  | get key =>
    rcases t.tier.get_cases t.now key with ⟨_, h⟩ | ⟨_, h⟩ | ⟨present, entry, rfl, h⟩
    · refine .inr ⟨by simp [used, h], ?_, fun _ _ => ?_⟩ <;> simp only [perform, h]
      · exact List.Sublist.refl _
      · rfl
    · refine .inr ⟨by simp [used, h], ?_, fun _ same => ?_⟩ <;> simp only [perform, h] at *
      · exact others key
      · omega
    · refine .inl ⟨entry.key, by simp [used, h], ?_⟩
      rw [renew, if_pos present, ← CacheTier.keys_others]
      simp only [perform, h, CacheTier.keys, List.map_append, List.map_singleton]
  | set key value =>
    refine .inl ⟨key, rfl, ?_⟩
    rcases t.tier.set_cases t.now key value with
      ⟨present, h⟩ | ⟨absent, full, h⟩ | ⟨absent, room, h⟩
    · rw [renew, if_pos present, ← CacheTier.keys_others]
      simp only [perform, h, CacheTier.keys, List.map_append, List.map_singleton]
    · rw [renew, if_neg absent, t.tier.length_keys, if_pos full]
      simp only [perform, h, CacheTier.keys, List.map_append, List.map_singleton, List.map_tail]
    · rw [renew, if_neg absent, t.tier.length_keys, if_neg (Nat.not_le_of_lt room)]
      simp only [perform, h, CacheTier.keys, List.map_append, List.map_singleton]
  | has key =>
    rcases t.tier.has_cases t.now key with h | ⟨_, h⟩
    · refine .inr ⟨rfl, ?_, fun _ _ => ?_⟩ <;> simp only [perform, h]
      exact List.Sublist.refl _
    · refine .inr ⟨rfl, ?_, fun _ same => ?_⟩ <;> simp only [perform, h] at *
      · exact others key
      · omega
  | delete key => exact .inr ⟨rfl, others key, fun quiet => quiet.elim⟩
  | clear => exact .inr ⟨rfl, List.nil_sublist _, fun quiet => quiet.elim⟩
  | sweep age => exact .inr ⟨rfl, List.filter_sublist.map _, fun quiet => quiet.elim⟩
  | tick seconds => exact .inr ⟨rfl, List.Sublist.refl _, fun _ _ => rfl⟩

theorem expirations_le_perform (t : TimedTier α) (event : TierEvent α) :
    t.tier.expirations ≤ (t.perform event).tier.expirations := by
  cases event with
  | get key =>
    rcases t.tier.get_cases t.now key with ⟨_, h⟩ | ⟨_, h⟩ | ⟨_, _, _, h⟩ <;>
      simp only [perform, h] <;> omega
  | set key value =>
    rcases t.tier.set_cases t.now key value with ⟨_, h⟩ | ⟨_, _, h⟩ | ⟨_, _, h⟩ <;>
      simp only [perform, h] <;> omega
  | has key =>
    rcases t.tier.has_cases t.now key with h | ⟨_, h⟩ <;> simp only [perform, h] <;> omega
  | _ => exact Nat.le_refl _

/-! ## Runs -/

variable {t : TimedTier α}

theorem size_run_le (empty : t.tier.keys = []) (positive : 0 < t.tier.capacity)
    (events : List (TierEvent α)) : (t.run events).tier.size ≤ t.tier.capacity := by
  rw [← CacheTier.length_keys]
  induction events using List.reverseRecOn with
  | nil => simp [run, empty]
  | append_singleton events event ih =>
    rw [run_concat]
    rcases (t.run events).perform_keys event with ⟨key, -, keys⟩ | ⟨-, fewer, -⟩
    · rw [keys, capacity_run]
      exact length_renew_le positive ih
    · exact fewer.length_le.trans ih

/-- **The keys stand in the order of their last uses**, whatever went in between. -/
theorem sublist_uses_run (empty : t.tier.keys = []) (events : List (TierEvent α)) :
    (t.run events).tier.keys.Sublist (t.uses events).dedup := by
  induction events using List.reverseRecOn with
  | nil => simp [run, empty]
  | append_singleton events event ih =>
    rw [run_concat, uses_concat]
    rcases (t.run events).perform_keys event with ⟨key, used, keys⟩ | ⟨used, fewer, -⟩
    · rw [used, keys]
      exact renew_sublist_dedup ih
    · rw [used, List.append_nil]
      exact fewer.trans ih

theorem nodup_keys_run (empty : t.tier.keys = []) (events : List (TierEvent α)) :
    (t.run events).tier.keys.Nodup :=
  (List.nodup_dedup _).sublist (sublist_uses_run empty events)

/-- **The keys are the most recently used ones**, as many as there is room for, if an entry goes
for want of room only. -/
theorem keys_run_of_quiet (empty : t.tier.keys = []) (positive : 0 < t.tier.capacity)
    {events : List (TierEvent α)} (quiet : ∀ event ∈ events, event.IsQuiet)
    (lasting : (t.run events).tier.expirations = t.tier.expirations) :
    (t.run events).tier.keys = (t.uses events).dedup.rtake t.tier.capacity := by
  -- nothing has expired before the last event either, since the count never decreases
  have grows : ∀ events, t.tier.expirations ≤ (t.run events).tier.expirations := by
    intro events
    induction events using List.reverseRecOn with
    | nil => exact Nat.le_refl _
    | append_singleton events event ih =>
      rw [run_concat]
      exact ih.trans (expirations_le_perform _ _)
  induction events using List.reverseRecOn with
  | nil => simp [run, uses, along, empty]
  | append_singleton events event ih =>
    obtain ⟨before, last⟩ := List.forall_mem_append.1 quiet
    rw [run_concat] at lasting ⊢
    have step := expirations_le_perform (t.run events) event
    have still : (t.run events).tier.expirations = t.tier.expirations := by
      have := grows events
      omega
    have keys := ih before still
    rw [uses_concat]
    rcases (t.run events).perform_keys event with ⟨key, used, renewed⟩ | ⟨used, -, stay⟩
    · rw [used, renewed, keys, capacity_run, renew_rtake_dedup positive]
    · rw [used, List.append_nil, stay (last event (List.mem_singleton.2 rfl)) (by omega), keys]

end TimedTier

end BracketCss
