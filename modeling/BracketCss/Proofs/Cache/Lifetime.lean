import BracketCss.Proofs.Cache.Entries
import BracketCss.Proofs.Cache.Ledger
import Mathlib.Algebra.Order.Ring.Rat

/-!
# How long an entry lives

A tier answers with the value that was written last under a key, or not at all. It answers as long
as the lifetime has not passed since the write, unless the entry was removed on request or gave its
place to a new one. Only a write sets the time from which the life of an entry counts: lookups
neither prolong it nor shorten it.

## Main definitions

* `TierEvent.Writes`, `TierEvent.Replaces`: an event writes under a key, or ends what was written
* `TimedTier.Removes`, `TimedTier.Spares`: an event takes a live entry away, and none of a history
  does
* `TierEvent.IsLookup`: reads, questions and the passing of time

## Main results

* `TimedTier.mem_perform_iff`: the entries after an event
* `TimedTier.exists_write_of_mem_run`: where an entry comes from
* `TimedTier.get_run_of_spares`: a value that is spared is read while it lives
* `CacheTier.latest_of_run`: what is read after any history
-/

namespace BracketCss

variable {α : Type}

/-- What is not over was not over before. -/
theorem Duration.isOver_eq_false_of_le {duration : Duration} {earlier later : Rat}
    (le : earlier ≤ later) (h : duration.isOver later = false) :
    duration.isOver earlier = false := by
  cases duration with
  | seconds s => exact decide_eq_false fun less => of_decide_eq_false h (less.trans_le le)
  | infinite negative => exact h
  | undefined => rfl

/-! ## Entries -/

namespace CacheTier

variable {tier : CacheTier α} {now : Rat} {key : String} {entry : CacheEntry α}

theorem find?_eq_some_iff (nodup : tier.keys.Nodup) :
    tier.find? key = some entry ↔ entry ∈ tier.entries ∧ entry.key = key :=
  find?_key_eq_some_iff nodup

theorem mem_others_iff : entry ∈ tier.others key ↔ entry ∈ tier.entries ∧ entry.key ≠ key := by
  rw [others, List.mem_filter, bne_iff_ne]

/-- The first entry is the one that goes when room is needed. -/
theorem mem_tail_iff (nodup : tier.keys.Nodup) :
    entry ∈ tier.entries.tail ↔ entry ∈ tier.entries ∧ tier.keys.head? ≠ some entry.key := by
  unfold keys at nodup ⊢
  cases held : tier.entries with
  | nil => simp
  | cons first rest =>
    rw [held] at nodup
    have apart : entry ∈ rest → first.key ≠ entry.key := fun mem same =>
      (List.nodup_cons.1 nodup).1 (List.mem_map.2 ⟨entry, mem, same.symm⟩)
    rw [List.tail_cons, List.mem_cons, List.map_cons, List.head?_cons, Ne, Option.some.injEq]
    constructor
    · exact fun mem => ⟨.inr mem, apart mem⟩
    · rintro ⟨rfl | mem, other⟩
      · exact absurd rfl other
      · exact mem

/-- A read takes its own entry away if it has expired, and no other one. -/
theorem mem_get_iff (nodup : tier.keys.Nodup) :
    entry ∈ (tier.get now key).1.entries ↔
      entry ∈ tier.entries ∧ (entry.key = key → tier.isExpired now entry = false) := by
  unfold get
  split
  · next absent =>
    refine ⟨fun mem => ⟨mem, fun same => ?_⟩, And.left⟩
    rw [(find?_eq_some_iff nodup).2 ⟨mem, same⟩] at absent
    cases absent
  · next found hit =>
    obtain ⟨present, rfl⟩ := (find?_eq_some_iff nodup).1 hit
    split
    · next old =>
      rw [mem_others_iff]
      refine and_congr_right fun mem => ⟨fun other same => absurd same other, fun live same => ?_⟩
      have expired := live same
      rw [List.inj_on_of_nodup_map nodup mem present same, old] at expired
      cases expired
    · next live =>
      rw [List.mem_append, List.mem_singleton, mem_others_iff]
      constructor
      · rintro (⟨mem, other⟩ | rfl)
        · exact ⟨mem, fun same => absurd same other⟩
        · exact ⟨present, fun _ => by simpa using live⟩
      · rintro ⟨mem, -⟩
        by_cases same : entry.key = found.key
        · exact .inr (List.inj_on_of_nodup_map nodup mem present same)
        · exact .inl ⟨mem, same⟩

/-- A question for a key does the same to the entries as a read, up to their order. -/
theorem mem_has_iff (nodup : tier.keys.Nodup) :
    entry ∈ (tier.has now key).1.entries ↔
      entry ∈ tier.entries ∧ (entry.key = key → tier.isExpired now entry = false) := by
  rw [← mem_get_iff nodup]
  unfold has get
  split
  · rfl
  · next found hit =>
    obtain ⟨present, rfl⟩ := (find?_eq_some_iff nodup).1 hit
    split
    · rfl
    · rw [List.mem_append, List.mem_singleton, mem_others_iff]
      constructor
      · intro mem
        by_cases same : entry.key = found.key
        · exact .inr (List.inj_on_of_nodup_map nodup mem present same)
        · exact .inl ⟨mem, same⟩
      · rintro (⟨mem, -⟩ | rfl)
        · exact mem
        · exact present

/-- A write leaves the entries of other keys, but for the one that gives its place. -/
theorem mem_set_iff (nodup : tier.keys.Nodup) {value : α} :
    entry ∈ (tier.set now key value).entries ↔ entry = ⟨key, value, now⟩ ∨
      entry ∈ tier.entries ∧ entry.key ≠ key ∧
        ¬ (key ∉ tier.keys ∧ tier.capacity ≤ tier.size ∧ tier.keys.head? = some entry.key) := by
  have held : entry ∈ tier.entries → entry.key ∈ tier.keys := fun mem => List.mem_map_of_mem mem
  rcases tier.set_cases now key value with ⟨present, h⟩ | ⟨absent, full, h⟩ | ⟨absent, room, h⟩
  · rw [h, List.mem_append, List.mem_singleton, mem_others_iff, or_comm]
    simp only [present, not_true_eq_false, false_and, not_false_eq_true, and_true]
  · rw [h, List.mem_append, List.mem_singleton, mem_tail_iff nodup, or_comm]
    refine or_congr_right (and_congr_right fun mem => ?_)
    have other : entry.key ≠ key := fun same => absent (same ▸ held mem)
    simp only [absent, full, other, not_false_eq_true, true_and, ne_eq]
  · rw [h, List.mem_append, List.mem_singleton, or_comm]
    refine or_congr_right ⟨fun mem => ⟨mem, fun same => absent (same ▸ held mem), ?_⟩, And.left⟩
    exact fun evicted => absurd evicted.2.1 (Nat.not_le_of_lt room)

/-- What is read is the value of the live entry of the key. -/
theorem get_eq_some_iff (nodup : tier.keys.Nodup) {value : α} :
    (tier.get now key).2 = some value ↔ ∃ entry ∈ tier.entries, entry.key = key ∧
      entry.value = value ∧ tier.lifetime.isOver (now - entry.stamp) = false := by
  change _ ↔ ∃ entry ∈ tier.entries,
    entry.key = key ∧ entry.value = value ∧ tier.isExpired now entry = false
  unfold get
  split
  · next absent =>
    refine ⟨nofun, ?_⟩
    rintro ⟨entry, mem, same, -⟩
    rw [(find?_eq_some_iff nodup).2 ⟨mem, same⟩] at absent
    cases absent
  · next found hit =>
    obtain ⟨present, rfl⟩ := (find?_eq_some_iff nodup).1 hit
    have only : ∀ entry ∈ tier.entries, entry.key = found.key → entry = found :=
      fun entry mem => List.inj_on_of_nodup_map nodup mem present
    split
    · next old =>
      refine ⟨nofun, ?_⟩
      rintro ⟨entry, mem, same, -, live⟩
      rw [only entry mem same, old] at live
      cases live
    · next live =>
      constructor
      · rintro ⟨⟩
        exact ⟨found, present, rfl, rfl, by simpa using live⟩
      · rintro ⟨entry, mem, same, rfl, -⟩
        rw [only entry mem same]

/-- A question is answered as a read is. -/
theorem has_eq_isSome_get (tier : CacheTier α) (now : Rat) (key : String) :
    (tier.has now key).2 = (tier.get now key).2.isSome := by
  unfold has get
  split
  · rfl
  · split <;> rfl

end CacheTier

/-! ## Events -/

namespace TierEvent

/-- The event writes under a key. -/
def Writes (key : String) : TierEvent α → Prop
  | set other _ => other = key
  | _ => False

/-- The event ends what was written under a key before: it writes again, deletes or clears. -/
def Replaces (key : String) : TierEvent α → Prop
  | set other _ | delete other => other = key
  | clear => True
  | _ => False

/-- The event looks a key up. -/
def LooksUp (key : String) : TierEvent α → Prop
  | get other | has other => other = key
  | _ => False

/-- Time does not run backwards. -/
def IsSteady : TierEvent α → Prop
  | tick seconds => 0 ≤ seconds
  | _ => True

/-- The event reads, asks for a key, or lets time pass. -/
def IsLookup : TierEvent α → Prop
  | get _ | has _ => True
  | tick seconds => 0 ≤ seconds
  | _ => False

end TierEvent

namespace TimedTier

/-- An event takes the entry of a key away, whether it has expired or not: the entry is the least
recently used one and gives its place to a new one, or it is deleted, cleared or swept. -/
def Removes (t : TimedTier α) (key : String) : TierEvent α → Prop
  | .set other _ =>
    other ∉ t.tier.keys ∧ t.tier.capacity ≤ t.tier.size ∧ t.tier.keys.head? = some key
  | .delete other => other = key
  | .clear => True
  | .sweep age => ∃ entry ∈ t.tier.entries, entry.key = key ∧ age.isOver (t.now - entry.stamp)
  | _ => False

/-- No event of a history takes the entry of a key away. -/
def Spares (t : TimedTier α) (key : String) : List (TierEvent α) → Prop
  | [] => True
  | event :: events => ¬ t.Removes key event ∧ (t.perform event).Spares key events

instance (t : TimedTier α) (key : String) : DecidablePred (t.Removes key)
  | .set other _ => inferInstanceAs
    (Decidable (other ∉ t.tier.keys ∧ t.tier.capacity ≤ t.tier.size ∧
      t.tier.keys.head? = some key))
  | .delete other => inferInstanceAs (Decidable (other = key))
  | .clear => isTrue trivial
  | .sweep age => inferInstanceAs
    (Decidable (∃ entry ∈ t.tier.entries, entry.key = key ∧ age.isOver (t.now - entry.stamp)))
  | .get _ | .has _ | .tick _ => isFalse id

instance decidableSpares (t : TimedTier α) (key : String) :
    (events : List (TierEvent α)) → Decidable (t.Spares key events)
  | [] => isTrue trivial
  | event :: events =>
    have := decidableSpares (t.perform event) key events
    inferInstanceAs (Decidable (¬ t.Removes key event ∧ (t.perform event).Spares key events))

variable {t : TimedTier α} {entry : CacheEntry α} {key : String} {events : List (TierEvent α)}

@[simp] theorem run_nil (t : TimedTier α) : t.run [] = t := rfl

theorem run_cons (t : TimedTier α) (event : TierEvent α) (events : List (TierEvent α)) :
    t.run (event :: events) = (t.perform event).run events := rfl

theorem run_append (t : TimedTier α) (events others : List (TierEvent α)) :
    t.run (events ++ others) = (t.run events).run others := List.foldl_append

theorem lifetime_perform (t : TimedTier α) (event : TierEvent α) :
    (t.perform event).tier.lifetime = t.tier.lifetime := by
  cases event with
  | get key => exact t.tier.lifetime_get t.now key
  | set key value =>
    rcases t.tier.set_cases t.now key value with ⟨_, h⟩ | ⟨_, _, h⟩ | ⟨_, _, h⟩ <;>
      simp only [perform, h]
  | has key => rcases t.tier.has_cases t.now key with h | ⟨_, h⟩ <;> simp only [perform, h]
  | _ => rfl

theorem lifetime_run (t : TimedTier α) (events : List (TierEvent α)) :
    (t.run events).tier.lifetime = t.tier.lifetime := by
  induction events generalizing t with
  | nil => rfl
  | cons event events ih => rw [run_cons, ih, lifetime_perform]

theorem now_le_perform {event : TierEvent α} (steady : event.IsSteady) :
    t.now ≤ (t.perform event).now := by
  cases event with
  | tick seconds => exact le_add_of_nonneg_right steady
  | _ => exact le_refl _

theorem now_le_run (steady : ∀ event ∈ events, event.IsSteady) : t.now ≤ (t.run events).now := by
  induction events generalizing t with
  | nil => exact le_refl _
  | cons event events ih =>
    obtain ⟨first, others⟩ := List.forall_mem_cons.1 steady
    exact (now_le_perform first).trans (ih others)

/-- The keys stay distinct at every event. -/
theorem nodup_keys_perform (nodup : t.tier.keys.Nodup) (event : TierEvent α) :
    (t.perform event).tier.keys.Nodup := by
  rcases t.perform_keys event with ⟨key, -, keys⟩ | ⟨-, fewer, -⟩
  · rw [keys]
    exact (List.nodup_dedup (t.tier.keys ++ [key])).sublist
      (renew_sublist_dedup (by rw [nodup.dedup]))
  · exact nodup.sublist fewer

theorem nodup_keys_run_of_nodup (nodup : t.tier.keys.Nodup) (events : List (TierEvent α)) :
    (t.run events).tier.keys.Nodup := by
  induction events generalizing t with
  | nil => exact nodup
  | cons event events ih => exact ih (nodup_keys_perform nodup event)

/-- **The entries after an event**: the one that it writes, and those that it neither replaces nor
takes away nor finds to have expired. -/
theorem mem_perform_iff (nodup : t.tier.keys.Nodup) (event : TierEvent α) :
    entry ∈ (t.perform event).tier.entries ↔
      event = .set entry.key entry.value ∧ entry.stamp = t.now ∨
        entry ∈ t.tier.entries ∧ ¬ event.Writes entry.key ∧ ¬ t.Removes entry.key event ∧
          (event.LooksUp entry.key → t.tier.isExpired t.now entry = false) := by
  cases event with
  | get key =>
    simp only [perform, CacheTier.mem_get_iff nodup, TierEvent.Writes, Removes, TierEvent.LooksUp,
      reduceCtorEq, false_and, false_or, not_false_eq_true, true_and, eq_comm]
  | set key value =>
    have new : entry = ⟨key, value, t.now⟩ ↔
        TierEvent.set key value = .set entry.key entry.value ∧ entry.stamp = t.now := by
      obtain ⟨other, stored, stamp⟩ := entry
      simp only [CacheEntry.mk.injEq, TierEvent.set.injEq, and_assoc, eq_comm]
    rw [← new]
    simp only [perform, CacheTier.mem_set_iff nodup, TierEvent.Writes, Removes, TierEvent.LooksUp,
      false_implies, and_true, ne_eq, eq_comm]
  | has key =>
    simp only [perform, CacheTier.mem_has_iff nodup, TierEvent.Writes, Removes, TierEvent.LooksUp,
      reduceCtorEq, false_and, false_or, not_false_eq_true, true_and, eq_comm]
  | delete key =>
    simp only [perform, CacheTier.delete, CacheTier.mem_others_iff, TierEvent.Writes, Removes,
      TierEvent.LooksUp, reduceCtorEq, false_and, false_or, not_false_eq_true, true_and,
      false_implies, and_true, ne_eq, eq_comm]
  | clear =>
    simp only [perform, CacheTier.clear, Removes, reduceCtorEq, false_and, false_or,
      not_true_eq_false, and_false, List.not_mem_nil]
  | sweep age =>
    simp only [perform, CacheTier.sweep, List.mem_filter, TierEvent.Writes, Removes,
      TierEvent.LooksUp, reduceCtorEq, false_and, false_or, not_false_eq_true, true_and,
      false_implies, and_true]
    refine and_congr_right fun mem => ?_
    rw [Bool.not_eq_true', Bool.eq_false_iff]
    refine not_congr ⟨fun old => ⟨entry, mem, rfl, old⟩, ?_⟩
    rintro ⟨other, hother, same, old⟩
    rwa [List.inj_on_of_nodup_map nodup mem hother same.symm]
  | tick seconds =>
    simp only [perform, TierEvent.Writes, Removes, TierEvent.LooksUp, reduceCtorEq, false_and,
      false_or, not_false_eq_true, false_implies, and_true]

/-! ## Histories -/

/-- What is replaced is written again, or its entry is taken away. -/
theorem not_replaces {event : TierEvent α} (unwritten : ¬ event.Writes key)
    (spared : ¬ t.Removes key event) : ¬ event.Replaces key := by
  cases event with
  | set => exact unwritten
  | delete => exact spared
  | clear => exact spared
  | _ => exact id

/-- **Where an entry comes from**: it was written at the time that it bears, and nothing has ended
what was written since. -/
theorem exists_write_of_mem_run (empty : t.tier.keys = [])
    (mem : entry ∈ (t.run events).tier.entries) :
    ∃ before after, events = before ++ .set entry.key entry.value :: after ∧
      entry.stamp = (t.run before).now ∧ ∀ event ∈ after, ¬ event.Replaces entry.key := by
  induction events using List.reverseRecOn with
  | nil =>
    rw [run_nil, List.map_eq_nil_iff.1 empty] at mem
    cases mem
  | append_singleton events event ih =>
    rw [run_concat, mem_perform_iff (nodup_keys_run empty events)] at mem
    rcases mem with ⟨rfl, stamp⟩ | ⟨mem, other, spared, -⟩
    · exact ⟨events, [], rfl, stamp, List.forall_mem_nil _⟩
    · obtain ⟨before, after, rfl, stamp, kept⟩ := ih mem
      exact ⟨before, after ++ [event], by simp, stamp, List.forall_mem_append.2
        ⟨kept, List.forall_mem_singleton.2 (not_replaces other spared)⟩⟩

/-- **An entry that is spared stays while it lives.** -/
theorem mem_run_of_spares (nodup : t.tier.keys.Nodup) (steady : ∀ event ∈ events, event.IsSteady)
    (mem : entry ∈ t.tier.entries) (unwritten : ∀ event ∈ events, ¬ event.Writes entry.key)
    (spared : t.Spares entry.key events)
    (live : t.tier.lifetime.isOver ((t.run events).now - entry.stamp) = false) :
    entry ∈ (t.run events).tier.entries := by
  induction events generalizing t with
  | nil => exact mem
  | cons event events ih =>
    obtain ⟨other, others⟩ := List.forall_mem_cons.1 unwritten
    have alive : t.tier.isExpired t.now entry = false :=
      Duration.isOver_eq_false_of_le (sub_le_sub_right (now_le_run steady) _) live
    refine ih (nodup_keys_perform nodup event)
      (fun event mem => steady event (List.mem_cons_of_mem _ mem)) ?_ others spared.2 ?_
    · exact (mem_perform_iff nodup event).2 (.inr ⟨mem, other, spared.1, fun _ => alive⟩)
    · rwa [lifetime_perform]

/-- **A value that is spared is read while it lives.** -/
theorem get_run_of_spares (nodup : t.tier.keys.Nodup) {value : α}
    (steady : ∀ event ∈ events, event.IsSteady) (unwritten : ∀ event ∈ events, ¬ event.Writes key)
    (spared : (t.perform (.set key value)).Spares key events)
    (live : t.tier.lifetime.isOver
      (((t.perform (.set key value)).run events).now - t.now) = false) :
    (((t.perform (.set key value)).run events).tier.get
      ((t.perform (.set key value)).run events).now key).2 = some value := by
  have nodup' := nodup_keys_perform nodup (.set key value)
  have written : (⟨key, value, t.now⟩ : CacheEntry α) ∈
      (t.perform (.set key value)).tier.entries :=
    (mem_perform_iff nodup _).2 (.inl ⟨rfl, rfl⟩)
  have stays := mem_run_of_spares nodup' steady written unwritten spared
    (by rwa [lifetime_perform])
  rw [CacheTier.get_eq_some_iff (nodup_keys_run_of_nodup nodup' events), lifetime_run,
    lifetime_perform]
  exact ⟨_, stays, rfl, rfl, live⟩

/-- A lookup takes no entry away and writes none. -/
theorem not_removes_of_isLookup (t : TimedTier α) (key : String) {event : TierEvent α}
    (lookup : event.IsLookup) :
    ¬ t.Removes key event ∧ event.IsSteady ∧ ¬ event.Writes key := by
  cases event with
  | get _ => exact ⟨id, trivial, id⟩
  | has _ => exact ⟨id, trivial, id⟩
  | tick seconds => exact ⟨id, lookup, id⟩
  | _ => exact lookup.elim

theorem spares_of_isLookup (key : String) (lookups : ∀ event ∈ events, event.IsLookup) :
    t.Spares key events ∧ ∀ event ∈ events, event.IsSteady ∧ ¬ event.Writes key := by
  refine ⟨?_, fun event mem => (t.not_removes_of_isLookup key (lookups event mem)).2⟩
  induction events generalizing t with
  | nil => exact trivial
  | cons event events ih =>
    obtain ⟨first, others⟩ := List.forall_mem_cons.1 lookups
    exact ⟨(t.not_removes_of_isLookup key first).1, ih others⟩

/-- Lookups add nothing. -/
theorem mem_of_mem_run_lookups (nodup : t.tier.keys.Nodup)
    (lookups : ∀ event ∈ events, event.IsLookup) (mem : entry ∈ (t.run events).tier.entries) :
    entry ∈ t.tier.entries := by
  induction events generalizing t with
  | nil => exact mem
  | cons event events ih =>
    obtain ⟨first, others⟩ := List.forall_mem_cons.1 lookups
    rcases (mem_perform_iff nodup event).1 (ih (nodup_keys_perform nodup event) others mem) with
      ⟨rfl, -⟩ | ⟨old, -⟩
    · exact first.elim
    · exact old

/-- **Lookups do not touch the life of an entry**: what is read after some of them is what would be
read at that time without them. -/
theorem get_run_lookups (nodup : t.tier.keys.Nodup) (lookups : ∀ event ∈ events, event.IsLookup)
    (key : String) :
    ((t.run events).tier.get (t.run events).now key).2 = (t.tier.get (t.run events).now key).2 := by
  refine Option.ext fun value => ?_
  rw [CacheTier.get_eq_some_iff (nodup_keys_run_of_nodup nodup events),
    CacheTier.get_eq_some_iff nodup, lifetime_run]
  refine exists_congr fun entry => ⟨?_, ?_⟩
  · rintro ⟨mem, rest⟩
    exact ⟨mem_of_mem_run_lookups nodup lookups mem, rest⟩
  · rintro ⟨mem, rfl, rfl, live⟩
    obtain ⟨spared, quiet⟩ := spares_of_isLookup (t := t) entry.key lookups
    exact ⟨mem_run_of_spares nodup (fun event mem => (quiet event mem).1) mem
      (fun event mem => (quiet event mem).2) spared live, rfl, rfl, live⟩

end TimedTier

namespace CacheTier

open TimedTier

/-- **What is read is the latest live value.** A value that is read under a key is the one that was
written last, at most the lifetime ago, with no deletion and no clearing since. If the last write
was at most the lifetime ago, and its entry has neither given its place nor been deleted, cleared or
swept, it is read and its key is there. Lookups in between make no difference to what is read at a
later time. -/
theorem latest_of_run {capacity : Int} {lifetime : Json.Number} {tier : CacheTier α}
    (h : ofLimits capacity lifetime = .ok tier) (start : Rat) {events : List (TierEvent α)}
    (steady : ∀ event ∈ events, event.IsSteady) (key : String) :
    let first : TimedTier α := ⟨tier, start⟩
    let last := first.run events
    (∀ value, (last.tier.get last.now key).2 = some value →
        ∃ before after, events = before ++ .set key value :: after ∧
          (∀ event ∈ after, ¬ event.Replaces key) ∧
          (Duration.ofNumber lifetime).isOver (last.now - (first.run before).now) = false) ∧
      (∀ before value after, events = before ++ .set key value :: after →
        (∀ event ∈ after, ¬ event.Writes key) →
        (first.run (before ++ [.set key value])).Spares key after →
        (Duration.ofNumber lifetime).isOver (last.now - (first.run before).now) = false →
          (last.tier.get last.now key).2 = some value ∧
            (last.tier.has last.now key).2 = true) ∧
      ∀ lookups : List (TierEvent α), (∀ event ∈ lookups, event.IsLookup) →
        let later := last.run lookups
        (later.tier.get later.now key).2 = (last.tier.get later.now key).2 ∧
          (later.tier.has later.now key).2 = (last.tier.has later.now key).2 := by
  intro first last
  obtain ⟨-, rfl⟩ := ofLimits_eq_ok h
  have empty : first.tier.keys = [] := rfl
  have nodup : last.tier.keys.Nodup := nodup_keys_run empty events
  have lives : last.tier.lifetime = .ofNumber lifetime := first.lifetime_run events
  refine ⟨fun value read => ?_, ?_, fun lookups only => ?_⟩
  · obtain ⟨entry, mem, rfl, rfl, live⟩ := (get_eq_some_iff nodup).1 read
    obtain ⟨before, after, split, stamp, kept⟩ := exists_write_of_mem_run empty mem
    exact ⟨before, after, split, kept, by rwa [← stamp, ← lives]⟩
  · rintro before value after rfl unwritten spared live
    have whole : last = ((first.run before).perform (.set key value)).run after := by
      rw [← run_concat, ← run_append, List.append_assoc, List.singleton_append]
    have later : ∀ event ∈ after, event.IsSteady := fun event mem =>
      steady event (List.mem_append_right _ (List.mem_cons_of_mem _ mem))
    rw [run_concat] at spared
    have read : (last.tier.get last.now key).2 = some value := by
      rw [whole]
      refine get_run_of_spares (nodup_keys_run empty before) later unwritten spared ?_
      rwa [← whole, first.lifetime_run]
    exact ⟨read, by rw [has_eq_isSome_get, read]; rfl⟩
  · have same := get_run_lookups nodup only key
    exact ⟨same, by rw [has_eq_isSome_get, has_eq_isSome_get, same]⟩

section Example

/-- What happens after a key of a tier for two was written again: another one is written, and has to
give its place. -/
def afterRewriting : List (TierEvent Nat) :=
  [.set "b" 2, .tick 4, .get "a", .set "c" 3, .tick 6]

/-- The value that was written last is read when its lifetime has just passed. -/
theorem latest_of_run_rewriting :
    ∃ tier : CacheTier Nat, ofLimits 2 (.whole 10) = .ok tier ∧
      let last := (TimedTier.mk tier 0).run (.set "a" 0 :: .tick 3 :: .set "a" 1 :: afterRewriting)
      last.now = 13 ∧ (last.tier.get last.now "a").2 = some 1 ∧
        (last.tier.has last.now "a").2 = true := by
  obtain ⟨tier, made⟩ : ∃ tier : CacheTier Nat, ofLimits 2 (.whole 10) = .ok tier := ⟨_, rfl⟩
  refine ⟨tier, made, ?_⟩
  have steady : ∀ event ∈ .set "a" 0 :: .tick 3 :: .set "a" 1 :: afterRewriting,
      event.IsSteady := by
    have forward : (0 : Rat) ≤ 3 ∧ (0 : Rat) ≤ 4 ∧ (0 : Rat) ≤ 6 := by decide
    simp only [afterRewriting, List.forall_mem_cons, TierEvent.IsSteady, true_and, and_true,
      List.not_mem_nil, false_implies, implies_true]
    exact forward
  obtain ⟨-, spared, -⟩ := latest_of_run made 0 steady "a"
  obtain rfl := Except.ok.inj made
  refine ⟨by decide +kernel, spared [.set "a" 0, .tick 3] 1 afterRewriting rfl ?_ ?_ ?_⟩
  · simp [afterRewriting, TierEvent.Writes]
  · decide +kernel
  · decide +kernel

end Example

end CacheTier

end BracketCss
