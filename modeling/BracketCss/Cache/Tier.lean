import BracketCss.Json.Basic
import BracketCss.Number.Binary

/-!
# Cache tiers

A bounded store of values by key. An entry lives for a fixed time from the moment it is set,
however often it is read. A new entry in a full tier takes the place of the one that was not used
for the longest time, a use being a write or a read that finds the entry. Times and their
differences are exact; a clock that rounds them is left out.

## Main definitions

* `Duration`: a length of time, which need not be finite
* `CacheTier`, `CacheTier.ofLimits`: a tier
* `get`, `set`, `has`, `delete`, `clear`, `sweep`: the operations, at a given time
* `keys`, `size`: the keys, the least recently used first, and their number

## Main results

* `length_set_le`: setting keeps the bound on the number of entries
* `keys_clear`, `size_clear`: a cleared tier is empty
-/

namespace BracketCss

/-- Why a cache cannot be set up. -/
inductive CacheFault where
  /-- Less than one entry. -/
  | size (given : Int)
  /-- A lifetime that is not positive. -/
  | lifetime (given : Json.Number)
  /-- A fraction that is not in the interval from zero to one, zero excluded. -/
  | fraction (given : Json.Number)
  deriving DecidableEq, Repr

/-- The text of a fault. -/
def CacheFault.message : CacheFault → String
  | size given => s!"max_size must be at least 1, got {given}"
  | lifetime given => "ttl must be positive, got " ++ given.toText
  | fraction given => "eviction_fraction must be in (0, 1], got " ++ given.toText

/-- A length of time. -/
inductive Duration where
  /-- A number of seconds. -/
  | seconds (s : Rat)
  /-- Without end, or shorter than any other. -/
  | infinite (negative : Bool)
  /-- The result of an undefined operation, which is neither longer nor shorter than another. -/
  | undefined
  deriving DecidableEq, Repr

namespace Duration

instance : Coe Rat Duration := ⟨seconds⟩

/-- A number of seconds, as it was given. -/
def ofNumber : Json.Number → Duration
  | .whole n => seconds n
  | .real d => seconds d.toRat
  | .infinite negative => infinite negative
  | .undefined => undefined

/-- More seconds have passed than it lasts. -/
def isOver : Duration → Rat → Bool
  | seconds s, passed => s < passed
  | infinite negative, _ => negative
  | undefined, _ => false

/-- It is no time at all, or less. -/
def isNonpositive : Duration → Bool
  | seconds s => s ≤ 0
  | infinite negative => negative
  | undefined => false

end Duration

/-- A value in a tier. -/
structure CacheEntry (α : Type) where
  /-- The key. -/
  key : String
  /-- The value. -/
  value : α
  /-- When it was set. -/
  stamp : Rat

/-- A bounded store of values. -/
structure CacheTier (α : Type) where
  /-- The greatest number of entries. -/
  capacity : Nat
  /-- How long an entry lives. -/
  lifetime : Duration
  /-- The entries, the least recently used first. -/
  entries : List (CacheEntry α)
  /-- Reads that found an entry. -/
  hits : Nat
  /-- Reads that found none. -/
  misses : Nat
  /-- Entries that gave way to new ones. -/
  evictions : Nat
  /-- Entries found to have outlived their time. -/
  expirations : Nat

namespace CacheTier

variable {α : Type}

/-- An empty tier. -/
def ofLimits (capacity : Int) (lifetime : Json.Number) : Except CacheFault (CacheTier α) :=
  if capacity < 1 then .error (.size capacity)
  else if (Duration.ofNumber lifetime).isNonpositive then .error (.lifetime lifetime)
  else .ok ⟨capacity.toNat, .ofNumber lifetime, [], 0, 0, 0, 0⟩

/-- The entry of a key, whether it has expired or not. -/
def find? (tier : CacheTier α) (key : String) : Option (CacheEntry α) :=
  tier.entries.find? fun entry => entry.key == key

/-- The entries of all other keys. -/
def others (tier : CacheTier α) (key : String) : List (CacheEntry α) :=
  tier.entries.filter fun entry => entry.key != key

/-- An entry has outlived its time. -/
def isExpired (tier : CacheTier α) (now : Rat) (entry : CacheEntry α) : Bool :=
  tier.lifetime.isOver (now - entry.stamp)

/-- The value of a key. An entry that has expired goes; one that is found becomes the most
recently used. -/
def get (tier : CacheTier α) (now : Rat) (key : String) : CacheTier α × Option α :=
  match tier.find? key with
  | none => ({ tier with misses := tier.misses + 1 }, none)
  | some entry =>
    if tier.isExpired now entry then
      ({ tier with
          entries := tier.others key
          expirations := tier.expirations + 1
          misses := tier.misses + 1 }, none)
    else
      ({ tier with entries := tier.others key ++ [entry], hits := tier.hits + 1 },
        some entry.value)

/-- Sets the value of a key, as the most recently used entry. -/
def set (tier : CacheTier α) (now : Rat) (key : String) (value : α) : CacheTier α :=
  let entry : CacheEntry α := ⟨key, value, now⟩
  if (tier.find? key).isSome then { tier with entries := tier.others key ++ [entry] }
  else if tier.capacity ≤ tier.entries.length then
    { tier with entries := tier.entries.tail ++ [entry], evictions := tier.evictions + 1 }
  else { tier with entries := tier.entries ++ [entry] }

/-- A key has an entry that has not expired. This is no use of the entry; one that has expired
goes. -/
def has (tier : CacheTier α) (now : Rat) (key : String) : CacheTier α × Bool :=
  match tier.find? key with
  | none => (tier, false)
  | some entry =>
    if tier.isExpired now entry then
      ({ tier with entries := tier.others key, expirations := tier.expirations + 1 }, false)
    else (tier, true)

/-- Removes the entry of a key, and tells whether there was one. -/
def delete (tier : CacheTier α) (key : String) : CacheTier α × Bool :=
  ({ tier with entries := tier.others key }, (tier.find? key).isSome)

/-- Removes all entries. -/
def clear (tier : CacheTier α) : CacheTier α := { tier with entries := [] }

/-- Removes the entries older than an age, and counts them. -/
def sweep (tier : CacheTier α) (now : Rat) (age : Duration) : CacheTier α × Nat :=
  let kept := tier.entries.filter fun entry => !age.isOver (now - entry.stamp)
  ({ tier with entries := kept }, tier.entries.length - kept.length)

/-- The keys, the least recently used first. -/
def keys (tier : CacheTier α) : List String := tier.entries.map (·.key)

/-- The number of entries. -/
def size (tier : CacheTier α) : Nat := tier.entries.length

/-- The share of reads that found an entry. -/
def hitRate (tier : CacheTier α) : Ratio := ⟨tier.hits, tier.hits + tier.misses⟩

/-- The share of the room that is taken. -/
def utilization (tier : CacheTier α) : Ratio := ⟨tier.size, tier.capacity⟩

/-- The books of a tier as a JSON value. -/
def statsJson (tier : CacheTier α) (name : String) : Json :=
  .object
    [("name", .string name), ("size", .nat tier.size), ("max_size", .nat tier.capacity),
      ("hits", .nat tier.hits), ("misses", .nat tier.misses),
      ("evictions", .nat tier.evictions), ("expirations", .nat tier.expirations),
      ("hit_rate", .ratio tier.hitRate),
      ("utilization", .ratio tier.utilization)]

@[simp] theorem keys_clear (tier : CacheTier α) : tier.clear.keys = [] := rfl

@[simp] theorem size_clear (tier : CacheTier α) : tier.clear.size = 0 := rfl

theorem length_others_lt {tier : CacheTier α} {key : String} (h : (tier.find? key).isSome) :
    (tier.others key).length < tier.entries.length := by
  obtain ⟨entry, found⟩ := Option.isSome_iff_exists.1 h
  have member := List.mem_of_find?_eq_some found
  have same := List.find?_some found
  rw [others, List.length_filter_lt_length_iff_exists]
  exact ⟨entry, member, by simpa using same⟩

theorem length_set_le {tier : CacheTier α} {now : Rat} {key : String} {value : α}
    (bounded : tier.size ≤ tier.capacity) (positive : 0 < tier.capacity) :
    (tier.set now key value).size ≤ tier.capacity := by
  unfold size at bounded
  unfold set size
  dsimp only
  split
  · next present =>
    have := length_others_lt present
    simp only [List.length_append, List.length_singleton]
    omega
  · split
    · simp only [List.length_append, List.length_tail, List.length_singleton]
      omega
    · simp only [List.length_append, List.length_singleton]
      omega

end CacheTier

end BracketCss
