import Mathlib.Data.List.Nodup

/-!
# Entries with distinct keys

Where no two entries of a list have one key, the search for a key finds the entry that has it.

## Main results

* `find?_key_eq_some_iff`: what the search for a key finds
* `isSome_find?_key_iff`: when it finds something
-/

namespace BracketCss

variable {α β : Type} [BEq β] [LawfulBEq β] {key : α → β} {items : List α} {item : α} {b : β}

theorem isSome_find?_key_iff : (items.find? (key · == b)).isSome ↔ b ∈ items.map key := by
  simp only [List.find?_isSome, beq_iff_eq, List.mem_map]

theorem find?_key_eq_some_iff (nodup : (items.map key).Nodup) :
    items.find? (key · == b) = some item ↔ item ∈ items ∧ key item = b := by
  constructor
  · exact fun found => ⟨List.mem_of_find?_eq_some found, by simpa using List.find?_some found⟩
  · rintro ⟨mem, rfl⟩
    obtain ⟨other, found⟩ : ∃ other, items.find? (key · == key item) = some other :=
      Option.isSome_iff_exists.1 (isSome_find?_key_iff.2 (List.mem_map_of_mem mem))
    have same : key other = key item := by simpa using List.find?_some found
    rw [found, List.inj_on_of_nodup_map nodup (List.mem_of_find?_eq_some found) mem same]

end BracketCss
