/-!
# Distinct items

A list without later repetitions of an item, in the order of first occurrences.

## Main definitions

* `distinctBy key items`: the items whose keys did not occur before
* `distinct items`: the items that did not occur before

## Main results

* `mem_distinct`: no item is lost
* `distinct_nodup`: no item is left twice
-/

namespace BracketCss

variable {α β : Type} [BEq β]

/-- The items whose keys are neither among those seen nor occur before. -/
def distinctFrom (key : α → β) (seen : List β) : List α → List α
  | [] => []
  | item :: items =>
    if seen.contains (key item) then distinctFrom key seen items
    else item :: distinctFrom key (key item :: seen) items

/-- The items whose keys did not occur before. -/
def distinctBy (key : α → β) (items : List α) : List α := distinctFrom key [] items

/-- The items that did not occur before. -/
def distinct (items : List β) : List β := distinctBy id items

/-- An item at the end is kept if its key is new. -/
theorem distinctFrom_concat [LawfulBEq β] (key : α → β) (seen : List β) (items : List α)
    (item : α) :
    distinctFrom key seen (items ++ [item]) = distinctFrom key seen items ++
      if key item ∈ seen ∨ key item ∈ items.map key then [] else [item] := by
  induction items generalizing seen with
  | nil => simp [distinctFrom]
  | cons first items ih =>
    rw [List.cons_append, distinctFrom, distinctFrom, List.map_cons]
    simp only [List.contains_iff_mem]
    by_cases old : key first ∈ seen
    · have same : key item ∈ seen ∨ key item ∈ key first :: items.map key ↔
          key item ∈ seen ∨ key item ∈ items.map key := by
        rw [List.mem_cons]
        constructor
        · rintro (known | equal | behind)
          · exact .inl known
          · exact .inl (equal ▸ old)
          · exact .inr behind
        · exact Or.imp_right .inr
      simp only [if_pos old, ih, same]
    · have same : key item ∈ seen ∨ key item ∈ key first :: items.map key ↔
          key item ∈ key first :: seen ∨ key item ∈ items.map key := by
        rw [List.mem_cons, List.mem_cons, or_left_comm, or_assoc]
      simp only [if_neg old, ih, same, List.cons_append]

theorem mem_distinctFrom [LawfulBEq β] {seen items : List β} {item : β} :
    item ∈ distinctFrom id seen items ↔ item ∈ items ∧ item ∉ seen := by
  induction items generalizing seen with
  | nil => simp [distinctFrom]
  | cons first items ih =>
    rw [distinctFrom]
    by_cases old : first ∈ seen
    · rw [if_pos (by simpa using old), ih, List.mem_cons]
      constructor
      · exact fun h => ⟨.inr h.1, h.2⟩
      · rintro ⟨rfl | h, fresh⟩
        · exact absurd old fresh
        · exact ⟨h, fresh⟩
    · rw [if_neg (by simpa using old), List.mem_cons, ih, List.mem_cons]
      by_cases same : item = first
      · subst same
        simp [old]
      · simp [same]

theorem mem_distinct [LawfulBEq β] {items : List β} {item : β} :
    item ∈ distinct items ↔ item ∈ items := by
  rw [distinct, distinctBy, mem_distinctFrom]
  simp

theorem distinctFrom_nodup [LawfulBEq β] (seen items : List β) :
    (distinctFrom id seen items).Nodup := by
  induction items generalizing seen with
  | nil => simp [distinctFrom]
  | cons first items ih =>
    rw [distinctFrom]
    split
    · exact ih seen
    · rw [List.nodup_cons]
      exact ⟨fun h => (mem_distinctFrom.1 h).2 (by simp), ih _⟩

theorem distinct_nodup [LawfulBEq β] (items : List β) : (distinct items).Nodup :=
  distinctFrom_nodup [] items

end BracketCss
