import BracketCss.Proofs.Value.Rejoined

/-!
# Values of one word

A plain word is a single word, and so is every colour. A raw value is cut at its commas and put
together again with spaces before it is validated. What is put together is a single word only if
there was nothing to cut, and then it is the raw value itself, blanks at its ends apart.

## Main results

* `IsDull.isWord`, `IsColorValue.isWord`: plain words and colours are single words
* `Components.trim_eq_of_isWord`: a raw value that becomes a single word is that word
-/

namespace BracketCss

open Text

/-! ## Single words -/

/-- A plain word is a single word. -/
theorem IsDull.isWord {w : List Char} (h : IsDull w) (spaces : IsSpaced w) : Scan.IsWord w := by
  refine Scan.wordsBy_of_solid (fun _ blank => blank) h.1 fun c hc => ?_
  have solid := h.not_isGap spaces c hc
  rw [Scan.isGap, Bool.or_eq_false_iff] at solid
  exact solid.1

/-- An accepted colour is a single word. -/
theorem IsColorValue.isWord {keywords : List String} {w : List Char} {value : String}
    (h : IsColorValue keywords w value)
    (plain : ∀ k ∈ keywords, IsPlainText k) (spaces : IsSpaced w) (trimmed : trim w = w) :
    Scan.IsWord w := by
  cases h with
  | name listed =>
    have named : IsPlainText (.ofList (fullLower w)) :=
      (List.mem_append.1 listed).elim (plain _) (isPlainText_colorNames _)
    exact named.isDull_of_fullLower.isWord spaces
  | hex found => exact (isDull_of_normalizeHex? trimmed found).1.isWord spaces
  | call found => exact Scan.isWord_call found trimmed

/-! ## Raw values -/

namespace Components

open Scan

variable {allowSpaces : Bool} {joiner raw : String} {components : Components}

/-- The words of a value put together again are those of its parts. -/
theorem topWords_rejoined {cs : List Char} (closed : IsClosed cs) :
    topWords (" ".intercalate ((commaParts cs).map respaced)).toList =
      (commaParts cs).flatMap topWords := by
  have space : ∀ c ∈ [' '], isBlank c ∧ isStructural c = false := by simp; decide
  have closed' : ∀ part ∈ commaParts cs, IsClosed (respaced part).toList := fun part mem =>
    (respaced_spec (isClosed_of_mem_parts closed mem)).1
  rw [String.toList_intercalate, List.map_map]
  calc topWords (" ".toList.intercalate ((commaParts cs).map (String.toList ∘ respaced)))
      = ((commaParts cs).map (String.toList ∘ respaced)).flatMap topWords :=
        flatMap_intercalate (List.cons_ne_nil _ _) space
          (List.pairwise_of_forall_mem_list fun _ hx _ _ => List.forall_mem_map.2 closed' _ hx)
    _ = (commaParts cs).flatMap fun part => topWords (respaced part).toList := List.flatMap_map ..
    _ = (commaParts cs).flatMap topWords := List.flatMap_congr fun part _ => by
        rw [toList_respaced]
        exact topWords_intercalate (fun _ => isWord_of_mem_topWords)
          (pairwise_isClosed_topWords part)

/-- The parts of a value have no blanks at their ends. -/
theorem isBare_of_mem_commaParts {cs : List Char} (filled : [] ∉ commaParts cs) :
    ∀ part ∈ commaParts cs, IsBare part := fun _ mem =>
  .of_trim (of_mem_parts mem).2 fun empty => filled (empty ▸ mem)

/-- Every part of a value has a word. -/
theorem topWords_ne_nil {cs : List Char} (filled : [] ∉ commaParts cs) :
    ∀ part ∈ commaParts cs, topWords part ≠ [] := fun part mem =>
  have bare := isBare_of_mem_commaParts filled part mem
  have ⟨_, found⟩ := exists_mem_topWords bare.nonempty bare.first
  List.ne_nil_of_mem found

/-- A text of which the parts have one word together is that word. -/
theorem eq_of_flatMap_topWords {cs w : List Char} (trimmed : trim cs = cs)
    (filled : [] ∉ commaParts cs) (words : (commaParts cs).flatMap topWords = [w]) : cs = w := by
  have some_ : ∀ part ∈ commaParts cs, 0 < (topWords part).length := fun part mem =>
    List.length_pos_of_ne_nil (topWords_ne_nil filled part mem)
  obtain ⟨part, single⟩ : ∃ part, commaParts cs = [part] := by
    cases parts_ : commaParts cs with
    | nil =>
      rw [parts_] at words
      cases words
    | cons first others =>
      cases others with
      | nil => exact ⟨first, rfl⟩
      | cons second others =>
        rw [parts_] at words some_
        have count := congrArg List.length words
        have front := some_ first (by simp)
        have next := some_ second (by simp)
        simp only [List.flatMap_cons, List.length_append, List.length_singleton] at count
        omega
  rw [single, List.flatMap_singleton] at words
  have word : IsWord part :=
    isWord_of_single (isBare_of_mem_commaParts filled part (by simp [single])) (by simp [words])
  rw [IsWord, words] at word
  have uncut := length_parts_le_one_iff.1 (Nat.le_of_eq (congrArg List.length single))
  rw [commaParts, Scan.parts, segments_eq_singleton_iff.2 uncut, List.map_singleton,
    trimmed] at single
  exact (List.cons.inj single).1.trans (List.cons.inj word).1.symm

/-- **A raw value that becomes a single word is that word.** -/
theorem trim_eq_of_isWord (h : ofText allowSpaces " " raw = .ok components)
    (word : IsWord (trim components.normalized.toList)) :
    trim components.normalized.toList = trim raw.toList := by
  obtain ⟨closed, closed', -⟩ := gapWords_ofText (.inl rfl) h
  obtain ⟨-, -, ⟨-, made⟩ | ⟨-, filled, -, made⟩⟩ := ofText_eq_ok_iff.1 h
  · rw [made, String.toList_ofList, trim_trim]
  · have words : topWords components.normalized.toList = [trim components.normalized.toList] :=
      (wordsBy_trim (fun _ blank => blank) closed').symm.trans word
    conv_lhs at words => rw [made, topWords_rejoined closed]
    exact (eq_of_flatMap_topWords (trim_trim raw.toList) filled words).symm

end Components

end BracketCss
