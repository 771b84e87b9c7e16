import BracketCss.Proofs.Value.Scan

/-!
# Words at the top level

The words of a value are what remains when it is cut at commas and blanks alike: putting the value
together again with other separators does not change them. Blanks at the ends of a part do not
matter to its words, and the words of parts that leave nothing open are the words of the whole.

## Main definitions

* `Scan.wordsBy separator cs`: the non-empty parts between separators
* `Scan.isGap c`, `Scan.gapWords cs`: commas and blanks, and the words between them

## Main results

* `wordsBy_append`, `flatMap_intercalate`: the words of texts that are put together
* `gapWords_commaParts`, `gapWords_topWords`: how the parts and words of a value relate
* `gapWords_of_solid`: a text without gaps is one word
-/

namespace BracketCss.Scan

open Text

/-! ## Words -/

/-- The non-empty parts between separators, without blanks at their ends. -/
def wordsBy (separator : Char → Bool) (cs : List Char) : List (List Char) :=
  (parts separator cs).filter (· ≠ [])

section Words

variable {separator : Char → Bool}

@[simp] theorem wordsBy_nil : wordsBy separator [] = [] := rfl

/-- What is one segment without blanks at its ends is one word. -/
theorem wordsBy_of_segments {cs : List Char}
    (whole : segments separator cs = [cs]) (trimmed : trim cs = cs) (some_ : cs ≠ []) :
    wordsBy separator cs = [cs] := by
  rw [wordsBy, parts, whole, List.map_singleton, trimmed]
  simp [some_]

theorem wordsBy_append {xs : List Char} (closed : IsClosed xs) {c : Char} (hc : separator c)
    (structural : isStructural c = false) (ys : List Char) :
    wordsBy separator (xs ++ c :: ys) = wordsBy separator xs ++ wordsBy separator ys := by
  rw [wordsBy, parts, segments_append closed hc structural, List.map_append, List.filter_append]
  rfl

/-- Separators in front of a text do not matter. -/
theorem wordsBy_gap_append {gap : List Char}
    (hgap : ∀ c ∈ gap, separator c ∧ isStructural c = false) (cs : List Char) :
    wordsBy separator (gap ++ cs) = wordsBy separator cs := by
  induction gap with
  | nil => rfl
  | cons c gap ih =>
    obtain ⟨hc, structural⟩ := hgap c List.mem_cons_self
    have first := wordsBy_append isClosed_nil hc structural (gap ++ cs)
    rw [List.nil_append, wordsBy_nil, List.nil_append] at first
    rw [List.cons_append, first, ih fun d hd => hgap d (List.mem_cons_of_mem _ hd)]

theorem wordsBy_append_gap {cs : List Char} (closed : IsClosed cs) {gap : List Char}
    (hgap : ∀ c ∈ gap, separator c ∧ isStructural c = false) :
    wordsBy separator (cs ++ gap) = wordsBy separator cs := by
  cases gap with
  | nil => rw [List.append_nil]
  | cons c gap =>
    obtain ⟨hc, structural⟩ := hgap c List.mem_cons_self
    have nothing := wordsBy_gap_append (fun d hd => hgap d (List.mem_cons_of_mem _ hd)) []
    rw [List.append_nil, wordsBy_nil] at nothing
    rw [wordsBy_append closed hc structural, nothing, List.append_nil]

theorem wordsBy_trim (blanks : ∀ c, isBlank c → separator c) {cs : List Char}
    (closed : IsClosed cs) : wordsBy separator (trim cs) = wordsBy separator cs := by
  obtain ⟨lead, trail, same, leadBlank, trailBlank⟩ := exists_trim cs
  have gap : ∀ c, isBlank c → separator c ∧ isStructural c = false :=
    fun c hc => ⟨blanks c hc, isBlank_structural hc⟩
  calc wordsBy separator (trim cs)
      = wordsBy separator (trim cs ++ trail) :=
        (wordsBy_append_gap closed.trim fun c hc => gap c (trailBlank c hc)).symm
    _ = wordsBy separator (lead ++ (trim cs ++ trail)) :=
        (wordsBy_gap_append (fun c hc => gap c (leadBlank c hc)) _).symm
    _ = wordsBy separator cs := by rw [← same]

/-- The words of a text are those of the parts of a coarser cut. -/
theorem flatMap_parts {coarse : Char → Bool} (finer : ∀ c, coarse c → separator c)
    (blanks : ∀ c, isBlank c → separator c) {cs : List Char} (closed : IsClosed cs) :
    (parts coarse cs).flatMap (wordsBy separator) = wordsBy separator cs := by
  obtain ⟨all, same⟩ := flatMap_segments (wordsBy separator)
    (fun xs c ys hxs (hc : coarse c) structural => wordsBy_append hxs (finer c hc) structural ys)
    closed
  rw [parts, List.flatMap_map, ← same]
  exact List.flatMap_congr fun segment mem => wordsBy_trim blanks (all segment mem)

theorem isClosed_of_mem_parts {cs part : List Char} (closed : IsClosed cs)
    (h : part ∈ parts separator cs) : IsClosed part := by
  obtain ⟨all, -⟩ := flatMap_segments (fun _ => ([] : List Unit))
    (fun _ c _ _ (_ : separator c) _ => rfl) closed
  obtain ⟨segment, mem, rfl⟩ := List.mem_map.1 h
  exact (all segment mem).trim

/-- Segments are parts of the text as it stands. -/
theorem infix_segmentsFrom (s : State) (cs : List Char) :
    (segmentsFrom separator s cs).1 <+: cs ∧
      ∀ segment ∈ (segmentsFrom separator s cs).2, segment <:+: cs := by
  induction cs generalizing s with
  | nil => exact ⟨List.prefix_rfl, fun _ mem => by cases mem⟩
  | cons c cs ih =>
    rw [segmentsFrom]
    split
    · obtain ⟨first, others⟩ := ih s
      refine ⟨List.nil_prefix, fun segment mem => ?_⟩
      rcases List.mem_cons.1 mem with rfl | mem
      · exact List.infix_cons first.isInfix
      · exact List.infix_cons (others segment mem)
    · obtain ⟨first, others⟩ := ih (s.step c)
      exact ⟨List.cons_prefix_cons.2 ⟨rfl, first⟩,
        fun segment mem => List.infix_cons (others segment mem)⟩

theorem infix_trim (cs : List Char) : trim cs <:+: cs := by
  obtain ⟨lead, trail, same, -, -⟩ := exists_trim cs
  exact ⟨lead, trail, by rw [List.append_assoc, ← same]⟩

theorem trim_subset (cs : List Char) : trim cs ⊆ cs := (infix_trim cs).subset

theorem not_isBlank_of_getLast?_trim {cs : List Char} {c : Char} (h : c ∈ (trim cs).getLast?) :
    isBlank c = false := by
  rw [trim, trimEnd, List.getLast?_reverse, Option.mem_def] at h
  have front := List.head?_dropWhile_not isBlank (trimStart cs).reverse
  rw [h] at front
  simpa using front

theorem not_isBlank_of_head?_trim {cs : List Char} {c : Char} (h : c ∈ (trim cs).head?) :
    isBlank c = false := by
  have front : trim cs <+: trimStart cs := by
    rw [trim, trimEnd, ← List.reverse_suffix, List.reverse_reverse]
    exact List.dropWhile_suffix _
  obtain ⟨rest, same⟩ := front
  have first : (trimStart cs).head? = some c := by
    rw [← same, List.head?_append, Option.mem_def.1 h]
    rfl
  have solid := List.head?_dropWhile_not isBlank cs
  rw [← trimStart, first] at solid
  simpa using solid

/-- A trimmed text stays as it is. -/
theorem trim_trim (cs : List Char) : trim (trim cs) = trim cs :=
  trim_eq_self (fun _ hc => not_isBlank_of_head?_trim hc) fun _ hc =>
    not_isBlank_of_getLast?_trim hc

/-- Trimming takes away the blanks around a trimmed text. -/
theorem trim_between {lead cs trail : List Char} (leadBlank : ∀ c ∈ lead, isBlank c)
    (trimmed : trim cs = cs) (trailBlank : ∀ c ∈ trail, isBlank c) :
    trim (lead ++ (cs ++ trail)) = cs := by
  rw [trim, trimStart, List.dropWhile_append_of_pos leadBlank]
  cases cs with
  | nil =>
    rw [List.nil_append, List.dropWhile_eq_nil_iff.2 trailBlank]
    rfl
  | cons c rest =>
    have first : ¬ isBlank c := by
      rw [@not_isBlank_of_head?_trim (c :: rest) c (by rw [trimmed]; rfl)]
      exact Bool.false_ne_true
    have start : trimStart (c :: rest) = c :: rest := List.dropWhile_cons_of_neg first
    rw [List.cons_append, List.dropWhile_cons_of_neg first, ← List.cons_append, trimEnd,
      List.reverse_append,
      List.dropWhile_append_of_pos fun d hd => trailBlank d (List.mem_reverse.1 hd), ← trimEnd]
    conv_rhs => rw [← trimmed, trim, start]

theorem trim_append_blanks {cs trail : List Char} (blank : ∀ c ∈ trail, isBlank c) :
    trim (cs ++ trail) = trim cs := by
  obtain ⟨lead, trail', same, leadBlank, trailBlank⟩ := exists_trim cs
  conv_lhs => rw [same, List.append_assoc, List.append_assoc]
  exact trim_between leadBlank (trim_trim cs) (List.forall_mem_append.2 ⟨trailBlank, blank⟩)

theorem trim_blanks_append {lead : List Char} (blank : ∀ c ∈ lead, isBlank c) (cs : List Char) :
    trim (lead ++ cs) = trim cs := by
  rw [trim, trimStart, List.dropWhile_append_of_pos blank]
  rfl

theorem infix_of_mem_parts {cs part : List Char} (h : part ∈ parts separator cs) :
    part <:+: cs := by
  obtain ⟨segment, mem, rfl⟩ := List.mem_map.1 h
  obtain ⟨first, others⟩ := @infix_segmentsFrom separator .initial cs
  refine (infix_trim segment).trans ?_
  rcases List.mem_cons.1 mem with rfl | mem
  · exact first.isInfix
  · exact others segment mem

theorem of_mem_parts {cs part : List Char} (h : part ∈ parts separator cs) :
    part ⊆ cs ∧ trim part = part := by
  refine ⟨(infix_of_mem_parts h).subset, ?_⟩
  obtain ⟨segment, -, rfl⟩ := List.mem_map.1 h
  exact trim_trim segment

theorem of_mem_topWords {cs w : List Char} (h : w ∈ topWords cs) : w ⊆ cs ∧ trim w = w :=
  of_mem_parts (List.mem_of_mem_filter h)

theorem flatMap_intercalate {gap : List Char} (some_ : gap ≠ [])
    (hgap : ∀ c ∈ gap, separator c ∧ isStructural c = false) {xs : List (List Char)}
    (closed : xs.Pairwise fun x _ => IsClosed x) :
    wordsBy separator (gap.intercalate xs) = xs.flatMap (wordsBy separator) := by
  obtain ⟨c, gap, rfl⟩ := List.exists_cons_of_ne_nil some_
  obtain ⟨hc, structural⟩ := hgap c List.mem_cons_self
  induction xs with
  | nil => rfl
  | cons x xs ih =>
    obtain ⟨first, others⟩ := List.pairwise_cons.1 closed
    cases xs with
    | nil => simp
    | cons y ys =>
      rw [List.intercalate_cons_cons, List.append_assoc, List.cons_append,
        wordsBy_append (first y List.mem_cons_self) hc structural,
        wordsBy_gap_append fun d hd => hgap d (List.mem_cons_of_mem _ hd), ih others]
      rfl

theorem isClosed_intercalate {gap : List Char} (hgap : ∀ c ∈ gap, isStructural c = false)
    {xs : List (List Char)} (closed : ∀ x ∈ xs, IsClosed x) : IsClosed (gap.intercalate xs) := by
  induction xs with
  | nil => exact isClosed_nil
  | cons x xs ih =>
    cases xs with
    | nil => simpa using closed x List.mem_cons_self
    | cons y ys =>
      rw [List.intercalate_cons_cons]
      refine ((closed x List.mem_cons_self).append (isClosed_of_plain hgap)).append ?_
      exact ih fun z hz => closed z (List.mem_cons_of_mem _ hz)

/-- A text without separators is one word. -/
theorem wordsBy_of_solid (blanks : ∀ c, isBlank c → separator c) {w : List Char} (some_ : w ≠ [])
    (solid : ∀ c ∈ w, separator c = false) : wordsBy separator w = [w] := by
  have whole : segments separator w = [w] := by
    rcases segmentsFrom_cases separator .initial w with h | ⟨first, c, rest, rfl, hc, -⟩
    · rw [segments, h]
    · rw [solid c (by simp)] at hc
      cases hc
  have unblank : ∀ c ∈ w, isBlank c = false := by
    intro c hc
    rw [Bool.eq_false_iff]
    intro blank
    have other := solid c hc
    rw [blanks c blank] at other
    cases other
  refine wordsBy_of_segments whole (trim_eq_self (fun c hc => ?_) fun c hc => ?_) some_
  · exact unblank c (List.mem_of_mem_head? hc)
  · exact unblank c (List.mem_of_getLast? hc)

end Words

/-- A comma or a blank. -/
def isGap (c : Char) : Bool := isBlank c || c == ','

/-- The words between commas and blanks. -/
def gapWords (cs : List Char) : List (List Char) := wordsBy isGap cs

theorem isGap_of_isBlank (c : Char) (h : isBlank c) : isGap c := by simp [isGap, h]

theorem isGap_structural {c : Char} (h : isGap c) : isStructural c = false := by
  rw [isGap, Bool.or_eq_true, beq_iff_eq] at h
  rcases h with h | rfl
  · exact isBlank_structural h
  · rfl

theorem gapWords_trim {cs : List Char} (closed : IsClosed cs) :
    gapWords (trim cs) = gapWords cs := wordsBy_trim isGap_of_isBlank closed

theorem gapWords_commaParts {cs : List Char} (closed : IsClosed cs) :
    (commaParts cs).flatMap gapWords = gapWords cs :=
  flatMap_parts (fun c hc => by simp [isGap, eq_of_beq hc]) isGap_of_isBlank closed

theorem flatMap_filter_ne_nil {α : Type} (read : List Char → List α) (nothing : read [] = [])
    (words : List (List Char)) : (words.filter (· ≠ [])).flatMap read = words.flatMap read := by
  induction words with
  | nil => rfl
  | cons w words ih =>
    by_cases empty : w = []
    · rw [List.filter_cons_of_neg (by simp [empty]), ih, empty, List.flatMap_cons, nothing,
        List.nil_append]
    · rw [List.filter_cons_of_pos (by simp [empty]), List.flatMap_cons, List.flatMap_cons, ih]

theorem gapWords_topWords {cs : List Char} (closed : IsClosed cs) :
    (topWords cs).flatMap gapWords = gapWords cs := by
  rw [topWords, flatMap_filter_ne_nil gapWords rfl]
  exact flatMap_parts isGap_of_isBlank isGap_of_isBlank closed

theorem isClosed_of_mem_topWords {cs w : List Char} (closed : IsClosed cs)
    (h : w ∈ topWords cs) : IsClosed w :=
  isClosed_of_mem_parts closed (List.mem_of_mem_filter h)

theorem gapWords_intercalate {gap : List Char} (some_ : gap ≠ []) (hgap : ∀ c ∈ gap, isGap c)
    {xs : List (List Char)} (closed : ∀ x ∈ xs, IsClosed x) :
    gapWords (gap.intercalate xs) = xs.flatMap gapWords :=
  flatMap_intercalate some_ (fun c hc => ⟨hgap c hc, isGap_structural (hgap c hc)⟩)
    (List.pairwise_of_forall_mem_list fun x hx _ _ => closed x hx)

/-- A text without commas and blanks is one word. -/
theorem gapWords_of_solid {w : List Char} (some_ : w ≠ []) (solid : ∀ c ∈ w, isGap c = false) :
    gapWords w = [w] := wordsBy_of_solid isGap_of_isBlank some_ solid

end BracketCss.Scan
