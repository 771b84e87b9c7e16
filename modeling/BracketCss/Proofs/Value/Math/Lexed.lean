import BracketCss.Proofs.Value.Math.Accepted

/-!
# Texts and their tokens

The tokens of a text as a relation between places: from the place before the text, which says what
may come first, to the place after it, which says what may come next. In this form texts can be put
together and taken apart. A text is accepted as an arithmetic expression exactly if its tokens are
those of a tree that obeys the rules and has the parentheses that precedence needs.

## Main definitions

* `MathToken.IsLexed place cs tokens after`: the tokens of a text

## Main results

* `MathToken.lexUpTo_eq_complete_iff`: a text that is read to its end is read as its tokens
* `MathExpr.ofChars_eq_ok_iff`: the expression of a text
* `checkMath_iff_tree`: which texts are accepted
* `MathToken.isLexed_stop_iff`: a text is cut at its commas and closing parentheses
-/

namespace BracketCss

open Text

namespace MathToken

/-- The tokens of a text, from the place before it to the place after it. -/
inductive IsLexed : Place → List Char → List MathToken → Place → Prop
  | nil {place : Place} {space : List Char} : (∀ c ∈ space, isSpace c) →
      IsLexed place space [] place
  | cons {place after : Place} {space cs rest : List Char} {token : MathToken}
      {tokens : List MathToken} : (∀ c ∈ space, isSpace c) → next? place cs = some (token, rest) →
      IsLexed token.place rest tokens after → IsLexed place (space ++ cs) (token :: tokens) after

section Lexed

variable {place after : Place} {cs rest : List Char} {token : MathToken} {tokens : List MathToken}

/-- A token is neither empty nor does it start with white space. -/
theorem head_of_next? (h : next? place cs = some (token, rest)) :
    cs ≠ [] ∧ ∀ c ∈ cs.head?, isSpace c = false := by
  obtain ⟨lexeme, rfl, -⟩ := next?_eq_some h
  have some_ := text_ne_nil lexeme
  refine ⟨List.append_ne_nil_of_left_ne_nil some_ rest, fun c hc => ?_⟩
  rw [List.head?_append_of_ne_nil _ some_] at hc
  rw [Bool.eq_false_iff]
  intro space
  have bare := (isBare_text lexeme).first c hc
  rw [isBlank_of_isSpace space] at bare
  cases bare

theorem length_of_next? (h : next? place cs = some (token, rest)) : rest.length < cs.length := by
  obtain ⟨lexeme, rfl, -⟩ := next?_eq_some h
  have some_ := List.length_pos_iff.2 (text_ne_nil lexeme)
  rw [List.length_append]
  omega

theorem IsLexed.first (found : next? place cs = some (token, rest))
    (h : IsLexed token.place rest tokens after) : IsLexed place cs (token :: tokens) after := by
  rw [← List.nil_append cs]
  exact .cons (List.forall_mem_nil _) found h

/-- A text that starts with no white space starts with its first token. -/
theorem IsLexed.of_solid (h : IsLexed place cs tokens after) (some_ : cs ≠ [])
    (solid : ∀ c ∈ cs.head?, isSpace c = false) :
    ∃ token rest others, next? place cs = some (token, rest) ∧ tokens = token :: others ∧
      IsLexed token.place rest others after := by
  have bare : ∀ {space cs : List Char}, (∀ c ∈ space, isSpace c) →
      (∀ c ∈ (space ++ cs).head?, isSpace c = false) → space = [] := by
    intro space cs blank solid
    cases space with
    | nil => rfl
    | cons c space =>
      have here := solid c rfl
      rw [blank c List.mem_cons_self] at here
      cases here
  cases h with
  | nil blank => exact absurd (bare blank (by rwa [List.append_nil])) some_
  | cons blank found later =>
    rw [bare blank solid]
    exact ⟨_, _, _, found, rfl, later⟩

/-- Nothing is read from nothing. -/
theorem IsLexed.of_nil (h : IsLexed place [] tokens after) : tokens = [] ∧ after = place := by
  generalize none_ : ([] : List Char) = cs at h
  cases h with
  | nil => exact ⟨rfl, rfl⟩
  | cons _ found _ => exact absurd (List.append_eq_nil_iff.1 none_.symm).2 (head_of_next? found).1

theorem IsLexed.flows (h : IsLexed place cs tokens after) : Flows place tokens := by
  induction h with
  | nil => trivial
  | cons _ found _ ih => exact ⟨(next?_eq_some found).2.2, ih⟩

theorem IsLexed.isWritten (h : IsLexed place cs tokens after) : IsWritten tokens cs := by
  induction h with
  | nil blank => exact .nil blank
  | cons blank found _ ih =>
    obtain ⟨-, rfl, -⟩ := next?_eq_some found
    exact .cons _ blank ih

/-- What holds of white space and of the characters of the tokens holds of the whole text. -/
theorem IsWritten.forall {p : Char → Prop} (space : ∀ c, isSpace c → p c)
    (h : IsWritten tokens cs) (each : ∀ token ∈ tokens, ∀ c ∈ token.text, p c) :
    ∀ c ∈ cs, p c := by
  induction h with
  | nil blank => exact fun c hc => space c (blank c hc)
  | cons token blank _ ih =>
    obtain ⟨first, others⟩ := List.forall_mem_cons.1 each
    refine List.forall_mem_append.2 ⟨fun c hc => space c (blank c hc), ?_⟩
    exact List.forall_mem_append.2 ⟨first, ih others⟩

theorem IsWritten.count {c : Char} (solid : isSpace c = false) (h : IsWritten tokens cs) :
    cs.count c = (tokens.flatMap text).count c := by
  have none_ : ∀ space : List Char, (∀ c ∈ space, isSpace c) → space.count c = 0 := by
    intro space blank
    rw [List.count_eq_zero]
    intro mem
    rw [blank c mem] at solid
    cases solid
  induction h with
  | nil blank => rw [none_ _ blank, List.flatMap_nil, List.count_nil]
  | cons token blank _ ih =>
    rw [List.count_append, none_ _ blank, List.count_append, ih, List.flatMap_cons,
      List.count_append, Nat.zero_add]

/-- **A text that is read to its end** is read as its tokens. -/
theorem lexUpTo_eq_complete_iff {bound : Nat} (fits : cs.length < bound) :
    lexUpTo bound place cs = (tokens, .complete) ↔ ∃ after, IsLexed place cs tokens after := by
  constructor
  · intro h
    induction bound generalizing place cs tokens with
    | zero => exact absurd fits (Nat.not_lt_zero _)
    | succ bound ih =>
      have cut := List.takeWhile_append_dropWhile (p := isSpace) (l := cs)
      have blank : ∀ c ∈ cs.takeWhile isSpace, isSpace c :=
        fun c hc => List.all_eq_true.1 List.all_takeWhile c hc
      rw [lexUpTo] at h
      generalize cs.takeWhile isSpace = space at cut blank
      generalize cs.dropWhile isSpace = solid at h cut
      subst cut
      split at h
      · obtain ⟨rfl, -⟩ := Prod.mk.inj h
        rw [List.append_nil]
        exact ⟨place, .nil blank⟩
      · split at h
        · next token rest found =>
          obtain ⟨rfl, complete⟩ := Prod.mk.inj h
          have shorter := length_of_next? found
          rw [List.length_append] at fits
          obtain ⟨after, later⟩ := ih (show rest.length < bound by omega)
            (Prod.ext rfl complete)
          exact ⟨after, .cons blank found later⟩
        · obtain ⟨-, stopped⟩ := Prod.mk.inj h
          split at stopped <;> cases stopped
  · rintro ⟨after, h⟩
    induction h generalizing bound with
    | nil blank =>
      obtain ⟨bound, rfl⟩ := Nat.exists_eq_succ_of_ne_zero (Nat.ne_zero_of_lt fits)
      rw [lexUpTo, List.dropWhile_eq_nil_iff.2 blank]
    | cons blank found _ ih =>
      obtain ⟨bound, rfl⟩ := Nat.exists_eq_succ_of_ne_zero (Nat.ne_zero_of_lt fits)
      obtain ⟨some_, solid⟩ := head_of_next? found
      have shorter := length_of_next? found
      rw [List.length_append] at fits
      rw [lexUpTo_succ blank some_ solid, found]
      dsimp only
      rw [ih (by omega)]

end Lexed

/-! ## Commas and closing parentheses -/

/-- A comma or a closing parenthesis. -/
def IsStop (c : Char) : Prop := c = ',' ∨ c = ')'

/-- The token of a comma or of a closing parenthesis. -/
def stopToken (c : Char) : MathToken := if c = ',' then comma else closing

section Stops
variable {stop : Char} {xs ys : List Char}

theorem takeWhile_stop {p : Char → Bool} (h : p stop = false) :
    (xs ++ stop :: ys).takeWhile p = xs.takeWhile p ∧
      (xs ++ stop :: ys).drop (xs.takeWhile p).length =
        xs.drop (xs.takeWhile p).length ++ stop :: ys := by
  constructor
  · induction xs with
    | nil => exact List.takeWhile_cons_of_neg (by simp [h])
    | cons x xs ih =>
      rw [List.cons_append]
      cases px : p x with
      | true => rw [List.takeWhile_cons_of_pos px, List.takeWhile_cons_of_pos px, ih]
      | false =>
        rw [List.takeWhile_cons_of_neg (by simp [px]), List.takeWhile_cons_of_neg (by simp [px])]
  · exact List.drop_append_of_le_length (List.takeWhile_prefix p).length_le

/-- A stop belongs to no number and to no name. -/
theorem IsStop.of_forall {p : Char → Bool} (table : p ',' = false ∧ p ')' = false)
    (h : IsStop stop) : p stop = false := by
  rcases h with rfl | rfl
  · exact table.1
  · exact table.2

theorem IsStop.head?_append (h : IsStop stop) (ys : List Char) {c : Char}
    (other : c ≠ ',' ∧ c ≠ ')') (front : xs.head? ≠ some c) :
    (xs ++ stop :: ys).head? ≠ some c := by
  cases xs with
  | nil =>
    rcases h with rfl | rfl
    · exact fun same => other.1 (Option.some.inj same).symm
    · exact fun same => other.2 (Option.some.inj same).symm
  | cons d xs => exact front

/-- Without a point behind its digits, a number is its digits. -/
theorem ofUnsigned?_whole {cs : List Char}
    (h : (cs.drop (cs.takeWhile isDecimal).length).head? ≠ some '.') :
    Decimal.ofUnsigned? cs =
      if cs.takeWhile isDecimal = [] then none
      else some (⟨false, decimalNat (cs.takeWhile isDecimal), 0⟩,
        cs.drop (cs.takeWhile isDecimal).length) := by
  simp only [Decimal.ofUnsigned?]
  split
  · next rest same => exact absurd (by rw [same]; rfl) h
  · generalize cs.takeWhile isDecimal = digits
    cases digits <;> rfl

theorem ofUnsigned?_stop (h : IsStop stop) : Decimal.ofUnsigned? (xs ++ stop :: ys) =
    (Decimal.ofUnsigned? xs).map fun found => (found.1, found.2 ++ stop :: ys) := by
  have digit : isDecimal stop = false := h.of_forall (by decide)
  obtain ⟨run, rest⟩ := @takeWhile_stop stop xs ys isDecimal digit
  by_cases point : (xs.drop (xs.takeWhile isDecimal).length).head? = some '.'
  · obtain ⟨after, same⟩ := List.head?_eq_some_iff.1 point
    obtain ⟨places, -⟩ := @takeWhile_stop stop after ys isDecimal digit
    have fits : (after.takeWhile isDecimal).length ≤ after.length :=
      (List.takeWhile_prefix _).length_le
    simp only [Decimal.ofUnsigned?, run, rest, same, List.cons_append, places, Nat.add_comm 1,
      List.drop_succ_cons, List.drop_append_of_le_length fits]
    split
    · rfl
    · split <;> rfl
  · have point' := h.head?_append ys (by decide) point
    rw [← rest, ← run] at point'
    rw [ofUnsigned?_whole point, ofUnsigned?_whole point', run, rest]
    split <;> rfl

theorem unitLength_of_ne {cs : List Char} (h : cs.head? ≠ some '%') :
    unitLength cs = (cs.takeWhile isAsciiLetter).length := by
  unfold unitLength
  split
  · exact absurd rfl h
  · rfl

theorem unitLength_le (cs : List Char) : unitLength cs ≤ cs.length := by
  unfold unitLength
  split
  · exact Nat.le_add_left 1 _
  · exact (List.takeWhile_prefix _).length_le

theorem unitLength_stop (h : IsStop stop) : unitLength (xs ++ stop :: ys) = unitLength xs := by
  have letter : isAsciiLetter stop = false := h.of_forall (by decide)
  by_cases percent : xs.head? = some '%'
  · obtain ⟨rest, rfl⟩ := List.head?_eq_some_iff.1 percent
    rfl
  · have percent' := h.head?_append ys (by decide) percent
    rw [unitLength_of_ne percent, unitLength_of_ne percent', (takeWhile_stop letter).1]

/-- What is read off the front of a text, where a stop follows the text. -/
def ReadsUpTo (read : List Char → Option (MathToken × List Char)) (xs : List Char) : Prop :=
  ∀ stop ys, IsStop stop →
    read (xs ++ stop :: ys) = (read xs).map fun found => (found.1, found.2 ++ stop :: ys)

theorem readsUpTo_numeral? (xs : List Char) : ReadsUpTo numeral? xs := by
  intro stop ys h
  rw [numeral?, numeral?, ofUnsigned?_stop h, Option.map_map, Option.map_map]
  cases found : Decimal.ofUnsigned? xs with
  | none => rfl
  | some result =>
    obtain ⟨value, rest⟩ := result
    obtain ⟨n, rfl, -⟩ := isNumeral_of_ofUnsigned? found
    have size : (n ++ rest ++ stop :: ys).length - (rest ++ stop :: ys).length =
        (n ++ rest).length - rest.length := by
      simp only [List.length_append]
      omega
    have fits := unitLength_le rest
    simp only [Option.map_some, Function.comp_apply, unitLength_stop h, size]
    generalize unitLength rest = unit at fits
    cases unit with
    | zero =>
      rw [List.take_append_of_le_length (by omega)]
      rfl
    | succ unit =>
      have taken : (n ++ rest).length - rest.length + (unit + 1) ≤ (n ++ rest).length := by
        simp only [List.length_append]
        omega
      simp only [List.take_append_of_le_length taken, List.drop_append_of_le_length fits]

theorem readsUpTo_name? (xs : List Char) : ReadsUpTo name? xs := by
  intro stop ys h
  have char : isAsciiNameChar stop = false := h.of_forall (by decide)
  have opening : stop ≠ '(' := by rcases h with rfl | rfl <;> decide
  obtain ⟨run, rest⟩ := @takeWhile_stop stop xs ys isAsciiNameChar char
  simp only [name?, run, rest]
  generalize xs.drop (xs.takeWhile isAsciiNameChar).length = after
  split
  · rfl
  · cases after with
    | nil =>
      simp [opening]
    | cons c after =>
      by_cases same : c = '('
      · subst same
        rfl
      · simp [same]

theorem customProperty?_eq_none {cs : List Char} (h : ¬ ['-', '-'] <+: cs) :
    customProperty? cs = none := by
  unfold customProperty?
  split
  · next rest => exact absurd ⟨rest, rfl⟩ h
  · rfl

theorem readsUpTo_customProperty? (xs : List Char) : ReadsUpTo customProperty? xs := by
  intro stop ys h
  have char : (isAsciiNameChar stop || stop == '_') = false :=
    h.of_forall (p := fun c => isAsciiNameChar c || c == '_') (by decide)
  by_cases hyphens : ['-', '-'] <+: xs
  · obtain ⟨name, rfl⟩ := hyphens
    obtain ⟨run, rest⟩ :=
      @takeWhile_stop stop name ys (fun c => isAsciiNameChar c || c == '_') char
    simp only [List.cons_append, List.nil_append, customProperty?, run, rest]
    split <;> rfl
  · have hyphens' : ¬ ['-', '-'] <+: xs ++ stop :: ys := by
      have minus : stop ≠ '-' := by rcases h with rfl | rfl <;> decide
      intro front
      rcases xs with - | ⟨c, - | ⟨d, xs⟩⟩
      · simp [List.cons_prefix_cons, minus.symm] at front
      · simp [List.cons_prefix_cons, minus.symm] at front
      · simp only [List.cons_append, List.cons_prefix_cons] at front hyphens
        exact hyphens ⟨front.1, front.2.1, List.nil_prefix⟩
    rw [customProperty?_eq_none hyphens, customProperty?_eq_none hyphens']
    rfl

theorem ReadsUpTo.orElse {first second : List Char → Option (MathToken × List Char)}
    (h : ReadsUpTo first xs) (h' : ReadsUpTo second xs) :
    ReadsUpTo (fun cs => first cs <|> second cs) xs := by
  intro stop ys isStop
  dsimp only
  rw [h stop ys isStop, h' stop ys isStop]
  cases first xs <;> rfl

theorem readsUpTo_next? (place : Place) (some_ : xs ≠ []) : ReadsUpTo (next? place) xs := by
  have names := (readsUpTo_numeral? xs).orElse (readsUpTo_name? xs)
  obtain ⟨c, xs, rfl⟩ := List.exists_cons_of_ne_nil some_
  have signs : ReadsUpTo sign? (c :: xs) := by
    intro stop ys _
    rw [List.cons_append]
    unfold sign?
    split <;> simp_all
  have marks : ReadsUpTo mark? (c :: xs) := by
    intro stop ys _
    rw [List.cons_append]
    unfold mark?
    split <;> simp_all
  cases place with
  | operand => exact names.orElse signs
  | argument => exact names.orElse ((readsUpTo_customProperty? _).orElse signs)
  | operator => exact marks

theorem next?_stop (h : IsStop stop) {place : Place} {found : MathToken × List Char} :
    next? place (stop :: ys) = some found ↔ place = .operator ∧ found = (stopToken stop, ys) := by
  have noNumber : startsNumber stop = false := h.of_forall (by decide)
  have noLetter : isAsciiLetter stop = false := h.of_forall (by decide)
  have noName := numeral?_name?_eq_none noNumber noLetter ys
  have noSign : sign? (stop :: ys) = none := by rcases h with rfl | rfl <;> rfl
  have noProperty : customProperty? (stop :: ys) = none := by rcases h with rfl | rfl <;> rfl
  have mark : mark? (stop :: ys) = some (stopToken stop, ys) := by rcases h with rfl | rfl <;> rfl
  cases place with
  | operator => simp [next?, mark, eq_comm]
  | operand =>
    rw [next?, noName, noSign]
    simp
  | argument =>
    rw [next?, noName, noProperty, noSign]
    simp

/-- White space ends before the mark. -/
theorem IsStop.exists_solid (h : IsStop stop) {space cs : List Char}
    (blank : ∀ c ∈ space, isSpace c) (whole : xs ++ stop :: ys = space ++ cs) :
    ∃ solid, xs = space ++ solid ∧ cs = solid ++ stop :: ys := by
  rcases List.append_eq_append_iff.1 whole with ⟨text, rfl, same⟩ | both
  · cases text with
    | nil => exact ⟨[], by simp, by simpa using same.symm⟩
    | cons c text =>
      obtain ⟨rfl, -⟩ := List.cons.inj same
      have solid : isSpace stop = false := h.of_forall (by decide)
      rw [blank stop (by simp)] at solid
      cases solid
  · exact both

theorem IsLexed.exists_cut (h : IsStop stop) {place after : Place} {tokens : List MathToken}
    (lexed : IsLexed place (xs ++ stop :: ys) tokens after) :
    ∃ front back, tokens = front ++ stopToken stop :: back ∧
      IsLexed place xs front .operator ∧ IsLexed (stopToken stop).place ys back after := by
  induction size : xs.length using Nat.strongRecOn generalizing xs place tokens with
  | ind n ih =>
    subst size
    generalize whole : xs ++ stop :: ys = cs at lexed
    cases lexed with
    | nil blank =>
      have solid : isSpace stop = false := h.of_forall (by decide)
      rw [blank stop (whole ▸ by simp)] at solid
      cases solid
    | @cons _ _ space cs rest token tokens blank found later =>
      obtain ⟨solid, rfl, rfl⟩ := h.exists_solid blank whole
      cases solid with
      | nil =>
        obtain ⟨rfl, same⟩ := (next?_stop h).1 found
        obtain ⟨rfl, rfl⟩ := Prod.mk.inj same
        rw [List.append_nil]
        exact ⟨[], tokens, rfl, .nil blank, later⟩
      | cons c text =>
        rw [readsUpTo_next? place (List.cons_ne_nil c text) stop ys h] at found
        obtain ⟨⟨token', rest'⟩, first, same⟩ := Option.map_eq_some_iff.1 found
        obtain ⟨rfl, rfl⟩ := Prod.mk.inj same
        have shorter := length_of_next? first
        obtain ⟨front, back, rfl, lexed, lexed'⟩ :=
          ih rest'.length (by rw [List.length_append]; omega) later rfl
        exact ⟨_ :: front, back, rfl, .cons blank first lexed, lexed'⟩

theorem IsLexed.append_stop (h : IsStop stop) {place after : Place} {front back : List MathToken}
    (lexed : IsLexed place xs front .operator)
    (lexed' : IsLexed (stopToken stop).place ys back after) :
    IsLexed place (xs ++ stop :: ys) (front ++ stopToken stop :: back) after := by
  generalize ends : Place.operator = here at lexed
  induction lexed with
  | nil blank =>
    subst ends
    exact .cons blank ((next?_stop h).2 ⟨rfl, rfl⟩) lexed'
  | @cons place _ space cs rest token tokens blank found _ ih =>
    obtain ⟨some_, -⟩ := head_of_next? found
    rw [List.append_assoc]
    refine .cons blank ?_ (ih ends)
    rw [readsUpTo_next? place some_ stop ys h, found]
    rfl

/-- **A text is cut at a comma or a closing parenthesis**: the tokens before it end where an
operator may come, and the token of the mark comes next. -/
theorem isLexed_stop_iff (h : IsStop stop) {place after : Place} {tokens : List MathToken} :
    IsLexed place (xs ++ stop :: ys) tokens after ↔
      ∃ front back, tokens = front ++ stopToken stop :: back ∧
        IsLexed place xs front .operator ∧ IsLexed (stopToken stop).place ys back after := by
  constructor
  · exact IsLexed.exists_cut h
  · rintro ⟨front, back, rfl, lexed, lexed'⟩
    exact lexed.append_stop h lexed'

/-- **A text is cut where its tokens are**: before a comma or a closing parenthesis. -/
theorem IsLexed.exists_stop (h : IsStop stop) {place after : Place} {cs : List Char}
    {front back : List MathToken}
    (lexed : IsLexed place cs (front ++ stopToken stop :: back) after) :
    ∃ xs ys, cs = xs ++ stop :: ys ∧ IsLexed place xs front .operator ∧
      IsLexed (stopToken stop).place ys back after := by
  induction front generalizing place cs with
  | nil =>
    cases lexed with
    | @cons _ _ space cs rest _ _ blank found later =>
      obtain ⟨-, rfl, comes⟩ := next?_eq_some found
      have here : place = .operator := by
        rcases h with rfl | rfl <;> cases place <;> first | rfl | cases comes
      have text : (stopToken stop).text = [stop] := by rcases h with rfl | rfl <;> rfl
      subst here
      exact ⟨space, rest, by rw [text]; rfl, .nil blank, later⟩
  | cons token front ih =>
    cases lexed with
    | @cons _ _ space cs rest _ _ blank found later =>
      obtain ⟨xs, ys, rfl, before, behind⟩ := ih later
      obtain ⟨lexeme, rfl, -⟩ := next?_eq_some found
      have some_ : token.text ++ xs ≠ [] :=
        List.append_ne_nil_of_left_ne_nil (text_ne_nil lexeme) xs
      rw [← List.append_assoc, readsUpTo_next? place some_ stop ys h] at found
      obtain ⟨⟨token', rest'⟩, first, same⟩ := Option.map_eq_some_iff.1 found
      obtain ⟨rfl, behind_⟩ := Prod.mk.inj same
      obtain rfl : rest' = xs := List.append_cancel_right behind_
      exact ⟨space ++ (token'.text ++ rest'), ys, by simp, .cons blank first before, behind⟩

end Stops

end MathToken

/-- **The expression of a text**: its tokens are those of a tree that has the parentheses that
precedence needs. -/
theorem MathExpr.ofChars_eq_ok_iff {cs : List Char} {e : MathExpr} :
    MathExpr.ofChars cs = .ok e ↔
      e.IsBracketed false ∧ ∃ after, MathToken.IsLexed .operand cs e.flatten after := by
  have fits : cs.length < cs.length + 1 := Nat.lt_succ_self _
  constructor
  · intro h
    rw [ofChars] at h
    have lexed : MathToken.lexUpTo (cs.length + 1) .operand cs = _ :=
      (Prod.eta (MathToken.lex .operand cs)).symm
    obtain ⟨lexemes, flows, -⟩ := MathToken.lexUpTo_spec fits lexed
    have start : IsReading .operand [] none := .waiting .nil (by rintro ⟨⟩)
    obtain ⟨complete, tree, flat⟩ := start.written lexemes flows.hasPlacedNames h
    rw [readSoFar, openTokens, List.nil_append] at flat
    exact ⟨tree, (MathToken.lexUpTo_eq_complete_iff fits).1 (Prod.ext flat.symm complete)⟩
  · rintro ⟨⟨tree, same⟩, after, lexed⟩
    have full : e.IsFull := tree.flows_iff.1 lexed.flows
    have read : MathToken.lex .operand cs = (e.flatten, .complete) :=
      (MathToken.lexUpTo_eq_complete_iff fits).2 ⟨after, lexed⟩
    have reads : Reads .complete e.bracketed := tree.reads full
    rw [same] at reads
    have whole := reads [] [] (Nat.zero_le _) (by rintro - op ⟨⟩)
    rw [List.append_nil] at whole
    rw [ofChars, read]
    exact whole.trans rfl

/-- **Which texts are accepted**: those whose tokens are those of a tree that obeys the rules and
has the parentheses that precedence needs. -/
theorem checkMath_iff_tree {cs : List Char} :
    checkMath cs = .ok () ↔ ∃ e : MathExpr, e.IsBracketed false ∧ e.Obeys ∧
      ∃ after, MathToken.IsLexed .operand (trim cs) e.flatten after := by
  rw [checkMath_eq_ok_iff]
  constructor
  · rintro ⟨-, -, -, e, read, amounts⟩
    obtain ⟨bracketed, lexed⟩ := MathExpr.ofChars_eq_ok_iff.1 read
    exact ⟨e, bracketed, bracketed.tree.operand_eq_ok_iff.1 amounts, lexed⟩
  · rintro ⟨e, bracketed, obeys, after, lexed⟩
    have written := lexed.isWritten
    have lexemes := bracketed.tree.isLexeme
    generalize trim cs = text at lexed written
    refine ⟨?_, ?_, ?_, e, MathExpr.ofChars_eq_ok_iff.2 ⟨bracketed, after, lexed⟩,
      bracketed.tree.operand_eq_ok_iff.2 obeys⟩
    · obtain ⟨token, rest, same⟩ := List.exists_cons_of_ne_nil e.flatten_ne_nil
      rw [same] at written lexemes
      cases written with
      | cons token _ _ =>
        simp [MathToken.text_ne_nil (lexemes token List.mem_cons_self)]
    · refine written.forall (fun c space => ?_) fun token mem c hc => ?_
      · simp [isMathChar, MathToken.isBlank_of_isSpace space]
      · have ofToken := MathToken.isTokenChar_text (lexemes token mem) c hc
        exact MathToken.isMathChar_of_isTokenChar ofToken
    · rw [written.count (by decide), written.count (by decide)]
      exact bracketed.tree.balanced

end BracketCss
