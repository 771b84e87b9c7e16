import BracketCss.Proofs.Value.Math.Lexeme

/-!
# Writing and reading the tokens of expressions

The tokens of a text that is read to its end come one after the other with white space around some
of them, each where it may come; and tokens written with single spaces between them are read again.

## Main definitions

* `MathToken.Flows place tokens`: every token comes where it may
* `MathToken.spaced tokens`: tokens with single spaces between them
* `MathToken.IsWritten tokens cs`: a text made of tokens and white space

## Main results

* `MathToken.lexUpTo_spaced`: tokens with spaces between them are read again
* `MathToken.lexUpTo_spec`: the tokens of a text
-/

namespace BracketCss

open Text

namespace MathToken

/-- Every token of a list is well placed, from a place on. -/
def Along (placed : Place → MathToken → Prop) : Place → List MathToken → Prop
  | _, [] => True
  | place, token :: tokens => placed place token ∧ Along placed token.place tokens

/-- Every token of a list comes where it may. -/
def Flows (place : Place) (tokens : List MathToken) : Prop :=
  Along (fun place token => comesAt place token) place tokens

/-- The names of custom properties come as arguments only. -/
def HasPlacedNames (place : Place) (tokens : List MathToken) : Prop :=
  Along (fun place token => ∀ cs, token = customProperty cs → place = .argument) place tokens

/-- Tokens with a space between two of them. -/
def spaced (tokens : List MathToken) : List Char := [' '].intercalate (tokens.map text)

/-- A text is made of tokens, with white space around them wherever one likes. -/
inductive IsWritten : List MathToken → List Char → Prop
  | nil {space : List Char} : (∀ c ∈ space, isSpace c) → IsWritten [] space
  | cons {space cs : List Char} {tokens : List MathToken} (token : MathToken) :
      (∀ c ∈ space, isSpace c) → IsWritten tokens cs →
      IsWritten (token :: tokens) (space ++ (token.text ++ cs))

theorem placedName_of_comesAt {place : Place} {token : MathToken} (h : comesAt place token)
    (cs : List Char) (name : token = customProperty cs) : place = .argument := by
  subst name
  cases place with
  | operand | operator => cases h
  | argument => rfl

theorem Along.imp {p q : Place → MathToken → Prop}
    (imp : ∀ place token, p place token → q place token) {place : Place} {tokens : List MathToken}
    (h : Along p place tokens) : Along q place tokens := by
  induction tokens generalizing place with
  | nil => trivial
  | cons token tokens ih => exact ⟨imp _ _ h.1, ih h.2⟩

theorem Flows.hasPlacedNames {place : Place} {tokens : List MathToken} (h : Flows place tokens) :
    HasPlacedNames place tokens := Along.imp (fun _ _ => placedName_of_comesAt) h

/-- A character of a token, parentheses aside. -/
def isPlainChar (c : Char) : Bool :=
  isDecimal c || isAsciiLetter c || "+-*/.%_,".toList.contains c

/-- A character of a token. -/
def isTokenChar (c : Char) : Bool := isPlainChar c || "()".toList.contains c

theorem isMathChar_of_isTokenChar {c : Char} (h : isTokenChar c) : isMathChar c := by
  have marks : ∀ d ∈ "+-*/.%_,".toList ++ "()".toList, "+-*/.()%_,".toList.contains d := by decide
  simp only [isTokenChar, isPlainChar, Bool.or_eq_true, List.contains_iff_mem] at h
  simp only [isMathChar, Bool.or_eq_true]
  rcases h with ((digit | letter) | mark) | paren
  · exact .inl (.inl (.inl digit))
  · exact .inl (.inr letter)
  · exact .inr (marks c (List.mem_append_left _ mark))
  · exact .inr (marks c (List.mem_append_right _ paren))

theorem not_isBlank_of_isTokenChar {c : Char} (h : isTokenChar c) : isBlank c = false := by
  have marks : ∀ d ∈ "+-*/.%_,".toList ++ "()".toList, isBlank d = false := by decide
  simp only [isTokenChar, isPlainChar, Bool.or_eq_true, List.contains_iff_mem] at h
  rcases h with ((digit | letter) | mark) | paren
  · exact not_isBlank_of_isDecimal digit
  · exact isBlank_of_isAsciiNameChar (by simp [isAsciiNameChar, isAsciiAlphanumeric, letter])
  · exact marks c (List.mem_append_left _ mark)
  · exact marks c (List.mem_append_right _ paren)

theorem isBlank_of_isSpace {c : Char} (h : isSpace c) : isBlank c := by
  simp only [isSpace, Bool.or_eq_true, beq_iff_eq] at h
  rcases h with (((rfl | rfl) | rfl) | rfl) | rfl <;> decide

section Plain

variable {cs : List Char}

theorem isPlainChar_of_isAsciiNameChar {c : Char} (h : isAsciiNameChar c) : isPlainChar c := by
  simp only [isAsciiNameChar, isAsciiAlphanumeric, Bool.or_eq_true, beq_iff_eq] at h
  rcases h with (letter | digit) | rfl
  · simp [isPlainChar, letter]
  · simp only [Bool.and_eq_true, decide_eq_true_eq] at digit
    simp [isPlainChar, isDecimal, decimalValue?_ascii digit.1 digit.2]
  · decide

theorem isPlainChar_of_isNumeral (h : IsNumeral cs) : ∀ c ∈ cs, isPlainChar c := by
  have digit : ∀ c, isDecimal c → isPlainChar c := fun c hc => by simp [isPlainChar, hc]
  cases h with
  | whole some_ digits => exact fun c hc => digit c (digits c hc)
  | fraction wholes some_ decimals =>
    refine List.forall_mem_append.2 ⟨fun c hc => digit c (wholes c hc), ?_⟩
    exact List.forall_mem_cons.2 ⟨by decide, fun c hc => digit c (decimals c hc)⟩

theorem isPlainChar_of_isUnitText (h : IsUnitText cs) : ∀ c ∈ cs, isPlainChar c := by
  rcases h with ⟨-, letters⟩ | rfl
  · exact fun c hc => by simp [isPlainChar, letters c hc]
  · exact List.forall_mem_singleton.2 (by decide)

theorem isPlainChar_of_isIdentifierText (h : IsIdentifierText cs) : ∀ c ∈ cs, isPlainChar c :=
  fun c hc => isPlainChar_of_isAsciiNameChar ((name_of_identifier h).1 c hc)

theorem isPlainChar_of_isPropertyText (h : IsPropertyText cs) : ∀ c ∈ cs, isPlainChar c := by
  obtain ⟨name, rfl, -, chars⟩ := h
  refine List.forall_mem_cons.2 ⟨by decide, List.forall_mem_cons.2 ⟨by decide, fun c hc => ?_⟩⟩
  have either := chars c hc
  rw [Bool.or_eq_true, beq_iff_eq] at either
  rcases either with nameChar | rfl
  · exact isPlainChar_of_isAsciiNameChar nameChar
  · decide

end Plain

theorem text_ne_nil {token : MathToken} (h : token.IsLexeme) : token.text ≠ [] := by
  have numeral : ∀ {cs : List Char}, IsNumeral cs → cs ≠ [] := by
    intro cs hn
    obtain ⟨c, rest, rfl, -⟩ := startsNumber_of_head hn
    exact List.cons_ne_nil c rest
  cases token with
  | number cs => exact numeral h
  | dimension cs =>
    obtain ⟨n, unit, hn, -, rfl⟩ := h
    exact List.append_ne_nil_of_left_ne_nil (numeral hn) unit
  | identifier cs =>
    obtain ⟨c, rest, rfl, -⟩ := h
    exact List.cons_ne_nil c rest
  | customProperty cs =>
    obtain ⟨name, rfl, -⟩ := h
    exact List.cons_ne_nil _ _
  | function name => exact List.append_ne_nil_of_right_ne_nil name (List.cons_ne_nil _ _)
  | operator op => cases op <;> exact List.cons_ne_nil _ _
  | opening | closing | comma => exact List.cons_ne_nil _ _

/-- The text of a token holds characters of expressions only. -/
theorem isTokenChar_text {token : MathToken} (h : token.IsLexeme) :
    ∀ c ∈ token.text, isTokenChar c := by
  have plain : ∀ {cs : List Char}, (∀ c ∈ cs, isPlainChar c) → ∀ c ∈ cs, isTokenChar c :=
    fun chars c hc => by simp [isTokenChar, chars c hc]
  cases token with
  | number cs => exact plain (isPlainChar_of_isNumeral h)
  | dimension cs =>
    obtain ⟨n, unit, hn, hu, rfl⟩ := h
    exact plain (List.forall_mem_append.2
      ⟨isPlainChar_of_isNumeral hn, isPlainChar_of_isUnitText hu⟩)
  | identifier cs => exact plain (isPlainChar_of_isIdentifierText h)
  | customProperty cs => exact plain (isPlainChar_of_isPropertyText h)
  | function name =>
    exact List.forall_mem_append.2
      ⟨plain (isPlainChar_of_isIdentifierText h), List.forall_mem_singleton.2 (by decide)⟩
  | operator op => cases op <;> exact List.forall_mem_singleton.2 (by decide)
  | opening | closing | comma => exact List.forall_mem_singleton.2 (by decide)

theorem isBare_text {token : MathToken} (h : token.IsLexeme) : IsBare token.text :=
  .of_forall (text_ne_nil h) fun c hc => not_isBlank_of_isTokenChar (isTokenChar_text h c hc)

/-! ## Writing -/

theorem isCut_nil : IsCut [] := by
  rintro c ⟨⟩

theorem isCut_space (cs : List Char) : IsCut (' ' :: cs) := by
  rintro c ⟨⟩
  rfl

section Written

variable {tokens : List MathToken}

/-- A token is followed by a space, or it is the last one. -/
theorem spaced_cons (token : MathToken) (tokens : List MathToken) :
    ∃ space, (space = [] ∨ space = [' ']) ∧ IsCut (space ++ spaced tokens) ∧
      spaced (token :: tokens) = token.text ++ (space ++ spaced tokens) := by
  cases tokens with
  | nil => exact ⟨[], .inl rfl, isCut_nil, by simp [spaced]⟩
  | cons next tokens =>
    refine ⟨[' '], .inr rfl, isCut_space _, ?_⟩
    simp only [spaced, List.map_cons, List.intercalate_cons_cons, List.append_assoc]

theorem forall_mem_spaced {p : Char → Prop} (space : p ' ')
    (h : ∀ token ∈ tokens, ∀ c ∈ token.text, p c) : ∀ c ∈ spaced tokens, p c := by
  induction tokens with
  | nil => exact List.forall_mem_nil _
  | cons token tokens ih =>
    obtain ⟨first, others⟩ := List.forall_mem_cons.1 h
    obtain ⟨gap, rfl | rfl, -, same⟩ := spaced_cons token tokens
    · rw [same]
      exact List.forall_mem_append.2 ⟨first, ih others⟩
    · rw [same]
      exact List.forall_mem_append.2 ⟨first, List.forall_mem_cons.2 ⟨space, ih others⟩⟩

theorem count_spaced {c : Char} (h : c ≠ ' ') :
    (spaced tokens).count c = (tokens.flatMap text).count c := by
  induction tokens with
  | nil => rfl
  | cons token tokens ih =>
    obtain ⟨gap, some_, -, same⟩ := spaced_cons token tokens
    have none_ : gap.count c = 0 := by
      rcases some_ with rfl | rfl
      · rfl
      · simp [h.symm]
    rw [same, List.count_append, List.count_append, none_, Nat.zero_add, ih, List.flatMap_cons,
      List.count_append]

/-- As many opening as closing parentheses stand in the texts of tokens. -/
def Balanced (tokens : List MathToken) : Prop :=
  (tokens.flatMap text).count '(' = (tokens.flatMap text).count ')'

theorem Balanced.append {others : List MathToken} (h : Balanced tokens) (h' : Balanced others) :
    Balanced (tokens ++ others) := by
  unfold Balanced at *
  rw [List.flatMap_append, List.count_append, List.count_append, h, h']

theorem count_paren {cs : List Char} (plain : ∀ c ∈ cs, isPlainChar c) {paren : Char}
    (other : isPlainChar paren = false) : cs.count paren = 0 := by
  rw [List.count_eq_zero]
  intro mem
  rw [plain paren mem] at other
  cases other

theorem balanced_plain {token : MathToken} (plain : ∀ c ∈ token.text, isPlainChar c) :
    Balanced [token] := by
  rw [Balanced, List.flatMap_singleton, count_paren plain (by decide),
    count_paren plain (by decide)]

/-- A parenthesis, or a function name with its parenthesis, is balanced by a closing one. -/
theorem Balanced.enclosed {token : MathToken} {name : List Char}
    (opens : token.text = name ++ ['(']) (plain : ∀ c ∈ name, isPlainChar c) (h : Balanced tokens) :
    Balanced (token :: (tokens ++ [closing])) := by
  unfold Balanced at h ⊢
  simp only [List.flatMap_cons, List.flatMap_append, List.flatMap_nil, List.count_append, opens,
    count_paren plain (show isPlainChar '(' = false by decide),
    count_paren plain (show isPlainChar ')' = false by decide), h]
  simp [text]
  omega

theorem isBare_spaced (some_ : tokens ≠ []) (lexemes : ∀ token ∈ tokens, token.IsLexeme) :
    IsBare (spaced tokens) :=
  .intercalate (mt List.map_eq_nil_iff.1 some_)
    (List.forall_mem_map.2 fun token mem => isBare_text (lexemes token mem))

end Written

/-! ## Reading -/

section Lex

variable {tokens : List MathToken} {bound : Nat} {place : Place}

theorem dropWhile_space {space cs : List Char} (blank : ∀ c ∈ space, isSpace c)
    (solid : ∀ c ∈ cs.head?, isSpace c = false) : (space ++ cs).dropWhile isSpace = cs := by
  rw [List.dropWhile_append_of_pos blank]
  cases cs with
  | nil => rfl
  | cons c cs => exact List.dropWhile_cons_of_neg (by simp [solid c rfl])

/-- White space is skipped before a token. -/
theorem lexUpTo_succ {space cs : List Char} (blank : ∀ c ∈ space, isSpace c) (some_ : cs ≠ [])
    (solid : ∀ c ∈ cs.head?, isSpace c = false) :
    lexUpTo (bound + 1) place (space ++ cs) =
      match next? place cs with
      | some (token, rest) =>
        (token :: (lexUpTo bound token.place rest).1, (lexUpTo bound token.place rest).2)
      | none => ([], if startsToken cs then .misplaced else .unreadable) := by
  rw [lexUpTo, dropWhile_space blank solid]
  split
  · exact absurd rfl some_
  · rfl

/-- **Tokens with spaces between them are read again** if each comes where it may; otherwise the
reading stops before the end. -/
theorem lexUpTo_spaced {space : List Char} (blank : ∀ c ∈ space, isSpace c)
    (lexemes : ∀ token ∈ tokens, token.IsLexeme) (named : HasPlacedNames place tokens)
    (fits : (space ++ spaced tokens).length < bound) :
    (Flows place tokens → lexUpTo bound place (space ++ spaced tokens) = (tokens, .complete)) ∧
      (¬ Flows place tokens → (lexUpTo bound place (space ++ spaced tokens)).2 ≠ .complete) := by
  induction tokens generalizing space place bound with
  | nil =>
    obtain ⟨bound, rfl⟩ := Nat.exists_eq_succ_of_ne_zero (Nat.ne_zero_of_lt fits)
    refine ⟨fun _ => ?_, fun stuck => absurd trivial stuck⟩
    have gone : (space ++ spaced []).dropWhile isSpace = [] :=
      dropWhile_space blank (by rintro c ⟨⟩)
    rw [lexUpTo, gone]
  | cons token tokens ih =>
    obtain ⟨bound, rfl⟩ := Nat.exists_eq_succ_of_ne_zero (Nat.ne_zero_of_lt fits)
    obtain ⟨lexeme, others⟩ := List.forall_mem_cons.1 lexemes
    obtain ⟨gap, short, cut, same⟩ := spaced_cons token tokens
    have some_ : token.text ≠ [] := text_ne_nil lexeme
    have solid : ∀ c ∈ (token.text ++ (gap ++ spaced tokens)).head?, isSpace c = false := by
      intro c hc
      rw [List.head?_append_of_ne_nil _ some_] at hc
      rw [Bool.eq_false_iff]
      intro isSpace_
      have bare := (isBare_text lexeme).first c hc
      rw [isBlank_of_isSpace isSpace_] at bare
      cases bare
    rw [same] at fits ⊢
    rw [lexUpTo_succ blank (by simp [some_]) solid]
    by_cases comes : comesAt place token
    · rw [next?_text lexeme comes cut]
      have gapBlank : ∀ c ∈ gap, isSpace c := by
        rcases short with rfl | rfl
        · exact List.forall_mem_nil _
        · exact List.forall_mem_singleton.2 rfl
      have room : (gap ++ spaced tokens).length < bound := by
        have least : 0 < token.text.length := List.length_pos_iff.2 some_
        simp only [List.length_append] at fits ⊢
        omega
      obtain ⟨whole, stopped⟩ := ih gapBlank others named.2 room
      refine ⟨fun flows => ?_, fun stuck => stopped fun flows => stuck ⟨comes, flows⟩⟩
      simp only [whole flows.2]
    · have unnamed : ∀ cs, token ≠ customProperty cs := by
        rintro cs rfl
        rw [named.1 cs rfl] at comes
        exact comes rfl
      rw [next?_eq_none lexeme (Bool.eq_false_iff.2 comes) unnamed cut]
      refine ⟨fun flows => absurd flows.1 comes, fun _ => ?_⟩
      dsimp only
      split <;> decide

/-- **The tokens of a text** come where they may, and they make up the text if it is read to its
end. -/
theorem lexUpTo_spec {cs : List Char} (fits : cs.length < bound) {ending : End}
    (h : lexUpTo bound place cs = (tokens, ending)) :
    (∀ token ∈ tokens, token.IsLexeme) ∧ Flows place tokens ∧
      (ending = .complete → IsWritten tokens cs) := by
  induction bound generalizing place cs tokens ending with
  | zero => exact absurd fits (Nat.not_lt_zero _)
  | succ bound ih =>
    have cut := List.takeWhile_append_dropWhile (p := isSpace) (l := cs)
    have blank : ∀ c ∈ cs.takeWhile isSpace, isSpace c :=
      fun c hc => List.all_eq_true.1 List.all_takeWhile c hc
    rw [lexUpTo] at h
    generalize cs.takeWhile isSpace = space at cut blank
    generalize cs.dropWhile isSpace = after at h cut
    subst cut
    split at h
    · obtain ⟨rfl, rfl⟩ := Prod.mk.inj h
      refine ⟨List.forall_mem_nil _, trivial, fun _ => ?_⟩
      rw [List.append_nil]
      exact .nil blank
    · split at h
      · next token rest found =>
        obtain ⟨lexeme, rfl, comes⟩ := next?_eq_some found
        have room : rest.length < bound := by
          have least : 0 < token.text.length := List.length_pos_iff.2 (text_ne_nil lexeme)
          simp only [List.length_append] at fits
          omega
        obtain ⟨rfl, rfl⟩ := Prod.mk.inj h
        obtain ⟨others, flows, written⟩ :=
          ih room (Prod.eta (lexUpTo bound token.place rest)).symm
        exact ⟨List.forall_mem_cons.2 ⟨lexeme, others⟩, ⟨comes, flows⟩,
          fun complete => .cons token blank (written complete)⟩
      · obtain ⟨rfl, rfl⟩ := Prod.mk.inj h
        refine ⟨List.forall_mem_nil _, trivial, fun complete => ?_⟩
        split at complete <;> cases complete

end Lex

end MathToken

end BracketCss
