import BracketCss.Proofs.Text.Decoding

/-!
# Where every escape ends

A decoder of escapes may join a character with the ones after it, so that a part of a text does not
always decode as it would on its own. A closing parenthesis, a quotation mark and an opening
bracket belong to no escape and end every escape before them, and so does a space. What stands
before such a stop is decoded in one way, whatever follows it.

## Main definitions

* `IsFirm c`: a character that cuts every escape
* `IsStop c`: a firm character or a space
* `Cuts decode xs`: before a stop the text `xs` is decoded in one way

## Main results

* `Percent.decode_cut`: percent escapes end before a stop
-/

namespace BracketCss.Text

/-- A character that belongs to no escape and ends every escape. -/
def IsFirm (c : Char) : Prop := c = ')' ∨ c = '"' ∨ c = '\'' ∨ c = '['

/-- A character that starts an escape. -/
def StartsEscape (c : Char) : Prop := c = '%' ∨ c = '&' ∨ c = '\\'

instance : DecidablePred StartsEscape := fun c =>
  inferInstanceAs (Decidable (c = '%' ∨ c = '&' ∨ c = '\\'))

theorem IsFirm.not_startsEscape {c : Char} (h : IsFirm c) : ¬ StartsEscape c := by
  rcases h with rfl | rfl | rfl | rfl <;> decide

/-- A firm character or a space. -/
def IsStop (c : Char) : Prop := IsFirm c ∨ c = ' '

theorem IsStop.not_hex {c : Char} (h : IsStop c) : isHexDigit c = false := by
  rcases h with (rfl | rfl | rfl | rfl) | rfl <;> decide

/-- Before a stop a text is decoded in one way, whichever stop it is and whatever follows. -/
def Cuts (decode : List Char → List Char) (xs : List Char) : Prop :=
  ∃ zs, ∀ c, IsStop c → ∀ ys, decode (xs ++ c :: ys) = zs ++ c :: decode ys

/-- The first characters of a text are decoded to `text`, and `rest` is left. -/
theorem Cuts.of_rest {decode : List Char → List Char} {xs rest : List Char} (h : Cuts decode rest)
    (text : List Char)
    (first : ∀ c, IsStop c → ∀ ys, decode (xs ++ c :: ys) = text ++ decode (rest ++ c :: ys)) :
    Cuts decode xs := by
  obtain ⟨zs, cut⟩ := h
  refine ⟨text ++ zs, fun c stop ys => ?_⟩
  rw [first c stop ys, cut c stop ys, List.append_assoc]

theorem not_of_drop_takeWhile {p : Char → Bool} {cs rest : List Char} {d : Char}
    (h : cs.drop (cs.takeWhile p).length = d :: rest) : p d = false := by
  induction cs with
  | nil => simp at h
  | cons c cs ih =>
    rw [List.takeWhile_cons] at h
    by_cases keeps : p c
    · rw [if_pos keeps] at h
      exact ih h
    · rw [if_neg keeps] at h
      rw [← (List.cons.inj h).1, Bool.eq_false_iff]
      exact keeps

theorem takeWhile_take_append_cons {p : Char → Bool} {c : Char} (stop : p c = false)
    (n : Nat) (xs ys : List Char) :
    ((xs ++ c :: ys).take n).takeWhile p = (xs.take n).takeWhile p := by
  induction n generalizing xs with
  | zero => rfl
  | succ n ih =>
    cases xs with
    | nil => simp [stop]
    | cons x xs =>
      simp only [List.cons_append, List.take_succ_cons, List.takeWhile_cons]
      cases p x
      · rfl
      · simp only [if_true, ih]

namespace Percent

/-- A percent sign without two digits after it is a character like any other. -/
theorem decodeAfter_unescaped {cs : List Char} (pending : List UInt8)
    (plain : ∀ a b rest, cs = a :: b :: rest → (isHexDigit a && isHexDigit b) = false) :
    decodeAfter pending ('%' :: cs) = decodeAfter (37 :: pending) cs := by
  match cs, plain with
  | [], _ => simp [decodeAfter]
  | [a], _ => simp [decodeAfter]
  | a :: b :: rest, plain =>
    rw [decodeAfter, if_neg]
    rw [plain a b rest rfl]
    exact Bool.false_ne_true

theorem decode_percent {cs : List Char} (plain : ∀ c ∈ cs.head?, isHexDigit c = false) :
    decode ('%' :: cs) = '%' :: decode cs := by
  have unescaped : decodeAfter [] ('%' :: cs) = decodeAfter [37] cs :=
    decodeAfter_unescaped [] fun a b rest same => by
      subst same
      rw [plain a rfl, Bool.false_and]
  rw [decode, unescaped]
  simpa using decodeAfter_cons (b := 37) (by decide) [] cs

theorem decodeAfter_cut (pending : List UInt8) (xs : List Char) :
    ∃ zs, ∀ c, IsStop c → ∀ ys, decodeAfter pending (xs ++ c :: ys) = zs ++ c :: decode ys := by
  fun_induction decodeAfter pending xs with
  | case1 pending =>
    refine ⟨Utf8.decode pending.reverse, fun c stop ys => ?_⟩
    have ascii : c.toNat < 128 := by
      rcases stop with (rfl | rfl | rfl | rfl) | rfl <;> decide
    have noEscape : ∀ (a b : Char) (rest : List Char), c = '%' → ys = a :: b :: rest → False := by
      rintro _ _ _ rfl _
      rcases stop with h | h
      · exact h.not_startsEscape (.inl rfl)
      · exact absurd h (by decide)
    rw [List.nil_append, decodeAfter.eq_3 _ _ _ noEscape, if_pos ascii, decodeAfter_ascii ascii,
      Char.ofNat_toNat]
  | case2 pending a b rest digits ih =>
    obtain ⟨zs, h⟩ := ih
    refine ⟨zs, fun c stop ys => ?_⟩
    rw [List.cons_append, List.cons_append, List.cons_append, decodeAfter, if_pos digits]
    exact h c stop ys
  | case3 pending a b rest digits ih =>
    obtain ⟨zs, h⟩ := ih
    refine ⟨zs, fun c stop ys => ?_⟩
    rw [List.cons_append, List.cons_append, List.cons_append, decodeAfter, if_neg digits]
    exact h c stop ys
  | case4 pending d rest noEscape ascii ih =>
    obtain ⟨zs, h⟩ := ih
    refine ⟨zs, fun c stop ys => ?_⟩
    by_cases percent : d = '%'
    · subst percent
      rw [List.cons_append, decodeAfter_unescaped]
      · exact h c stop ys
      · intro a b after same
        cases rest with
        | nil => rw [← (List.cons.inj same).1, stop.not_hex, Bool.false_and]
        | cons e rest =>
          cases rest with
          | nil => rw [← (List.cons.inj (List.cons.inj same).2).1, stop.not_hex, Bool.and_false]
          | cons f rest => exact (noEscape e f rest rfl rfl).elim
    · have noEscape' : ∀ (a b : Char) (after : List Char), d = '%' →
          rest ++ c :: ys = a :: b :: after → False := fun _ _ _ same _ => percent same
      rw [List.cons_append, decodeAfter.eq_3 _ _ _ noEscape', if_pos ascii]
      exact h c stop ys
  | case5 pending d rest noEscape ascii ih =>
    obtain ⟨zs, h⟩ := ih
    refine ⟨Utf8.decode pending.reverse ++ d :: zs, fun c stop ys => ?_⟩
    have noEscape' : ∀ (a b : Char) (after : List Char), d = '%' →
        rest ++ c :: ys = a :: b :: after → False := by
      rintro _ _ _ rfl _
      exact ascii (by decide)
    rw [List.cons_append, decodeAfter.eq_3 _ _ _ noEscape', if_neg ascii, h c stop ys]
    simp

theorem decode_cut (xs : List Char) : Cuts decode xs := decodeAfter_cut [] xs

end Percent

end BracketCss.Text
