import BracketCss.Markup
import BracketCss.Proofs.Value.Color.Argument

/-!
# Where attributes are found

An attribute is found where its opening stands, which is its name, an equals sign and a quotation
mark with blanks between them, if the mark comes once more. Reading goes on behind that mark, so
what the value holds is never taken for an attribute. Everything else is read over.

## Main definitions

* `Blanks`, `Opening`, `Opening.text`: what an attribute starts with
* `IsSilent cs`: a text in which no attribute opens
* `IsMute cs rest`: a text in which no attribute starts if `rest` stands behind it
* `Reads cs values rest`: the values that are found in a text if `rest` stands behind it

## Main results

* `attributeAt?_eq_some_iff`: the attribute that a text starts with
* `IsSilent.isMute`: no attribute of a silent text starts before a tag or at the end of a document
* `attributesFrom_append_of_pass`, `attributesFrom_append`, `attributesFrom_value`: reading over
  what starts no attribute, over a mute text, and over an attribute
* `IsMute.reads`, `Reads.append`: what is read in texts that are put together
-/

namespace BracketCss.Markup

open Text

/-! ## Openings -/

/-- A text of blanks. -/
abbrev Blanks : Type := {cs : List Char // ∀ c ∈ cs, isBlank c}

/-- What an attribute starts with: its name, an equals sign and a quotation mark. -/
structure Opening where
  name : List Char
  /-- The blanks before the equals sign. -/
  before : Blanks
  /-- The blanks behind it. -/
  after : Blanks
  mark : Char
  named : name = "className".toList ∨ name = "class".toList
  quote : mark = '"' ∨ mark = '\''

namespace Opening

variable (opening : Opening)

/-- The text of an opening. -/
def text : List Char :=
  opening.name ++ (opening.before.val ++ '=' :: (opening.after.val ++ [opening.mark]))

theorem eq_mem : '=' ∈ opening.text := by simp [text]

theorem head?_append (more : List Char) : (opening.text ++ more).head? = some 'c' := by
  rcases opening.named with name | name <;> rw [text, name] <;> rfl

/-- No tag starts or ends in an opening, and no further opening starts in it. -/
theorem notMem_tail {c : Char} (edge : c ∈ ['<', '>', 'c']) : c ∉ opening.text.tail := by
  have solid : isBlank c = false := by revert c; decide
  have named : ∀ name, name = "className".toList ∨ name = "class".toList → c ∉ name.tail := by
    rintro _ (rfl | rfl) <;> revert c <;> decide
  have nonempty : opening.name ≠ [] := by rcases opening.named with name | name <;> simp [name]
  rw [text, List.tail_append_of_ne_nil nonempty]
  simp only [List.mem_append, List.mem_cons, List.not_mem_nil, or_false]
  rintro (mem | mem | rfl | mem | rfl)
  · exact named opening.name opening.named mem
  · rw [opening.before.property c mem] at solid
    cases solid
  · revert edge
    decide
  · rw [opening.after.property c mem] at solid
    cases solid
  · rcases opening.quote with mark | mark <;> rw [mark] at edge <;> revert edge <;> decide

end Opening

/-! ## The attribute at a place -/

variable {cs xs ys value behind : List Char}

theorem after?_eq_some_iff {word rest : List Char} :
    after? word cs = some rest ↔ cs = word ++ rest := by
  rw [after?]
  constructor
  · intro h
    split at h
    · next start =>
      obtain ⟨more, rfl⟩ := List.isPrefixOf_iff_prefix.1 start
      rw [List.drop_left, Option.some.injEq] at h
      rw [h]
    · cases h
  · rintro rfl
    rw [if_pos (List.isPrefixOf_iff_prefix.2 (List.prefix_append word rest)), List.drop_left]

/-- A quoted text ends at the first mark that is like the one it starts with. -/
theorem valueAt?_eq_some_iff : valueAt? cs = some (value, behind) ↔
    ∃ before after mark, (∀ c ∈ before, isBlank c) ∧ (∀ c ∈ after, isBlank c) ∧
      (mark = '"' ∨ mark = '\'') ∧ mark ∉ value ∧
      cs = before ++ '=' :: (after ++ mark :: (value ++ mark :: behind)) := by
  constructor
  · intro h
    obtain ⟨before, outer, beforeBlank⟩ := exists_trimStart cs
    rw [valueAt?] at h
    split at h
    · next rest first =>
      obtain ⟨after, inner, afterBlank⟩ := exists_trimStart rest
      split at h
      · next mark inside second =>
        split at h
        · next quote =>
          have cut : inside.takeWhile (· != mark) ++ inside.dropWhile (· != mark) = inside :=
            List.takeWhile_append_dropWhile
          split at h
          · cases h
          · next d _ third =>
            rw [Option.some.injEq, Prod.mk.injEq] at h
            obtain ⟨rfl, rfl⟩ := h
            obtain rfl : d = mark := by
              simpa [third] using List.head?_dropWhile_not (· != mark) inside
            rw [third] at cut
            refine ⟨before, after, d, beforeBlank, afterBlank, quote, ?_, ?_⟩
            · exact fun mem => absurd (List.mem_takeWhile_imp mem) (by simp)
            · rw [cut, ← second, ← inner, ← first, ← outer]
        · cases h
      · cases h
    · cases h
  · rintro ⟨before, after, mark, beforeBlank, afterBlank, quote, free, rfl⟩
    have solid : isBlank mark = false := by rcases quote with rfl | rfl <;> rfl
    have inside : ∀ c ∈ value, (c != mark) = true := fun c mem =>
      bne_iff_ne.2 fun same => free (same ▸ mem)
    rw [valueAt?, trimStart_append beforeBlank (by simp; decide)]
    simp only
    rw [trimStart_append afterBlank (by simpa using solid)]
    simp only [quote, if_true]
    rw [List.dropWhile_append_of_pos inside, List.takeWhile_append_of_pos inside]
    simp

/-- **An attribute stands where it opens**, if its mark comes once more; its value is what stands
between the marks. -/
theorem attributeAt?_eq_some_iff : attributeAt? cs = some (value, behind) ↔
    ∃ opening : Opening, opening.mark ∉ value ∧
      cs = opening.text ++ (value ++ opening.mark :: behind) := by
  have read (name : List Char) : (after? name cs).bind valueAt? = some (value, behind) ↔
      ∃ rest, cs = name ++ rest ∧ valueAt? rest = some (value, behind) := by
    simp only [Option.bind_eq_some_iff, after?_eq_some_iff]
  simp only [attributeAt?, Option.orElse_eq_orElse, Option.orElse_eq_or, Option.or_eq_some_iff,
    read]
  constructor
  · intro h
    obtain ⟨name, named, rest, rfl, valued⟩ : ∃ name,
        (name = "className".toList ∨ name = "class".toList) ∧
          ∃ rest, cs = name ++ rest ∧ valueAt? rest = some (value, behind) := by
      rcases h with long | ⟨-, short⟩
      · exact ⟨_, .inl rfl, long⟩
      · exact ⟨_, .inr rfl, short⟩
    obtain ⟨before, after, mark, beforeBlank, afterBlank, quote, free, rfl⟩ :=
      valueAt?_eq_some_iff.1 valued
    exact ⟨⟨name, ⟨before, beforeBlank⟩, ⟨after, afterBlank⟩, mark, named, quote⟩, free,
      by simp [Opening.text]⟩
  · rintro ⟨⟨name, ⟨before, beforeBlank⟩, ⟨after, afterBlank⟩, mark, named, quote⟩, free, rfl⟩
    have valued : valueAt? (before ++ '=' :: (after ++ mark :: (value ++ mark :: behind))) =
        some (value, behind) :=
      valueAt?_eq_some_iff.2 ⟨before, after, mark, beforeBlank, afterBlank, quote, free, rfl⟩
    rcases named with rfl | rfl
    · exact .inl ⟨_, by simp [Opening.text], valued⟩
    · refine .inr ⟨?_, _, by simp [Opening.text], valued⟩
      rw [Option.bind_eq_none_iff]
      intro rest found
      have same : before ++ '=' :: (after ++ mark :: (value ++ mark :: behind)) =
          "Name".toList ++ rest := by
        have whole := after?_eq_some_iff.1 found
        simp only [Opening.text, List.append_assoc, List.cons_append, List.nil_append] at whole
        exact List.append_cancel_left (whole : "class".toList ++ _ = "class".toList ++ _)
      cases before with
      | nil => cases same
      | cons c before =>
        obtain rfl : c = 'N' := (List.cons.inj same).1
        exact absurd (beforeBlank _ List.mem_cons_self) (by decide)

/-! ## Texts without attributes -/

/-- No attribute opens in the text. -/
def IsSilent (cs : List Char) : Prop := ∀ opening : Opening, ¬ opening.text <:+: cs

/-- No attribute starts in a text if another one stands behind it. -/
def IsMute (cs rest : List Char) : Prop :=
  ∀ back, back <:+ cs → back ≠ [] → attributeAt? (back ++ rest) = none

/-- To show that a text is mute, it is enough to look at openings. -/
theorem isMute_of_openings {rest : List Char}
    (h : ∀ back, back <:+ cs → back ≠ [] → ∀ (opening : Opening) (more : List Char),
      back ++ rest ≠ opening.text ++ more) : IsMute cs rest := by
  intro back behind nonempty
  rw [Option.eq_none_iff_forall_ne_some]
  rintro ⟨value, more⟩ found
  obtain ⟨opening, -, same⟩ := attributeAt?_eq_some_iff.1 found
  exact h back behind nonempty opening _ same

theorem isSilent_of_notMem (h : '=' ∉ cs) : IsSilent cs :=
  fun opening inside => h (inside.subset opening.eq_mem)

/-- **A silent text is mute** before a tag, before an opening and at the end of a document. -/
theorem IsSilent.isMute {rest : List Char} (silent : IsSilent cs)
    (edge : ∀ c ∈ rest.head?, c ∈ ['<', '>', 'c']) : IsMute cs rest := by
  refine isMute_of_openings fun back behind nonempty opening more same => ?_
  have start : opening.text <+: back ++ rest := same ▸ List.prefix_append opening.text more
  have inside : ¬ opening.text <+: back := fun short =>
    silent opening (short.isInfix.trans behind.isInfix)
  rcases List.prefix_or_prefix_of_prefix start (List.prefix_append back rest) with
    short | ⟨tail, long⟩
  · exact inside short
  · rw [← long, List.prefix_append_right_inj] at start
    cases tail with
    | nil => exact inside (by simp [← long])
    | cons c tail =>
      obtain ⟨rest, rfl⟩ := start
      refine opening.notMem_tail (edge c rfl) ?_
      rw [← long, List.tail_append_of_ne_nil nonempty]
      simp

/-- No attribute starts with another character than its name does. -/
theorem isMute_of_ne {rest : List Char} (h : ∀ c ∈ cs, c ≠ 'c') : IsMute cs rest := by
  refine isMute_of_openings fun back behind nonempty opening more same => ?_
  obtain ⟨c, back, rfl⟩ := List.exists_cons_of_ne_nil nonempty
  have first := congrArg List.head? same
  rw [List.cons_append, List.head?_cons, opening.head?_append] at first
  exact h c (behind.subset List.mem_cons_self) (Option.some.inj first)

/-! ## Reading on -/

theorem attributesFrom_cons (seen : List (List Char)) (before : Option Char) (c : Char)
    (cs : List Char) : attributesFrom seen before (c :: cs) =
      if before.any isWordChar then attributesFrom seen (some c) cs
      else
        match attributeAt? (c :: cs) with
        | some (value, behind) => attributesFrom (value :: seen) (some '"') behind
        | none => attributesFrom seen (some c) cs := by
  rw [attributesFrom]
  split
  · rfl
  · split <;> next found => rw [found]

/-- A text is read over if no attribute starts in it where no word goes on. -/
theorem attributesFrom_append_of_pass {rest : List Char} {before : Option Char}
    (pass : ∀ front back, cs = front ++ back → back ≠ [] →
      (front.getLast?.or before).any isWordChar = false → attributeAt? (back ++ rest) = none)
    (seen : List (List Char)) :
    attributesFrom seen before (cs ++ rest) = attributesFrom seen (cs.getLast?.or before) rest := by
  induction cs generalizing before with
  | nil => rfl
  | cons c cs ih =>
    have last : ∀ xs : List Char, (c :: xs).getLast?.or before = xs.getLast?.or (some c) := by
      intro xs
      rw [List.getLast?_cons]
      cases xs.getLast? <;> rfl
    have on : attributesFrom seen (some c) (cs ++ rest) =
        attributesFrom seen ((c :: cs).getLast?.or before) rest := by
      rw [last]
      refine ih fun front back same nonempty apart => ?_
      refine pass (c :: front) back (by rw [same, List.cons_append]) nonempty ?_
      rwa [last]
    rw [List.cons_append, attributesFrom_cons]
    split
    · exact on
    · next apart =>
      rw [← List.cons_append, pass [] (c :: cs) rfl (List.cons_ne_nil c cs)
        (Bool.eq_false_iff.2 apart)]
      exact on

/-- A mute text is read over. -/
theorem attributesFrom_append {rest : List Char} (mute : IsMute cs rest)
    (seen : List (List Char)) (before : Option Char) :
    attributesFrom seen before (cs ++ rest) = attributesFrom seen (cs.getLast?.or before) rest :=
  attributesFrom_append_of_pass (fun front back same nonempty _ =>
    mute back ⟨front, same.symm⟩ nonempty) seen

/-- The value of an attribute is found, and reading goes on behind its second mark. -/
theorem attributesFrom_value {before : Option Char} (apart : before.any isWordChar = false)
    (opening : Opening) (free : opening.mark ∉ value) (seen : List (List Char)) :
    attributesFrom seen before (opening.text ++ (value ++ opening.mark :: behind)) =
      attributesFrom (value :: seen) (some '"') behind := by
  have found : attributeAt? (opening.text ++ (value ++ opening.mark :: behind)) =
      some (value, behind) := attributeAt?_eq_some_iff.2 ⟨opening, free, rfl⟩
  generalize opening.text ++ (value ++ opening.mark :: behind) = cs at found
  cases cs with
  | nil => cases found
  | cons c cs =>
    rw [attributesFrom_cons, if_neg (Bool.eq_false_iff.1 apart), found]

/-- Reading finds the values in a text if another one stands behind it, and goes on there. -/
def Reads (cs : List Char) (values : List (List Char)) (rest : List Char) : Prop :=
  ∀ seen before, ∃ last, attributesFrom seen before (cs ++ rest) =
    attributesFrom (values.reverse ++ seen) last rest

variable {values others : List (List Char)} {rest : List Char}

theorem IsMute.reads (mute : IsMute cs rest) : Reads cs [] rest :=
  fun seen before => ⟨_, attributesFrom_append mute seen before⟩

theorem Reads.append (first : Reads xs values (ys ++ rest)) (second : Reads ys others rest) :
    Reads (xs ++ ys) (values ++ others) rest := by
  intro seen before
  obtain ⟨between, start⟩ := first seen before
  obtain ⟨last, behind⟩ := second (values.reverse ++ seen) between
  exact ⟨last, by rw [List.append_assoc, start, behind, List.reverse_append, List.append_assoc]⟩

/-- What is read in a whole text. -/
theorem attributes_of_reads (h : Reads cs values []) : attributes cs = values := by
  obtain ⟨last, whole⟩ := h [] none
  rw [List.append_nil, List.append_nil] at whole
  rw [attributes, whole, attributesFrom, List.reverse_reverse]

end BracketCss.Markup
