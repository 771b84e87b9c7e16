import BracketCss.Proofs.Class.Faithful
import BracketCss.Sheet.Rule

/-!
# Comments in values

A value is declared in a sheet, where a comment that it opens and does not close swallows what
follows. Nothing looks for such a comment when a class is read: the declared value ends inside a
comment exactly if the raw value of the class does.

## Main definitions

* `Reading`, `Reading.step`: what a place in a sheet is part of, and a character's effect on it
* `EndsOutside s`: the text ends outside every comment

## Main results

* `Reading.rest_run_laced`: texts with the same words end in the same place
* `UtilityClass.endsOutside_rule_iff`: when the declared value ends outside every comment
-/

namespace BracketCss

open Text

/-- What a place in a sheet is part of. -/
inductive Reading where
  /-- Neither a string nor a comment. -/
  | plain
  /-- The same, and there is a slash before the place. -/
  | slash
  /-- A comment. -/
  | comment
  /-- A comment, and there is a star before the place. -/
  | star
  /-- A string in single quotes. -/
  | single
  /-- A string in double quotes. -/
  | double
  deriving DecidableEq, Repr

namespace Reading

/-- The effect of a character that closes nothing. -/
def opening (c : Char) : Reading :=
  if c = '/' then slash else if c = '\'' then single else if c = '"' then double else plain

/-- The effect of a character. -/
def step : Reading → Char → Reading
  | plain, c => opening c
  | slash, c => if c = '*' then comment else opening c
  | comment, c => if c = '*' then star else comment
  | star, c => if c = '/' then plain else if c = '*' then star else comment
  | single, c => if c = '\'' then plain else single
  | double, c => if c = '"' then plain else double

/-- The effect of a text. -/
def run (s : Reading) (cs : List Char) : Reading := cs.foldl step s

@[simp] theorem run_nil (s : Reading) : s.run [] = s := rfl

@[simp] theorem run_cons (s : Reading) (c : Char) (cs : List Char) :
    s.run (c :: cs) = (s.step c).run cs := rfl

@[simp] theorem run_append (s : Reading) (xs ys : List Char) :
    s.run (xs ++ ys) = (s.run xs).run ys := List.foldl_append

/-- The place is outside every comment. -/
def IsOutside (s : Reading) : Prop := s ≠ comment ∧ s ≠ star

instance : DecidablePred IsOutside := fun s =>
  inferInstanceAs (Decidable (s ≠ comment ∧ s ≠ star))

/-- The same place, whatever single character is before it. -/
def rest : Reading → Reading
  | slash => plain
  | star => comment
  | s => s

@[simp] theorem rest_rest (s : Reading) : s.rest.rest = s.rest := by cases s <;> rfl

theorem isOutside_rest (s : Reading) : s.rest.IsOutside ↔ s.IsOutside := by
  cases s <;> decide

end Reading

/-- The text ends outside every comment. -/
def EndsOutside (s : String) : Prop := (Reading.plain.run s.toList).IsOutside

instance : DecidablePred EndsOutside := fun s =>
  inferInstanceAs (Decidable (Reading.plain.run s.toList).IsOutside)

example : EndsOutside "a /* b */ c" := by decide

example : ¬ EndsOutside "a /* b" := by decide

/-! ## Silent characters -/

/-- A character that neither opens nor closes anything. -/
def IsSilent (c : Char) : Prop := c ≠ '/' ∧ c ≠ '*' ∧ c ≠ '\'' ∧ c ≠ '"'

theorem IsBreak.isSilent {c : Char} (h : IsBreak c) : IsSilent c := by
  rcases h with rfl | rfl <;> exact ⟨by decide, by decide, by decide, by decide⟩

theorem isSilent_of_isAsciiLetter {c : Char} (h : isAsciiLetter c) : IsSilent c := by
  refine ⟨?_, ?_, ?_, ?_⟩ <;> rintro rfl <;> revert h <;> decide

theorem IsDull.isSilent {w : List Char} (h : IsDull w) : ∀ c ∈ w, IsSilent c := by
  have plain : ∀ c, isDullChar c → IsSilent c := fun c hc => by
    have other := (isDullChar_iff c).1 hc
    exact ⟨by simp [other], by simp [other], by simp [other], by simp [other]⟩
  obtain ⟨-, body, dull, rfl | rfl⟩ := h
  · exact fun c hc => plain c (dull c hc)
  · refine List.forall_mem_append.2 ⟨fun c hc => plain c (dull c hc), ?_⟩
    exact List.forall_mem_singleton.2 ⟨by decide, by decide, by decide, by decide⟩

namespace Reading

theorem step_silent (s : Reading) {c : Char} (h : IsSilent c) : s.step c = s.rest := by
  obtain ⟨slash, star, single, double⟩ := h
  cases s <;> simp [step, opening, rest, slash, star, single, double]

/-- Silent characters change nothing but what a slash or a star before them may become. -/
theorem rest_run_silent (s : Reading) {cs : List Char} (h : ∀ c ∈ cs, IsSilent c) :
    s.rest.run cs = s.rest := by
  induction cs with
  | nil => rfl
  | cons c cs ih =>
    rw [run_cons, step_silent _ (h c List.mem_cons_self), rest_rest,
      ih fun d hd => h d (List.mem_cons_of_mem _ hd)]

theorem run_silent (s : Reading) {cs : List Char} (some_ : cs ≠ []) (h : ∀ c ∈ cs, IsSilent c) :
    s.run cs = s.rest := by
  obtain ⟨c, cs, rfl⟩ := List.exists_cons_of_ne_nil some_
  rw [run_cons, step_silent s (h c List.mem_cons_self),
    rest_run_silent s fun d hd => h d (List.mem_cons_of_mem _ hd)]

theorem rest_of_run_silent (s : Reading) {cs : List Char} (h : ∀ c ∈ cs, IsSilent c) :
    (s.run cs).rest = s.rest := by
  cases cs with
  | nil => rfl
  | cons c cs => rw [run_silent s (List.cons_ne_nil c cs) h, rest_rest]

/-! ## Words -/

/-- The two forms of a colour call have the same effect. -/
theorem rest_run_color (s : Reading) {name args : List Char} (letters : ∀ c ∈ name, isAsciiLetter c)
    (known : .ofList (lower name) ∈ colorFunctionNames) (spaces : IsSpaced args) :
    (s.rest.run (name ++ '(' :: (args ++ [')']))).rest =
      (s.rest.run (lower name ++ '(' :: (trim args ++ [')']))).rest := by
  have lowered := (colorFunctionNames_letters _ known).2
  rw [String.toList_ofList] at lowered
  obtain ⟨lead, trail, split_, leadBlank, trailBlank⟩ := Scan.exists_trim args
  have blank : ∀ c ∈ args, isBlank c → IsSilent c := fun c hc blank =>
    IsBreak.isSilent (.inl (spaces c hc blank))
  have opening : IsSilent '(' := ⟨by decide, by decide, by decide, by decide⟩
  have closing : IsSilent ')' := ⟨by decide, by decide, by decide, by decide⟩
  have front : ∀ c ∈ name ++ '(' :: lead, IsSilent c := by
    refine List.forall_mem_append.2 ⟨fun c hc => isSilent_of_isAsciiLetter (letters c hc), ?_⟩
    refine List.forall_mem_cons.2 ⟨opening, fun c hc => blank c ?_ (leadBlank c hc)⟩
    rw [split_]
    simp [hc]
  have front' : ∀ c ∈ lower name ++ ['('], IsSilent c :=
    List.forall_mem_append.2 ⟨fun c hc => isSilent_of_isAsciiLetter (lowered c hc),
      List.forall_mem_singleton.2 opening⟩
  have back : ∀ c ∈ trail ++ [')'], IsSilent c := by
    refine List.forall_mem_append.2 ⟨fun c hc => blank c ?_ (trailBlank c hc),
      List.forall_mem_singleton.2 closing⟩
    rw [split_]
    simp [hc]
  have whole : name ++ '(' :: (args ++ [')']) =
      (name ++ '(' :: lead) ++ (trim args ++ (trail ++ [')'])) := by
    conv_lhs => rw [split_]
    simp
  have whole' : lower name ++ '(' :: (trim args ++ [')']) =
      (lower name ++ ['(']) ++ (trim args ++ [')']) := by simp
  calc (s.rest.run (name ++ '(' :: (args ++ [')']))).rest
      = (s.rest.run (trim args)).rest := by
        rw [whole, run_append, rest_run_silent s front, run_append, rest_of_run_silent _ back]
    _ = (s.rest.run (lower name ++ '(' :: (trim args ++ [')']))).rest := by
        rw [whole', run_append, rest_run_silent s front', run_append,
          rest_of_run_silent _ (List.forall_mem_singleton.2 closing)]

/-- A word and what is written for it have the same effect. -/
theorem rest_run_kept (s : Reading) {w u : List Char} (h : Kept w u) :
    (s.rest.run w).rest = (s.rest.run u).rest := by
  cases h with
  | dull hw hu => rw [rest_of_run_silent _ hw.isSilent, rest_of_run_silent _ hu.isSilent]
  | same => rfl
  | color letters known spaces => exact rest_run_color s letters known spaces

/-- Texts with the same words, or with words that are kept, end in the same place. -/
theorem rest_run_laced {words others : List (List Char)} (kept : List.Forall₂ Kept words others)
    {cs ds : List Char} (hcs : Laced words cs) (hds : Laced others ds) {s t : Reading}
    (same : s.rest = t.rest) : (s.run cs).rest = (t.run ds).rest := by
  induction kept generalizing cs ds s t with
  | nil =>
    cases hcs with
    | nil breaks =>
      cases hds with
      | nil breaks' =>
        rw [rest_of_run_silent s fun c hc => (breaks c hc).isSilent,
          rest_of_run_silent t fun c hc => (breaks' c hc).isSilent, same]
  | @cons w u words others first _ ih =>
    -- a gap is silent and not empty, so that it brings both texts to the same place
    cases hcs with
    | @cons gap _ cs _ some_ breaks restCs =>
      cases hds with
      | @cons gap' _ ds _ some_' breaks' restDs =>
        rw [run_append, run_append, run_append, run_append,
          run_silent s some_ fun c hc => (breaks c hc).isSilent,
          run_silent t some_' fun c hc => (breaks' c hc).isSilent, ← same]
        exact ih restCs restDs (rest_run_kept s first)

end Reading

/-! ## Declared values -/

/-- The mark of importance opens no comment and closes none. -/
theorem endsOutside_declaredValue (important : Bool) (value : String) :
    EndsOutside (declaredValue important value) ↔ EndsOutside value := by
  cases important with
  | false => rfl
  | true =>
    have silent : ∀ c ∈ " !important".toList, IsSilent c := by
      simp [IsSilent]
    rw [EndsOutside, EndsOutside, declaredValue, if_pos rfl, String.toList_append,
      Reading.run_append, ← Reading.isOutside_rest, Reading.rest_of_run_silent _ silent,
      Reading.isOutside_rest]

namespace UtilityClass

variable {c : UtilityClass}

/-- The value of a faithful class ends where its raw value ends. -/
theorem IsFaithful.endsOutside_iff (h : c.IsFaithful) :
    EndsOutside c.value ↔ EndsOutside c.raw := by
  obtain ⟨others, laced, kept, -, -⟩ := h.written
  have raw : Laced (Scan.gapWords c.raw.toList) (' ' :: c.raw.toList) := laced_gapWords h.spaces
  have same := Reading.rest_run_laced kept raw laced (s := .plain) rfl
  have space : Reading.plain.step ' ' = .plain := by decide
  rw [Reading.run_cons, Reading.run_cons, space] at same
  rw [EndsOutside, EndsOutside, ← Reading.isOutside_rest, ← same, Reading.isOutside_rest]

theorem value_of_rule {important : Bool} {rule : StyleRule} (h : c.rule important = .ok rule) :
    rule.value = declaredValue important c.value := by
  obtain ⟨-, -, -, rfl⟩ := rule_eq_ok h
  rfl

/-- The declared value of a class ends outside every comment exactly if its raw value does. -/
theorem endsOutside_rule_iff {limits : InputLimits} {token : Json} {important : Bool}
    {rule : StyleRule} (hread : read .standard limits token = .ok c)
    (hrule : c.rule important = .ok rule) : EndsOutside rule.value ↔ EndsOutside c.raw := by
  rw [value_of_rule hrule, endsOutside_declaredValue]
  exact (isFaithful_of_read hread).endsOutside_iff

/-- A colour whose fallback opens a comment, declared as important. -/
theorem endsOutside_rule_iff_color :
    EndsOutside "rgb(var(--x,/*), 1, 2) !important" ↔ EndsOutside "RGB( var(--x,/*), 1, 2 )" := by
  have hread : read .standard .standard (.string "bg-[RGB( var(--x,/*), 1, 2 )]") =
      .ok ⟨"bg-[RGB( var(--x,/*), 1, 2 )]", "bg", "background-color", "rgb(var(--x,/*), 1, 2)",
        "RGB( var(--x,/*), 1, 2 )", ["RGB( var(--x,/*), 1, 2 )"], true, .color, .color "rgb",
        .plain⟩ := by decide +kernel
  have hrule : UtilityClass.rule ⟨"bg-[RGB( var(--x,/*), 1, 2 )]", "bg", "background-color",
      "rgb(var(--x,/*), 1, 2)", "RGB( var(--x,/*), 1, 2 )", ["RGB( var(--x,/*), 1, 2 )"], true,
      .color, .color "rgb", .plain⟩ true =
        .ok ⟨Selector.ofClass "bg-[RGB( var(--x,/*), 1, 2 )]", "bg-[RGB( var(--x,/*), 1, 2 )]",
          "background-color", "rgb(var(--x,/*), 1, 2) !important", 10, none⟩ := by decide +kernel
  have same := endsOutside_rule_iff hread hrule
  exact same

/-- A comment that is opened and not closed gets into a sheet. -/
theorem exists_rule_not_endsOutside :
    ∃ c rule, read .standard .standard (.string "font-[a/*b]") = .ok c ∧
      c.rule false = .ok rule ∧ ¬ EndsOutside rule.value := by
  refine ⟨⟨"font-[a/*b]", "font", "font", "a/*b", "a/*b", ["a/*b"], false, .complex, .none,
    .plain⟩, ⟨Selector.ofClass "font-[a/*b]", "font-[a/*b]", "font", "a/*b", 10, none⟩, ?_, ?_, ?_⟩
  · decide +kernel
  · decide +kernel
  · decide

end UtilityClass

end BracketCss
