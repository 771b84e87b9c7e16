import BracketCss.Proofs.Markup.Attribute
import BracketCss.Proofs.Text.Pair

/-!
# Elements with one attribute

An attribute is looked for where no word goes on, and a hyphen or a colon ends a word. So besides
`class` and `className` every name that ends in one of them behind a hyphen or a colon is taken for
it, such as `data-class` and `v-bind:class`. No other name is: if the value of the attribute holds
no class attribute itself, nothing is found in its element.

## Main definitions

* `Attribute`, `Element`: an attribute with any name, and an element that has no other one
* `Attribute.EndsInClass`: the names that are taken for `class` or `className`

## Main results

* `attributesFrom_append_mark`: up to the last quotation mark a text is read by itself
* `Element.exists_of_opening`: an attribute opens in a tag only where its name ends so
* `Element.attributes_write_of_endsInClass`, `Element.attributes_write_of_not_endsInClass`: what is
  found in an element
* `Element.classes_text_eq_nil_iff`: in which elements no class is found
-/

namespace BracketCss.Markup

open Text

/-! ## What is written -/

/-- A character that names of attributes are made of. -/
def isAttributeNameChar (c : Char) : Bool :=
  isAsciiAlphanumeric c || c == '-' || c == '_' || c == ':'

/-- A text without quotation marks. -/
def HasNoMark (cs : List Char) : Prop := '"' ∉ cs ∧ '\'' ∉ cs

/-- An attribute: its name, an equals sign, and a value between two marks. -/
structure Attribute where
  name : List Char
  /-- The blanks before the equals sign. -/
  before : Blanks
  /-- The blanks behind it. -/
  after : Blanks
  mark : Char
  value : List Char
  nonempty : name ≠ []
  named : ∀ c ∈ name, isAttributeNameChar c
  quote : mark = '"' ∨ mark = '\''
  free : mark ∉ value

/-- The name is `class` or `className`, or ends so behind a hyphen or a colon. -/
def Attribute.EndsInClass (attr : Attribute) : Prop :=
  ∃ front word, attr.name = front ++ word ∧
    (word = "className".toList ∨ word = "class".toList) ∧
    ∀ c ∈ front.getLast?, c = '-' ∨ c = ':'

/-- An element with one attribute. What stands behind the attribute is the end of the first tag,
and the content and the last tag of the element, if it has them; no mark stands there. -/
structure Element extends Attribute where
  tag : List Char
  gap : Blanks
  ending : List Char
  tagged : tag ≠ [] ∧ ∀ c ∈ tag, isBlank c = false ∧ c ∉ ['"', '\'', '=', '<', '>', '/']
  apart : gap.val ≠ []
  unmarked : HasNoMark ending

namespace Element

variable (element : Element)

/-- An element up to the name of its attribute. -/
def start : List Char := '<' :: (element.tag ++ element.gap.val)

/-- The characters of an element. -/
def write : List Char :=
  element.start ++ (element.name ++ (element.before.val ++ '=' :: (element.after.val ++
    element.mark :: (element.value ++ element.mark :: element.ending))))

/-- The text of an element. -/
def text : String := .ofList element.write

end Element

/-! ## Up to the last quotation mark -/

variable {mark : Char} {cs ending : List Char}

theorem HasNoMark.notMem (h : HasNoMark cs) (quote : mark = '"' ∨ mark = '\'') : mark ∉ cs := by
  rcases quote with rfl | rfl
  · exact h.1
  · exact h.2

theorem Opening.mark_mem_tail (opening : Opening) : opening.mark ∈ opening.text.tail := by
  have nonempty : opening.name ≠ [] := by rcases opening.named with name | name <;> simp [name]
  rw [Opening.text, List.tail_append_of_ne_nil nonempty]
  simp

/-- Only the first character of a text in which an attribute starts may be the last mark. -/
theorem isMute_of_tail {rest : List Char} (unmarked : HasNoMark (cs.tail ++ rest)) :
    IsMute cs rest := by
  refine isMute_of_openings fun back behind nonempty opening more same => ?_
  refine unmarked.notMem opening.quote ?_
  have inside : opening.mark ∈ (back ++ rest).tail := by
    rw [same, List.tail_append_of_ne_nil (List.ne_nil_of_mem opening.eq_mem)]
    exact List.mem_append_left _ opening.mark_mem_tail
  rw [List.tail_append_of_ne_nil nonempty] at inside
  have short : back.tail <:+ cs.tail := by
    obtain ⟨front, rfl⟩ := behind
    cases front with
    | nil => exact List.suffix_rfl
    | cons c front =>
      exact (List.tail_suffix back).trans (List.suffix_append front back)
  rw [List.mem_append] at inside ⊢
  exact inside.imp_left fun mem => short.subset mem

/-- A last mark ends no value, and what stands behind it is left over. -/
theorem attributeAt?_append_mark (free : mark ∉ cs) (unmarked : HasNoMark ending) :
    attributeAt? (cs ++ mark :: ending) =
      (attributeAt? cs).map fun found => (found.1, found.2 ++ mark :: ending) := by
  refine Option.ext fun found => ?_
  obtain ⟨value, behind⟩ := found
  rw [Option.map_eq_some_iff, attributeAt?_eq_some_iff]
  constructor
  · rintro ⟨opening, inside, same⟩
    rw [← List.append_assoc] at same
    -- the value does not end at the last mark, since the mark that opens it would be another one
    have apart : cs = opening.text ++ value → mark ≠ opening.mark := by
      rintro rfl rfl
      exact free (List.mem_append_left _ (List.mem_of_mem_tail opening.mark_mem_tail))
    rcases List.append_eq_append_iff.1 same with ⟨more, whole, rest⟩ | ⟨more, rfl, rest⟩
    · cases more with
      | nil =>
        rw [List.nil_append, List.cons.injEq] at rest
        exact absurd rest.1 (apart (by rw [whole, List.append_nil]))
      | cons c more =>
        rw [List.cons_append, List.cons.injEq] at rest
        exact absurd (by simp [rest.2]) (unmarked.notMem opening.quote)
    · cases more with
      | nil =>
        rw [List.nil_append, List.cons.injEq] at rest
        exact absurd rest.1.symm (apart (List.append_nil _))
      | cons c more =>
        rw [List.cons_append, List.cons.injEq] at rest
        obtain ⟨rfl, rfl⟩ := rest
        refine ⟨(value, more), attributeAt?_eq_some_iff.2 ⟨opening, inside, ?_⟩, rfl⟩
        rw [List.append_assoc]
  · rintro ⟨⟨_, rest⟩, found, same⟩
    obtain ⟨rfl, rfl⟩ := Prod.mk.inj same
    obtain ⟨opening, inside, rfl⟩ := attributeAt?_eq_some_iff.1 found
    exact ⟨opening, inside, by simp⟩

/-- Of the character before a text only matters whether it belongs to a word. -/
theorem attributesFrom_congr {before other : Option Char}
    (same : before.any isWordChar = other.any isWordChar) (seen : List (List Char)) :
    attributesFrom seen before cs = attributesFrom seen other cs := by
  cases cs with
  | nil => rw [attributesFrom, attributesFrom]
  | cons c cs => rw [attributesFrom_cons, attributesFrom_cons, same]

/-- **Up to the last mark a text is read by itself.** -/
theorem attributesFrom_append_mark (free : mark ∉ cs) (unmarked : HasNoMark ending)
    (seen : List (List Char)) (before : Option Char) :
    attributesFrom seen before (cs ++ mark :: ending) = attributesFrom seen before cs := by
  -- reading goes on behind a value, so the induction is on the length
  induction size : cs.length using Nat.strongRecOn generalizing cs seen before with
  | ind n ih =>
    subst size
    cases cs with
    | nil =>
      have mute : IsMute (mark :: ending) [] := isMute_of_tail (by simpa using unmarked)
      have whole := attributesFrom_append mute seen before
      rw [List.append_nil] at whole
      rw [List.nil_append, whole, attributesFrom, attributesFrom]
    | cons c cs =>
      have on : attributesFrom seen (some c) (cs ++ mark :: ending) =
          attributesFrom seen (some c) cs :=
        ih cs.length (Nat.lt_succ_self _) (List.not_mem_of_not_mem_cons free) seen _ rfl
      rw [List.cons_append, attributesFrom_cons, attributesFrom_cons, on, ← List.cons_append,
        attributeAt?_append_mark free unmarked]
      split
      · rfl
      · cases found : attributeAt? (c :: cs) with
        | none => rfl
        | some found' =>
          obtain ⟨value, behind⟩ := found'
          have shorter := attributeAt?_shorter found
          obtain ⟨opening, -, whole⟩ := attributeAt?_eq_some_iff.1 found
          refine ih behind.length shorter (fun mem => free ?_) _ _ rfl
          rw [whole]
          simp [mem]

/-! ## Where an attribute opens in a tag -/

/-- A text ends in one way with blanks. -/
theorem append_blanks_inj {xs ys gap space : List Char}
    (solid : ∀ c ∈ xs.getLast?, isBlank c = false) (solid' : ∀ c ∈ ys.getLast?, isBlank c = false)
    (blank : ∀ c ∈ gap, isBlank c) (blank' : ∀ c ∈ space, isBlank c)
    (same : xs ++ gap = ys ++ space) : xs = ys := by
  have cut : ∀ {zs blanks : List Char}, (∀ c ∈ zs.getLast?, isBlank c = false) →
      (∀ c ∈ blanks, isBlank c) → trimStart (zs ++ blanks).reverse = zs.reverse := by
    intro zs blanks solid blank
    rw [List.reverse_append]
    exact trimStart_append (fun c mem => blank c (List.mem_reverse.1 mem)) (by simpa using solid)
  rw [← List.reverse_inj, ← cut solid blank, same, cut solid' blank']

namespace Opening

variable (opening : Opening)

theorem isBlank_of_mem_name {c : Char} (mem : c ∈ opening.name) : isBlank c = false := by
  have letters : ∀ name, name = "className".toList ∨ name = "class".toList →
      ∀ c ∈ name, isBlank c = false := by
    rintro _ (rfl | rfl) <;> decide
  exact letters _ opening.named c mem

theorem eq_notMem : '=' ∉ opening.name ++ opening.before.val := by
  rw [List.mem_append]
  rintro (mem | mem)
  · rcases opening.named with name | name <;> rw [name] at mem <;> revert mem <;> decide
  · exact absurd (opening.before.property _ mem) (by decide)

end Opening

theorem isBlank_of_isAttributeNameChar {c : Char} (h : isAttributeNameChar c) :
    isBlank c = false ∧ c ≠ '=' := by
  refine ⟨isBlank_of_class (by decide) h, ?_⟩
  rintro rfl
  cases h

/-- A character of a name ends a word if it is a hyphen or a colon. -/
theorem isWordChar_eq_false_iff {c : Char} (h : isAttributeNameChar c) :
    isWordChar c = false ↔ c = '-' ∨ c = ':' := by
  constructor
  · intro apart
    rw [isWordChar, Bool.or_eq_false_iff, Bool.or_eq_false_iff] at apart
    simpa [isAttributeNameChar, apart.1] using h
  · rintro (rfl | rfl) <;> decide

namespace Element

variable (element : Element) {front : List Char}

theorem eq_notMem : '=' ∉ element.start ++ element.name ++ element.before.val := by
  simp only [start, List.mem_append, List.mem_cons]
  rintro (((same | mem | mem) | mem) | mem)
  · revert same
    decide
  · exact (element.tagged.2 _ mem).2 (by decide)
  · exact absurd (element.gap.property _ mem) (by decide)
  · exact (isBlank_of_isAttributeNameChar (element.named _ mem)).2 rfl
  · exact absurd (element.before.property _ mem) (by decide)

/-- **An attribute opens in a tag** only at the end of the name of its attribute. -/
theorem exists_of_opening {opening : Opening} {more : List Char}
    (same : element.write = front ++ (opening.text ++ more)) (early : '=' ∉ front) :
    ∃ lead, front = element.start ++ lead ∧ element.name = lead ++ opening.name := by
  have absent : '=' ∉ front ++ opening.name ++ opening.before.val := by
    rw [List.append_assoc, List.mem_append, not_or]
    exact ⟨early, opening.eq_notMem⟩
  have whole : element.start ++ element.name ++ element.before.val ++ '=' ::
        (element.after.val ++ element.mark :: (element.value ++ element.mark :: element.ending)) =
      front ++ opening.name ++ opening.before.val ++ '=' ::
        (opening.after.val ++ ([opening.mark] ++ more)) := by
    simpa [write, Opening.text] using same
  obtain ⟨named, -⟩ := append_cons_inj element.eq_notMem absent whole
  have solid : ∀ c ∈ (element.start ++ element.name).getLast?, isBlank c = false := by
    intro c last
    rw [List.getLast?_append_of_ne_nil _ element.nonempty] at last
    exact (isBlank_of_isAttributeNameChar (element.named c (List.mem_of_getLast? last))).1
  have solid' : ∀ c ∈ (front ++ opening.name).getLast?, isBlank c = false := by
    intro c last
    rw [List.getLast?_append_of_ne_nil] at last
    · exact opening.isBlank_of_mem_name (List.mem_of_getLast? last)
    · rcases opening.named with name | name <;> simp [name]
  have names := append_blanks_inj solid solid' element.before.property opening.before.property named
  rcases List.append_eq_append_iff.1 names with ⟨lead, rfl, name⟩ | ⟨tail, start, name⟩
  · exact ⟨lead, rfl, name⟩
  · rcases List.eq_nil_or_concat' tail with rfl | ⟨tail, c, rfl⟩
    · exact ⟨[], by simpa using start.symm, by simpa using name.symm⟩
    · have inside : c ∈ opening.name := by simp [name]
      have last : c ∈ element.gap.val.getLast? := by
        have ends : element.start.getLast? = some c := by simp [start]
        rwa [Element.start, ← List.cons_append,
          List.getLast?_append_of_ne_nil _ element.apart] at ends
      have blank := element.gap.property c (List.mem_of_getLast? last)
      rw [opening.isBlank_of_mem_name inside] at blank
      cases blank

/-- A name that ends in a class name holds no longer one that ends there. -/
theorem eq_nil_of_append_named {lead word : List Char} {opening : Opening}
    (named : word = "className".toList ∨ word = "class".toList)
    (same : opening.name = lead ++ word) : lead = [] := by
  have suffix : word <:+ opening.name := ⟨lead, same.symm⟩
  rcases opening.named with name | name <;> rcases named with rfl | rfl <;> rw [name] at same suffix
  · exact List.append_left_eq_self.1 same.symm
  · exact absurd suffix (by decide)
  · exact absurd suffix (by decide)
  · exact List.append_left_eq_self.1 same.symm

theorem isWordChar_of_mem_getLast?_start {c : Char} (last : c ∈ element.start.getLast?) :
    isWordChar c = false := by
  rw [start, ← List.cons_append, List.getLast?_append_of_ne_nil _ element.apart] at last
  have blank := element.gap.property c (List.mem_of_getLast? last)
  rw [Bool.eq_false_iff]
  intro word
  rw [isBlank_of_isNameChar (by simp [isNameChar, word])] at blank
  cases blank

/-- No word goes on at a place in a name if a hyphen or a colon stands before it. -/
theorem any_isWordChar_getLast?_iff {lead rest : List Char} (name : element.name = lead ++ rest) :
    (element.start ++ lead).getLast?.any isWordChar = false ↔
      ∀ c ∈ lead.getLast?, c = '-' ∨ c = ':' := by
  rcases List.eq_nil_or_concat' lead with rfl | ⟨lead, d, rfl⟩
  · rw [List.append_nil]
    refine iff_of_true ?_ (by simp)
    rw [Option.any_eq_false]
    exact fun c last => element.isWordChar_of_mem_getLast?_start last
  · have ofName := element.named d (by simp [name])
    rw [← List.append_assoc, List.getLast?_concat, List.getLast?_concat]
    simpa using isWordChar_eq_false_iff ofName

/-- The value of an attribute whose name ends in a class name is found. -/
theorem attributes_write_of_endsInClass (h : element.EndsInClass) :
    attributes element.write = [element.value] := by
  obtain ⟨lead, word, name, named, edge⟩ := h
  let opening : Opening := ⟨word, element.before, element.after, element.mark, named, element.quote⟩
  have whole : element.write = element.start ++ lead ++
      (opening.text ++ (element.value ++ element.mark :: element.ending)) := by
    simp [write, Opening.text, name, opening]
  have pass : ∀ front back, element.start ++ lead = front ++ back → back ≠ [] →
      (front.getLast?.or none).any isWordChar = false →
      attributeAt? (back ++ (opening.text ++ (element.value ++ element.mark :: element.ending))) =
        none := by
    intro front back same nonempty _
    rw [Option.eq_none_iff_forall_ne_some]
    rintro ⟨value, behind⟩ found
    obtain ⟨other, -, starts⟩ := attributeAt?_eq_some_iff.1 found
    rw [same, List.append_assoc, starts] at whole
    have early : '=' ∉ front := fun mem => element.eq_notMem (by
      rw [name, ← List.append_assoc, same]
      simp [mem])
    obtain ⟨lead', rfl, name'⟩ := element.exists_of_opening whole early
    rw [List.append_assoc, List.append_cancel_left_eq] at same
    rw [name, same, List.append_assoc, List.append_cancel_left_eq] at name'
    exact nonempty (eq_nil_of_append_named named name'.symm)
  have apart := (element.any_isWordChar_getLast?_iff name).2 edge
  have mute : IsMute element.ending [] :=
    isMute_of_tail (by
      rw [List.append_nil]
      exact ⟨fun mem => element.unmarked.1 (List.mem_of_mem_tail mem),
        fun mem => element.unmarked.2 (List.mem_of_mem_tail mem)⟩)
  have behind := attributesFrom_append mute [element.value] (some '"')
  rw [List.append_nil] at behind
  rw [attributes, whole, attributesFrom_append_of_pass pass, Option.or_none,
    attributesFrom_value apart opening element.free, behind, attributesFrom]
  rfl

/-- Otherwise only the value is read. -/
theorem attributes_write_of_not_endsInClass (h : ¬ element.EndsInClass) :
    attributes element.write = attributes element.value := by
  let head := element.start ++ element.name ++ element.before.val
  let tail := element.after.val ++ [element.mark]
  have whole : element.write =
      head ++ '=' :: tail ++ (element.value ++ element.mark :: element.ending) := by
    simp [write, head, tail]
  have pass : ∀ front back, head ++ '=' :: tail = front ++ back → back ≠ [] →
      (front.getLast?.or none).any isWordChar = false →
      attributeAt? (back ++ (element.value ++ element.mark :: element.ending)) = none := by
    intro front back same nonempty apart
    rw [Option.eq_none_iff_forall_ne_some]
    rintro ⟨value, behind⟩ found
    obtain ⟨opening, -, starts⟩ := attributeAt?_eq_some_iff.1 found
    by_cases early : '=' ∈ front
    · obtain ⟨xs, ys, rfl, absent⟩ := List.eq_append_cons_of_mem early
      have cut : head ++ '=' :: tail = xs ++ '=' :: (ys ++ back) := by
        rw [same, List.append_assoc, List.cons_append]
      obtain ⟨-, inside⟩ := append_cons_inj element.eq_notMem absent cut
      obtain ⟨c, back, rfl⟩ := List.exists_cons_of_ne_nil nonempty
      have first := congrArg List.head? starts
      rw [List.cons_append, List.head?_cons, opening.head?_append, Option.some.injEq] at first
      have mem : 'c' ∈ tail := by
        rw [inside, ← first]
        simp
      rw [List.mem_append, List.mem_singleton] at mem
      rcases mem with mem | mem
      · exact absurd (element.after.property _ mem) (by decide)
      · rcases element.quote with mark | mark <;> rw [mark] at mem <;> revert mem <;> decide
    · rw [same, List.append_assoc, starts] at whole
      obtain ⟨lead, rfl, name⟩ := element.exists_of_opening whole early
      rw [Option.or_none] at apart
      exact h ⟨lead, opening.name, name, opening.named,
        (element.any_isWordChar_getLast?_iff name).1 apart⟩
  have edge : ((head ++ '=' :: tail).getLast?.or none).any isWordChar =
      (none : Option Char).any isWordChar := by
    have solid : isWordChar element.mark = false := by
      rcases element.quote with mark | mark <;> rw [mark] <;> decide
    have ends : head ++ '=' :: tail = head ++ '=' :: element.after.val ++ [element.mark] := by
      simp [tail]
    rw [ends, List.getLast?_concat]
    simpa using solid
  rw [attributes, whole, attributesFrom_append_of_pass pass,
    attributesFrom_append_mark element.free element.unmarked, attributesFrom_congr edge, attributes]

/-! ## The classes of an element -/

theorem blankWords_eq_nil_iff {cs : List Char} : blankWords cs = [] ↔ ∀ c ∈ cs, isBlank c := by
  rw [← List.dropWhile_eq_nil_iff, blankWords]
  split <;> next cut => simp [cut]

theorem distinct_eq_nil_iff {items : List String} : distinct items = [] ↔ items = [] := by
  simp only [List.eq_nil_iff_forall_not_mem, mem_distinct]

/-- **An element names a class** exactly if the name of its attribute is `class` or `className` or
ends so behind a hyphen or a colon, and its value is not blank; the classes are then those of the
value. Attributes that are written in the value do not count here. -/
theorem classes_text_eq_nil_iff (inside : attributes element.value = []) :
    (classes element.text = [] ↔ ¬ element.EndsInClass ∨ ∀ c ∈ element.value, isBlank c) ∧
      (element.EndsInClass →
        classes element.text = distinct ((blankWords element.value).map String.ofList)) := by
  have read : classes element.text = distinct ((attributes element.write).flatMap
      fun value => (blankWords value).map .ofList) := by
    rw [classes, text, String.toList_ofList]
  by_cases named : element.EndsInClass
  · rw [read, element.attributes_write_of_endsInClass named, List.flatMap_singleton]
    refine ⟨?_, fun _ => rfl⟩
    rw [distinct_eq_nil_iff, List.map_eq_nil_iff, blankWords_eq_nil_iff]
    simp [named]
  · rw [read, element.attributes_write_of_not_endsInClass named, inside]
    exact ⟨iff_of_true rfl (.inl named), fun other => absurd other named⟩

theorem classes_text_eq_nil_iff_bound : ∃ element : Element,
    element.text = "<i v-bind:class = 'a b a'></i>" ∧ attributes element.value = [] ∧
      element.EndsInClass ∧
      classes element.text = distinct ((blankWords element.value).map String.ofList) := by
  let element : Element :=
    ⟨⟨"v-bind:class".toList, ⟨[' '], by decide⟩, ⟨[' '], by decide⟩, '\'', "a b a".toList,
      by decide, by decide, .inr rfl, by decide⟩,
      "i".toList, ⟨[' '], by decide⟩, "></i>".toList, by decide, by decide, by decide, by decide⟩
  have inside : attributes element.value = [] := by decide +kernel
  have named : element.EndsInClass := ⟨"v-bind:".toList, "class".toList, rfl, .inr rfl,
    fun c last => .inr (Option.some.inj last).symm⟩
  exact ⟨element, rfl, inside, named, (element.classes_text_eq_nil_iff inside).2 named⟩

/-- An element may name a class although its only attribute is another one. -/
theorem exists_classes_text_ne_nil : ∃ element : Element,
    element.text = "<i data-class=\"x\"></i>" ∧ element.name ≠ "class".toList ∧
      element.name ≠ "className".toList ∧ attributes element.value = [] ∧
      classes element.text = ["x"] := by
  let element : Element :=
    ⟨⟨"data-class".toList, ⟨[], by decide⟩, ⟨[], by decide⟩, '"', ['x'],
      by decide, by decide, .inl rfl, by decide⟩,
      "i".toList, ⟨[' '], by decide⟩, "></i>".toList, by decide, by decide, by decide, by decide⟩
  exact ⟨element, rfl, by decide, by decide, by decide +kernel, by decide +kernel⟩

/-- A word that goes on at both ends is no class attribute. -/
example : classes "<i subclass='a' classes='b' class-x='c' title='class'></i>" = [] := by
  decide +kernel

end Element

end BracketCss.Markup
