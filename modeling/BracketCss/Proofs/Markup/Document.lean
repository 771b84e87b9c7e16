import BracketCss.Proofs.Markup.Attribute
import BracketCss.Proofs.Sheet.Group

/-!
# The classes of written documents

A document whose elements have no attribute but `class` or `className` names exactly the classes
that are written in these attributes. A class may hold anything but blanks and the mark that its
attribute is quoted with: tags, equals signs, the other mark and the word `class` alike. The text
around the tags may be anything that opens no attribute, such as a comment or a tag that has none;
a text that opens one would be taken for it.

## Main definitions

* `ClassList`, `Tag`, `Document`: what is written, with its blanks and quotation marks
* `IsFirstSeen found items`: the items without repetitions, in the order of a list
* `Document.text`, `Document.tokens`: the text of a document, and the classes in it

## Main results

* `map_blankWords_value`: the words of an attribute are its classes
* `Document.reads`: reading a document finds the values of its attributes
* `classesOfAll_write`: the classes of documents are those written in them
-/

namespace BracketCss

open Text

/-! ## Words between blanks -/

namespace Text

variable {gap token rest : List Char}

theorem blankWords_blanks (blank : ∀ c ∈ gap, isBlank c) : blankWords gap = [] := by
  rw [blankWords]
  split
  · rfl
  · next first =>
    rw [List.dropWhile_eq_nil_iff.2 blank] at first
    cases first

/-- The first word of a text. -/
theorem blankWords_append (blank : ∀ c ∈ gap, isBlank c) (nonempty : token ≠ [])
    (solid : ∀ c ∈ token, isBlank c = false) (edge : ∀ c ∈ rest.head?, isBlank c) :
    blankWords (gap ++ (token ++ rest)) = token :: blankWords rest := by
  obtain ⟨d, token, rfl⟩ := List.exists_cons_of_ne_nil nonempty
  obtain ⟨first, others⟩ := List.forall_mem_cons.1 solid
  have start : (gap ++ (d :: token ++ rest)).dropWhile isBlank = d :: (token ++ rest) :=
    trimStart_append blank (by simpa using first)
  have inside : ∀ c ∈ token, (!isBlank c) = true := fun c mem => by rw [others c mem]; rfl
  rw [blankWords]
  split
  · next missing => rw [start] at missing; cases missing
  · next found =>
    rw [start, List.cons.injEq] at found
    obtain ⟨rfl, rfl⟩ := found
    rw [List.takeWhile_append_of_pos inside, List.dropWhile_append_of_pos inside]
    cases rest with
    | nil => simp
    | cons c rest =>
      have blank := edge c rfl
      simp [blank]

end Text

/-! ## Items without repetitions -/

/-- The items of a list without repetitions, in the order in which they occur first. -/
structure IsFirstSeen (found items : List String) : Prop where
  nodup : found.Nodup
  mem_iff : ∀ item, item ∈ found ↔ item ∈ items
  inOrder : found.Pairwise fun a b => items.idxOf a < items.idxOf b

theorem isFirstSeen_distinct (items : List String) : IsFirstSeen (distinct items) items :=
  ⟨distinct_nodup items, fun _ => mem_distinct, pairwise_idxOf_distinct items⟩

/-- What is distinct behind some items depends on which of them are distinct. -/
theorem distinct_append_congr {xs ys : List String} (same : distinct xs = distinct ys)
    (zs : List String) : distinct (xs ++ zs) = distinct (ys ++ zs) := by
  induction zs using List.reverseRecOn with
  | nil => rwa [List.append_nil, List.append_nil]
  | append_singleton zs z ih =>
    have known : z ∈ xs ++ zs ↔ z ∈ ys ++ zs := by rw [← mem_distinct, ih, mem_distinct]
    simp only [← List.append_assoc, distinct_append_singleton, known, ih]

/-- Repetitions within the items at the end may be left out first. -/
theorem distinct_append_distinct (xs ys : List String) :
    distinct (xs ++ distinct ys) = distinct (xs ++ ys) := by
  induction ys using List.reverseRecOn with
  | nil => rfl
  | append_singleton ys y ih =>
    rw [distinct_append_singleton, ← List.append_assoc, distinct_append_singleton]
    split
    · next old => rw [if_pos (List.mem_append_right xs old), ih]
    · next fresh =>
      have known : y ∈ xs ++ distinct ys ↔ y ∈ xs ++ ys := by
        rw [List.mem_append, List.mem_append, mem_distinct]
      simp only [← List.append_assoc, distinct_append_singleton, known, ih]

/-- Repetitions within the parts of a list may be left out first. -/
theorem distinct_flatMap_distinct {α : Type} (read : α → List String) (items : List α) :
    distinct (items.flatMap fun item => distinct (read item)) = distinct (items.flatMap read) := by
  induction items using List.reverseRecOn with
  | nil => rfl
  | append_singleton items item ih =>
    rw [List.flatMap_append, List.flatMap_append, List.flatMap_singleton, List.flatMap_singleton,
      distinct_append_distinct, distinct_append_congr ih]

namespace Markup

/-! ## What is written -/

/-- A text in which no attribute opens. -/
abbrev Silence : Type := {cs : List Char // IsSilent cs}

/-- A class with the blanks before it, as it may stand between two marks. -/
structure Word (mark : Char) where
  gap : Blanks
  token : List Char
  nonempty : token ≠ []
  solid : ∀ c ∈ token, isBlank c = false ∧ c ≠ mark

/-- A class attribute: what it starts with, and a list of classes up to the second mark. -/
structure ClassList extends Opening where
  words : List (Word mark)
  apart : ∀ word ∈ words.tail, word.gap.val ≠ []
  trail : Blanks

namespace ClassList

variable (list : ClassList)

/-- What stands between the marks. -/
def value : List Char :=
  list.words.flatMap (fun word => word.gap.val ++ word.token) ++ list.trail.val

/-- The classes of the attribute. -/
def tokens : List String := list.words.map fun word => .ofList word.token

end ClassList

/-- The first tag of an element; its only attribute is a list of classes. -/
structure Tag where
  name : List Char
  gap : Blanks
  list : ClassList
  trail : Blanks
  nonempty : name ≠ []
  named : ∀ c ∈ name, isBlank c = false ∧ c ∉ ['"', '\'', '=', '<', '>', '/']
  apart : gap.val ≠ []

namespace Tag

variable (tag : Tag)

/-- A tag up to its attribute. -/
def start : List Char := '<' :: (tag.name ++ tag.gap.val)

/-- What stands behind the attribute, with or without a slash. -/
def ending (slash : Bool) : List Char := tag.trail.val ++ ((if slash then ['/'] else []) ++ ['>'])

/-- The text of a tag. -/
def write (slash : Bool) : List Char :=
  tag.start ++ (tag.list.text ++ (tag.list.value ++ tag.list.mark :: tag.ending slash))

/-- The text of the tag at the end of an element. -/
def writeEnd (space : Blanks) : List Char := '<' :: '/' :: (tag.name ++ space.val) ++ ['>']

end Tag

/-- A document: elements, each with an end tag or without one, and the texts between the tags. -/
inductive Document where
  | plain (cs : Silence)
  | element (lead : Silence) (tag : Tag) (content : Document) (space : Blanks) (rest : Document)
  | single (lead : Silence) (tag : Tag) (slash : Bool) (rest : Document)

namespace Document

/-- The characters of a document. -/
def write : Document → List Char
  | plain cs => cs.val
  | element lead tag content space rest =>
    lead.val ++ (tag.write false ++ (content.write ++ (tag.writeEnd space ++ rest.write)))
  | single lead tag slash rest => lead.val ++ (tag.write slash ++ rest.write)

/-- The text of a document. -/
def text (document : Document) : String := .ofList document.write

/-- The class attributes of a document, in the order of their elements. -/
def lists : Document → List ClassList
  | plain _ => []
  | element _ tag content _ rest => tag.list :: (content.lists ++ rest.lists)
  | single _ tag _ rest => tag.list :: rest.lists

/-- The classes that are written in a document. -/
def tokens (document : Document) : List String := document.lists.flatMap ClassList.tokens

end Document

/-! ## The words of an attribute -/

namespace ClassList

theorem mark_notMem_value (list : ClassList) : list.mark ∉ list.value := by
  have blank : ∀ gap : Blanks, list.mark ∉ gap.val := fun gap mem => by
    have := gap.property _ mem
    rcases list.quote with mark | mark <;> rw [mark] at this <;> revert this <;> decide
  simp only [value, List.mem_append, List.mem_flatMap]
  rintro (⟨word, -, mem | mem⟩ | mem)
  · exact blank word.gap mem
  · exact (word.solid _ mem).2 rfl
  · exact blank list.trail mem

theorem blankWords_words {mark : Char} {words : List (Word mark)}
    (apart : ∀ word ∈ words.tail, word.gap.val ≠ []) (trail : Blanks) :
    blankWords (words.flatMap (fun word => word.gap.val ++ word.token) ++ trail.val) =
      words.map (·.token) := by
  induction words with
  | nil => exact blankWords_blanks trail.property
  | cons word words ih =>
    have later : ∀ word ∈ words.tail, word.gap.val ≠ [] := fun word mem =>
      apart word (List.mem_of_mem_tail mem)
    have edge : ∀ c ∈ (words.flatMap (fun word => word.gap.val ++ word.token) ++
        trail.val).head?, isBlank c := by
      cases words with
      | nil => exact fun c mem => trail.property c (List.mem_of_head? mem)
      | cons next words =>
        obtain ⟨d, gap, same⟩ := List.exists_cons_of_ne_nil (apart next List.mem_cons_self)
        have blank := next.gap.property d (same ▸ List.mem_cons_self)
        simpa [same] using blank
    rw [List.flatMap_cons, List.append_assoc, List.append_assoc,
      blankWords_append word.gap.property word.nonempty (fun c mem => (word.solid c mem).1) edge,
      ih later, List.map_cons]

theorem map_blankWords_value (list : ClassList) :
    (blankWords list.value).map String.ofList = list.tokens := by
  rw [value, blankWords_words list.apart, List.map_map, tokens]
  rfl

end ClassList

/-! ## Reading a document -/

namespace Tag

variable (tag : Tag) {rest : List Char}

/-- A name and the blanks behind it open no attribute. -/
theorem eq_notMem (blanks : Blanks) : '=' ∉ tag.name ++ blanks.val := by
  rw [List.mem_append]
  rintro (mem | mem)
  · exact (tag.named _ mem).2 (by decide)
  · exact absurd (blanks.property _ mem) (by decide)

/-- The character before the attribute is a blank, so the attribute does not start in a word. -/
theorem any_isWordChar_getLast?_start (before : Option Char) :
    (tag.start.getLast?.or before).any isWordChar = false := by
  have last := List.getLast?_eq_some_getLast tag.apart
  have blank := tag.gap.property _ (List.getLast_mem tag.apart)
  have solid : isWordChar (tag.gap.val.getLast tag.apart) = false := by
    rw [Bool.eq_false_iff]
    intro word
    rw [isBlank_of_isNameChar (by simp [isNameChar, word])] at blank
    cases blank
  simp [start, List.getLast?_cons, List.getLast?_append, last, solid]

theorem isMute_ending (slash : Bool) : IsMute (tag.ending slash) rest := by
  refine isMute_of_ne fun c mem => ?_
  rintro rfl
  rw [ending, List.mem_append] at mem
  rcases mem with mem | mem
  · exact absurd (tag.trail.property _ mem) (by decide)
  · revert mem
    cases slash <;> decide

/-- Reading a tag finds the value of its attribute. -/
theorem reads (slash : Bool) : Reads (tag.write slash) [tag.list.value] rest := by
  intro seen before
  have silent : IsSilent tag.start :=
    isSilent_of_notMem (by simpa [start] using tag.eq_notMem tag.gap)
  let behind := tag.list.value ++ tag.list.mark :: (tag.ending slash ++ rest)
  have front : IsMute tag.start (tag.list.text ++ behind) := by
    refine silent.isMute fun c first => ?_
    rw [tag.list.head?_append, Option.mem_some_iff] at first
    simp [← first]
  refine ⟨(tag.ending slash).getLast?.or (some '"'), ?_⟩
  calc attributesFrom seen before (tag.write slash ++ rest)
      = attributesFrom seen before (tag.start ++ (tag.list.text ++ behind)) := by
        simp [write, behind]
    _ = attributesFrom seen (tag.start.getLast?.or before) (tag.list.text ++ behind) :=
        attributesFrom_append front seen before
    _ = attributesFrom (tag.list.value :: seen) (some '"') (tag.ending slash ++ rest) :=
        attributesFrom_value (tag.any_isWordChar_getLast?_start before) tag.list.toOpening
          tag.list.mark_notMem_value seen
    _ = _ := attributesFrom_append (tag.isMute_ending slash) _ _

theorem reads_writeEnd (space : Blanks) : Reads (tag.writeEnd space) [] rest := by
  have silent : IsSilent ('<' :: '/' :: (tag.name ++ space.val)) :=
    isSilent_of_notMem (by simpa using tag.eq_notMem space)
  have close : IsMute ['>'] rest := isMute_of_ne (by decide)
  exact (silent.isMute (by simp)).reads.append close.reads

end Tag

theorem Silence.reads (lead : Silence) {rest : List Char} (edge : ∀ c ∈ rest.head?, c = '<') :
    Reads lead.val [] rest :=
  (lead.property.isMute fun c first => by simp [edge c first]).reads

namespace Document

/-- **Reading a document** finds the values of its class attributes. -/
theorem reads (document : Document) {rest : List Char} (edge : ∀ c ∈ rest.head?, c = '<') :
    Reads document.write (document.lists.map ClassList.value) rest := by
  induction document generalizing rest with
  | plain cs => exact cs.reads edge
  | element lead tag content space others inner later =>
    have ended := (tag.reads_writeEnd space).append (later edge)
    have filled := (inner (by simp [Tag.writeEnd])).append ended
    have whole := (lead.reads (by simp [Tag.write, Tag.start])).append
      ((tag.reads false).append filled)
    simpa [write, lists] using whole
  | single lead tag slash others later =>
    have whole := (lead.reads (by simp [Tag.write, Tag.start])).append
      ((tag.reads slash).append (later edge))
    simpa [write, lists] using whole

/-- The classes of a document are those written in it. -/
theorem classes_text (document : Document) : classes document.text = distinct document.tokens := by
  rw [classes, text, String.toList_ofList, attributes_of_reads (document.reads (by simp)),
    List.flatMap_map, tokens]
  exact congrArg distinct (List.flatMap_congr fun list _ => list.map_blankWords_value)

end Document

/-! ## Several documents -/

theorem classesOfAll_map_text (documents : List Document) :
    classesOfAll (documents.map Document.text) = distinct (documents.flatMap Document.tokens) := by
  rw [classesOfAll, List.flatMap_map, ← distinct_flatMap_distinct Document.tokens]
  exact congrArg distinct (List.flatMap_congr fun document _ => document.classes_text)

/-- **The classes of written documents** are those written in them, without repetitions and in the
order in which they are written first; those of one document are the same whether it is read alone
or as the only one of several. -/
theorem classesOfAll_write (documents : List Document) :
    IsFirstSeen (classesOfAll (documents.map Document.text))
        (documents.flatMap Document.tokens) ∧
      ∀ document : Document, IsFirstSeen (classes document.text) document.tokens ∧
        classes document.text = classesOfAll [document.text] := by
  rw [classesOfAll_map_text]
  refine ⟨isFirstSeen_distinct _, fun document => ?_⟩
  have single := classesOfAll_map_text [document]
  rw [List.map_singleton, List.flatMap_singleton] at single
  rw [document.classes_text, single]
  exact ⟨isFirstSeen_distinct _, rfl⟩

section Example

def noBlank : Blanks := ⟨[], by simp⟩

def oneSpace : Blanks := ⟨[' '], by decide⟩

def noText : Silence := ⟨[], isSilent_of_notMem (by simp)⟩

/-- An attribute in quotation marks with a class in which another attribute is written. -/
def quotedList : ClassList :=
  ⟨⟨['c', 'l', 'a', 's', 's'], noBlank, noBlank, '"', .inr (by decide), .inl rfl⟩,
    [⟨noBlank, ['b'], by decide, by decide⟩,
      ⟨oneSpace, ['c', 'l', 'a', 's', 's', '=', '\'', 'd', '\''], by decide, by decide⟩],
    by decide, noBlank⟩

/-- An attribute in apostrophes with blanks around its sign. -/
def spacedList : ClassList :=
  ⟨⟨['c', 'l', 'a', 's', 's', 'N', 'a', 'm', 'e'], oneSpace, oneSpace, '\'', .inl (by decide),
      .inr rfl⟩,
    [⟨oneSpace, ['c'], by decide, by decide⟩,
      ⟨⟨['\n', '\t'], by decide⟩, ['b'], by decide, by decide⟩],
    by decide, noBlank⟩

/-- A document with an element in another, and one with two elements side by side. -/
def twoDocuments : List Document :=
  [.element noText ⟨['a'], oneSpace, quotedList, noBlank, by decide, by decide, by decide⟩
      (.single noText ⟨['i'], oneSpace, spacedList, oneSpace, by decide, by decide, by decide⟩ true
        (.plain noText)) noBlank (.plain noText),
    .single ⟨['e'], isSilent_of_notMem (by decide)⟩
      ⟨['p'], oneSpace, spacedList, noBlank, by decide, by decide, by decide⟩ false
      (.single noText ⟨['p'], oneSpace, quotedList, noBlank, by decide, by decide, by decide⟩ false
        (.plain noText))]

theorem map_text_twoDocuments : twoDocuments.map Document.text =
    ["<a class=\"b class='d'\"><i className = ' c\n\tb' /></a>",
      "e<p className = ' c\n\tb'><p class=\"b class='d'\">"] := by
  decide +kernel

/-- The classes of two documents, and those of the second one. -/
theorem classesOfAll_write_twoDocuments :
    IsFirstSeen (classesOfAll
        ["<a class=\"b class='d'\"><i className = ' c\n\tb' /></a>",
          "e<p className = ' c\n\tb'><p class=\"b class='d'\">"])
        ["b", "class='d'", "c", "b", "c", "b", "b", "class='d'"] ∧
      ∀ document ∈ twoDocuments, IsFirstSeen (classes document.text) document.tokens ∧
        classes document.text = classesOfAll [document.text] := by
  have all := classesOfAll_write twoDocuments
  rw [map_text_twoDocuments] at all
  have written : twoDocuments.flatMap Document.tokens =
      ["b", "class='d'", "c", "b", "c", "b", "b", "class='d'"] := by decide +kernel
  exact ⟨written ▸ all.1, fun document _ => all.2 document⟩

end Example

/-- What stands in a list is not read as an attribute. -/
example : classes "<a class=\"b c\"><i className = 'class=\"d\" c' /></a>" =
    ["b", "c", "class=\"d\""] := by decide +kernel

/-- What stands between tags is, if it opens one. -/
example : classes "<p class='a'>class='b'</p>" = ["a", "b"] := by decide +kernel

end Markup

end BracketCss
