import BracketCss.Json.Printer
import BracketCss.Json.Reader

/-!
# Canonical texts tell values apart

A printed string is read back as it was, whatever stands after it, so no printed string is the
start of another. Lists and objects of texts, truth values and missing values inherit this: the
compact text with sorted fields determines them, an object up to the order of its fields.

## Main definitions

* `Json.IsAtom v`: a text, a truth value or the missing value
* `Json.IsPrinted cs`: a text without control characters

## Main results

* `readString_flatMap_stringChar`: the reader undoes the printer of strings
* `atom_append_inj`: the text of an atom ends where it must
* `canonical_strings_inj`: the compact text of a list of texts determines the list
* `mem_fields_of_canonical_eq`: the compact text of an object of atoms determines its fields
* `isPrinted_canonical_strings`, `isPrinted_canonical_object`: no such text holds a control
  character
-/

namespace BracketCss.Json

open Text

section Strings

theorem hexDigitChar_spec {n : Nat} (h : n < 16) :
    isHexDigit (hexDigitChar n) ∧ hexValue (hexDigitChar n) = n := by
  have table : ∀ k < 16, isHexDigit (hexDigitChar k) ∧ hexValue (hexDigitChar k) = k := by decide
  exact table n h

theorem unit?_hexPadded {n : Nat} (h : n < 0x10000) (rest : List Char) :
    unit? (hexPadded 4 n ++ rest) = some n := by
  have digit : ∀ k,
      isHexDigit (hexDigitChar (k % 16)) ∧ hexValue (hexDigitChar (k % 16)) = k % 16 :=
    fun k => hexDigitChar_spec (Nat.mod_lt k (by decide))
  simp only [hexPadded, List.nil_append, List.cons_append, unit?, hexNat, List.foldl_cons,
    List.foldl_nil, List.all_cons, List.all_nil, digit, Bool.and_self, if_true]
  refine congrArg some ?_
  omega

theorem length_hexPadded (width n : Nat) : (hexPadded width n).length = width := by
  induction width generalizing n with
  | zero => rfl
  | succ width ih => simp [hexPadded, ih]

theorem readString_unitEscape {n : Nat} (h : n < 0x10000) (single : ¬ (0xD800 ≤ n ∧ n ≤ 0xDBFF))
    (seen rest : List Char) :
    readString seen (unitEscape n ++ rest) = readString (charOfCode n :: seen) rest := by
  have tail : (hexPadded 4 n ++ rest).drop 4 = rest := by
    rw [List.drop_left' (length_hexPadded 4 n)]
  rw [unitEscape, List.cons_append, List.cons_append, readString, unit?_hexPadded h]
  simp only [tail, if_neg single]
  split <;> rfl

theorem readString_pair {high low : Nat} (hhigh : 0xD800 ≤ high ∧ high ≤ 0xDBFF)
    (hlow : 0xDC00 ≤ low ∧ low ≤ 0xDFFF) (seen rest : List Char) :
    readString seen (unitEscape high ++ unitEscape low ++ rest) =
      readString (charOfCode (0x10000 + 0x400 * (high - 0xD800) + (low - 0xDC00)) :: seen)
        rest := by
  have tail : (hexPadded 4 high ++ (unitEscape low ++ rest)).drop 4 = unitEscape low ++ rest := by
    rw [List.drop_left' (length_hexPadded 4 high)]
  have next : (hexPadded 4 high ++ (unitEscape low ++ rest)).drop 10 = rest := by
    rw [show 10 = 4 + 6 from rfl, ← List.drop_drop, tail, List.drop_left']
    simp [unitEscape, length_hexPadded]
  have half : lowHalf? (unitEscape low ++ rest) = some low := by
    simp [unitEscape, lowHalf?, unit?_hexPadded (show low < 0x10000 by omega), hlow]
  rw [List.append_assoc, unitEscape, List.cons_append, List.cons_append, readString,
    unit?_hexPadded (by omega)]
  simp only [tail, half, if_pos hhigh, next]

theorem readString_short {c d : Char} (h : shortEscape? c = some d) (seen rest : List Char) :
    readString seen (['\\', c] ++ rest) = readString (d :: seen) rest := by
  have noUnit : c = 'u' → False := by
    rintro rfl
    cases h
  rw [List.cons_append, List.singleton_append, readString.eq_4 _ _ _ noUnit, h]

/-- The reader takes one printed character at a time. -/
theorem readString_stringChar (c : Char) (seen rest : List Char) :
    readString seen (stringChar c ++ rest) = readString (c :: seen) rest := by
  have code := charOfCode_toNat c
  have valid := c.valid
  have same : c.val.toNat = c.toNat := rfl
  simp only [UInt32.isValidChar, Nat.isValidChar, same] at valid
  simp only [stringChar]
  split
  · next quote => subst quote; exact readString_short rfl seen rest
  split
  · next backslash => subst backslash; exact readString_short rfl seen rest
  split
  · next feed => subst feed; exact readString_short rfl seen rest
  split
  · next ret => subst ret; exact readString_short rfl seen rest
  split
  · next tab => subst tab; exact readString_short rfl seen rest
  split
  · next back =>
    rw [back] at code
    exact readString_short (d := c) (by rw [← code]; rfl) seen rest
  split
  · next form =>
    rw [form] at code
    exact readString_short (d := c) (by rw [← code]; rfl) seen rest
  next noQuote noBackslash _ _ _ _ _ =>
  split
  · next printed =>
    rw [List.singleton_append, readString.eq_5 _ _ _ noQuote (fun _ h _ => noBackslash h)
      (fun _ _ h _ => noBackslash h), if_neg noBackslash, if_neg (by omega)]
  split
  · next basic => rw [readString_unitEscape basic (by omega), code]
  · next basic _ =>
    have value : 0x10000 + 0x400 * (0xD800 + (c.toNat - 0x10000) / 0x400 - 0xD800) +
        (0xDC00 + (c.toNat - 0x10000) % 0x400 - 0xDC00) = c.toNat := by omega
    rw [readString_pair (by omega) (by omega), value, code]

/-- **The reader undoes the printer of strings**, whatever stands after the closing quote. -/
theorem readString_flatMap_stringChar (cs seen rest : List Char) :
    readString seen (cs.flatMap stringChar ++ '"' :: rest) =
      .ok (.ofList (seen.reverse ++ cs), rest) := by
  induction cs generalizing seen with
  | nil => simp [readString]
  | cons c cs ih =>
    rw [List.flatMap_cons, List.append_assoc, readString_stringChar, ih]
    simp

theorem toList_stringText (s : String) :
    (stringText s).toList = '"' :: (s.toList.flatMap stringChar ++ ['"']) := by
  simp [stringText]

/-- No printed string is the start of another. -/
theorem stringText_append_inj {s t : String} {rest tail : List Char}
    (h : (stringText s).toList ++ rest = (stringText t).toList ++ tail) : s = t := by
  rw [toList_stringText, toList_stringText] at h
  simp only [List.cons_append, List.append_assoc, List.cons.injEq, true_and] at h
  have read := readString_flatMap_stringChar s.toList [] rest
  rw [List.nil_append] at h
  rw [h, readString_flatMap_stringChar] at read
  simpa using (congrArg Prod.fst (Except.ok.inj read)).symm

theorem stringText_injective {s t : String} (h : stringText s = stringText t) : s = t :=
  stringText_append_inj (show (stringText s).toList ++ [] = (stringText t).toList ++ [] by rw [h])

end Strings

section Lists

/-- No text of a family is the start of another text of it. -/
def PrefixFree (family : List Char → Prop) : Prop :=
  ∀ ⦃a b : List Char⦄, family a → family b → ∀ {rest tail : List Char},
    a ++ rest = b ++ tail → a = b

theorem intercalate_cons (mark : Char) (x : List Char) (xs : List (List Char)) :
    [mark].intercalate (x :: xs) = x ++ xs.flatMap (mark :: ·) := by
  induction xs generalizing x with
  | nil => simp
  | cons y ys ih => rw [List.intercalate_cons_cons, ih]; simp

variable {family : List Char → Prop} {mark closing : Char}

theorem flatMap_cons_inj (free : PrefixFree family) (different : closing ≠ mark)
    {xs ys : List (List Char)} (hxs : ∀ x ∈ xs, family x) (hys : ∀ y ∈ ys, family y)
    {rest tail : List Char}
    (h : xs.flatMap (mark :: ·) ++ closing :: rest = ys.flatMap (mark :: ·) ++ closing :: tail) :
    xs = ys := by
  induction xs generalizing ys with
  | nil =>
    cases ys with
    | nil => rfl
    | cons y ys => exact absurd (List.cons.inj h).1 different
  | cons x xs ih =>
    cases ys with
    | nil => exact absurd (List.cons.inj h).1.symm different
    | cons y ys =>
      simp only [List.flatMap_cons, List.cons_append, List.append_assoc, List.cons.injEq,
        true_and] at h
      obtain rfl := free (hxs x List.mem_cons_self) (hys y List.mem_cons_self) h
      rw [ih (fun z hz => hxs z (List.mem_cons_of_mem _ hz))
        (fun z hz => hys z (List.mem_cons_of_mem _ hz)) (List.append_cancel_left h)]

/-- Texts of a prefix-free family that do not start with the closing mark can be told apart from
their list with marks between them. -/
theorem intercalate_inj (free : PrefixFree family) (different : closing ≠ mark)
    (open_ : ∀ a, family a → ∃ c cs, a = c :: cs ∧ c ≠ closing) {xs ys : List (List Char)}
    (hxs : ∀ x ∈ xs, family x) (hys : ∀ y ∈ ys, family y) {rest tail : List Char}
    (h : [mark].intercalate xs ++ closing :: rest = [mark].intercalate ys ++ closing :: tail) :
    xs = ys := by
  have starts : ∀ {x : List Char} {more left right : List Char}, family x →
      x ++ more ++ left ≠ closing :: right := by
    rintro x more left right hx same
    obtain ⟨c, cs, rfl, other⟩ := open_ x hx
    exact other (List.cons.inj same).1
  cases xs with
  | nil =>
    cases ys with
    | nil => rfl
    | cons y ys =>
      rw [intercalate_cons] at h
      exact absurd h.symm (starts (hys y List.mem_cons_self))
  | cons x xs =>
    cases ys with
    | nil =>
      rw [intercalate_cons] at h
      exact absurd h (starts (hxs x List.mem_cons_self))
    | cons y ys =>
      rw [intercalate_cons, intercalate_cons, List.append_assoc, List.append_assoc] at h
      obtain rfl := free (hxs x List.mem_cons_self) (hys y List.mem_cons_self) h
      rw [flatMap_cons_inj free different (fun z hz => hxs z (List.mem_cons_of_mem _ hz))
        (fun z hz => hys z (List.mem_cons_of_mem _ hz)) (List.append_cancel_left h)]

end Lists

section Values

/-- The printed form of a text, as characters. -/
def IsStringText (a : List Char) : Prop := ∃ s, a = (stringText s).toList

theorem prefixFree_isStringText : PrefixFree IsStringText := by
  rintro _ _ ⟨s, rfl⟩ ⟨t, rfl⟩ rest tail h
  rw [stringText_append_inj h]

theorem IsStringText.exists_cons {a : List Char} (h : IsStringText a) : ∃ cs, a = '"' :: cs := by
  obtain ⟨s, rfl⟩ := h
  exact ⟨_, toList_stringText s⟩

theorem printItems_strings (items : List String) :
    printItems sortFields (items.map string) = items.map stringText := by
  induction items with
  | nil => rfl
  | cons s items ih => simp [printItems, printWith, ih]

theorem toList_canonical_strings (items : List String) :
    (canonical (strings items)).toList =
      '[' :: ([','].intercalate (items.map fun s => (stringText s).toList) ++ [']']) := by
  simp [canonical, strings, printWith, printItems_strings, String.toList_intercalate,
    Function.comp_def]

/-- The compact text of a list of texts determines the list. -/
theorem canonical_strings_inj {xs ys : List String}
    (h : canonical (strings xs) = canonical (strings ys)) : xs = ys := by
  have texts := congrArg String.toList h
  rw [toList_canonical_strings, toList_canonical_strings, List.cons.injEq] at texts
  have member : ∀ zs : List String, ∀ a ∈ zs.map fun s => (stringText s).toList,
      IsStringText a := by
    intro zs a ha
    obtain ⟨s, _, rfl⟩ := List.mem_map.1 ha
    exact ⟨s, rfl⟩
  have open_ : ∀ a, IsStringText a → ∃ c cs, a = c :: cs ∧ c ≠ ']' := by
    intro a ha
    obtain ⟨cs, rfl⟩ := ha.exists_cons
    exact ⟨'"', cs, rfl, by decide⟩
  have same := intercalate_inj prefixFree_isStringText (by decide) open_ (member xs) (member ys)
    texts.2
  refine (List.map_inj_right ?_).1 same
  intro s t hst
  exact stringText_injective (String.toList_inj.1 hst)

/-- A text, a truth value or the missing value. -/
def IsAtom : Json → Prop
  | null | bool _ | string _ => True
  | _ => False

@[simp] theorem canonical_string (s : String) : canonical (string s) = stringText s := by
  simp [canonical, printWith]

/-- The text of an atom ends where it must. -/
theorem atom_append_inj {v w : Json} (hv : IsAtom v) (hw : IsAtom w) {rest tail : List Char}
    (h : (canonical v).toList ++ rest = (canonical w).toList ++ tail) : v = w := by
  have word : (canonical null).toList = "null".toList ∧
      ∀ b, (canonical (bool b)).toList = (if b then "true" else "false").toList := by
    simp [canonical, printWith]
  -- the first character tells the kinds apart, and the two truth values
  rcases v with _ | a | _ | s | _ | _
  all_goals rcases w with _ | b | _ | t | _ | _
  all_goals first | exact absurd hv id | exact absurd hw id | rfl | skip
  case bool.bool => cases a <;> cases b <;> simp [word] at h <;> rfl
  case string.string =>
    rw [canonical_string, canonical_string] at h
    rw [stringText_append_inj h]
  case null.bool => cases b <;> simp [word] at h
  case null.string => simp [word, toList_stringText] at h
  case bool.null => cases a <;> simp [word] at h
  case bool.string => cases a <;> simp [word, toList_stringText] at h
  case string.null => simp [word, toList_stringText] at h
  case string.bool => cases b <;> simp [word, toList_stringText] at h

/-- The text of a field with an atom. -/
def fieldText (name : String) (v : Json) : List Char :=
  (stringText name).toList ++ ':' :: (canonical v).toList

/-- The text of a field of an object of atoms, as characters. -/
def IsFieldText (a : List Char) : Prop := ∃ name v, IsAtom v ∧ a = fieldText name v

theorem fieldText_append_inj {name other : String} {v w : Json} (hv : IsAtom v) (hw : IsAtom w)
    {rest tail : List Char} (h : fieldText name v ++ rest = fieldText other w ++ tail) :
    name = other ∧ v = w := by
  simp only [fieldText, List.append_assoc, List.cons_append] at h
  obtain rfl := stringText_append_inj h
  exact ⟨rfl, atom_append_inj hv hw (List.cons.inj (List.append_cancel_left h)).2⟩

theorem prefixFree_isFieldText : PrefixFree IsFieldText := by
  rintro _ _ ⟨name, v, hv, rfl⟩ ⟨other, w, hw, rfl⟩ rest tail h
  obtain ⟨rfl, rfl⟩ := fieldText_append_inj hv hw h
  rfl

theorem printFields_eq (fields : List (String × Json)) :
    printFields sortFields fields = fields.map fun entry => (entry.1, canonical entry.2) := by
  induction fields with
  | nil => rfl
  | cons entry fields ih => rw [printFields, ih]; rfl

/-- The printed fields of an object, in the order of their names. -/
def sortedFields (fields : List (String × Json)) : List (String × String) :=
  sortFields (fields.map fun entry => (entry.1, canonical entry.2))

theorem mem_sortedFields {fields : List (String × Json)} {printed : String × String} :
    printed ∈ sortedFields fields ↔ ∃ entry ∈ fields, (entry.1, canonical entry.2) = printed := by
  rw [sortedFields, sortFields, List.mem_mergeSort, List.mem_map]

theorem toList_canonical_object (fields : List (String × Json)) :
    (canonical (object fields)).toList =
      '\x7b' :: ([','].intercalate ((sortedFields fields).map fun entry =>
        (stringText entry.1).toList ++ ':' :: entry.2.toList) ++ ['\x7d']) := by
  simp [canonical, printWith, printFields_eq, objectText, sortedFields, String.toList_intercalate,
    Function.comp_def]

/-- The compact text of an object of atoms determines its fields. -/
theorem mem_fields_of_canonical_eq {fields others : List (String × Json)}
    (hfields : ∀ entry ∈ fields, IsAtom entry.2) (hothers : ∀ entry ∈ others, IsAtom entry.2)
    (h : canonical (object fields) = canonical (object others)) {entry : String × Json}
    (mem : entry ∈ fields) : entry ∈ others := by
  have texts := congrArg String.toList h
  rw [toList_canonical_object, toList_canonical_object, List.cons.injEq] at texts
  have member : ∀ items : List (String × Json), (∀ entry ∈ items, IsAtom entry.2) →
      ∀ a ∈ (sortedFields items).map fun entry =>
        (stringText entry.1).toList ++ ':' :: entry.2.toList, IsFieldText a := by
    intro items atoms a ha
    obtain ⟨printed, hprinted, rfl⟩ := List.mem_map.1 ha
    obtain ⟨entry, mem, rfl⟩ := mem_sortedFields.1 hprinted
    exact ⟨entry.1, entry.2, atoms entry mem, rfl⟩
  have open_ : ∀ a, IsFieldText a → ∃ c cs, a = c :: cs ∧ c ≠ '\x7d' := by
    rintro _ ⟨name, v, _, rfl⟩
    exact ⟨'"', _, by rw [fieldText, toList_stringText, List.cons_append], by decide⟩
  -- both lists of printed fields are sorted, so they are the same list
  have same := intercalate_inj prefixFree_isFieldText (by decide) open_ (member _ hfields)
    (member _ hothers) texts.2
  have printed : fieldText entry.1 entry.2 ∈ (sortedFields others).map fun entry =>
      (stringText entry.1).toList ++ ':' :: entry.2.toList := by
    rw [← same]
    exact List.mem_map.2 ⟨_, mem_sortedFields.2 ⟨entry, mem, rfl⟩, rfl⟩
  obtain ⟨_, hprinted, equal⟩ := List.mem_map.1 printed
  obtain ⟨other, hother, rfl⟩ := mem_sortedFields.1 hprinted
  have whole : fieldText other.1 other.2 ++ [] = fieldText entry.1 entry.2 ++ [] := by
    rw [← equal]
    rfl
  have parts := fieldText_append_inj (hothers other hother) (hfields entry mem) whole
  rwa [← Prod.ext parts.1 parts.2]

end Values

section Printed

/-- No character of a text is a control character. -/
def IsPrinted (cs : List Char) : Prop := ∀ c ∈ cs, 32 ≤ c.toNat

theorem isPrinted_nil : IsPrinted [] := by simp [IsPrinted]

theorem isPrinted_cons {c : Char} {cs : List Char} :
    IsPrinted (c :: cs) ↔ 32 ≤ c.toNat ∧ IsPrinted cs := by
  simp [IsPrinted]

theorem isPrinted_append {xs ys : List Char} :
    IsPrinted (xs ++ ys) ↔ IsPrinted xs ∧ IsPrinted ys := by
  simp only [IsPrinted, List.mem_append]
  exact ⟨fun h => ⟨fun c hc => h c (.inl hc), fun c hc => h c (.inr hc)⟩,
    fun h c hc => hc.elim (h.1 c) (h.2 c)⟩

theorem IsPrinted.flatMap {α : Type} {items : List α} {f : α → List Char}
    (h : ∀ item ∈ items, IsPrinted (f item)) : IsPrinted (items.flatMap f) := by
  intro c hc
  obtain ⟨item, mem, hc⟩ := List.mem_flatMap.1 hc
  exact h item mem c hc

theorem isPrinted_intercalate {xs : List (List Char)} (h : ∀ x ∈ xs, IsPrinted x) :
    IsPrinted ([','].intercalate xs) := by
  cases xs with
  | nil => exact isPrinted_nil
  | cons x xs =>
    rw [intercalate_cons, isPrinted_append]
    exact ⟨h x List.mem_cons_self, .flatMap fun y hy =>
      isPrinted_cons.2 ⟨by decide, h y (List.mem_cons_of_mem _ hy)⟩⟩

theorem isPrinted_unitEscape (n : Nat) : IsPrinted (unitEscape n) := by
  have digit : ∀ k < 16, 32 ≤ (hexDigitChar k).toNat := by decide
  have each : ∀ k, 32 ≤ (hexDigitChar (k % 16)).toNat :=
    fun k => digit _ (Nat.mod_lt k (by decide))
  simp [unitEscape, hexPadded, isPrinted_cons, isPrinted_nil, each]

theorem isPrinted_stringChar (c : Char) : IsPrinted (stringChar c) := by
  simp only [stringChar]
  repeat' split
  all_goals
    first
    | exact isPrinted_unitEscape _
    | exact isPrinted_append.2 ⟨isPrinted_unitEscape _, isPrinted_unitEscape _⟩
    | simp [isPrinted_cons, isPrinted_nil]
  next printed => exact printed.1

theorem isPrinted_stringText (s : String) : IsPrinted (stringText s).toList := by
  rw [toList_stringText, isPrinted_cons, isPrinted_append]
  exact ⟨by decide, .flatMap fun c _ => isPrinted_stringChar c, by simp [IsPrinted]⟩

theorem isPrinted_atom {v : Json} (h : IsAtom v) : IsPrinted (canonical v).toList := by
  rcases v with _ | (_ | _) | _ | s | _ | _
  case string =>
    rw [canonical_string]
    exact isPrinted_stringText s
  all_goals first | exact absurd h id | simp [canonical, printWith, IsPrinted]

/-- No text of a list of texts holds a control character. -/
theorem isPrinted_canonical_strings (items : List String) :
    IsPrinted (canonical (strings items)).toList := by
  rw [toList_canonical_strings, isPrinted_cons, isPrinted_append]
  refine ⟨by decide, isPrinted_intercalate ?_, by simp [IsPrinted]⟩
  intro x hx
  obtain ⟨s, _, rfl⟩ := List.mem_map.1 hx
  exact isPrinted_stringText s

/-- No text of an object of atoms holds a control character. -/
theorem isPrinted_canonical_object {fields : List (String × Json)}
    (h : ∀ entry ∈ fields, IsAtom entry.2) : IsPrinted (canonical (object fields)).toList := by
  rw [toList_canonical_object, isPrinted_cons, isPrinted_append]
  refine ⟨by decide, isPrinted_intercalate ?_, by simp [IsPrinted]⟩
  intro x hx
  obtain ⟨printed, hprinted, rfl⟩ := List.mem_map.1 hx
  obtain ⟨entry, mem, rfl⟩ := mem_sortedFields.1 hprinted
  exact isPrinted_append.2 ⟨isPrinted_stringText _,
    isPrinted_cons.2 ⟨by decide, isPrinted_atom (h entry mem)⟩⟩

end Printed

end BracketCss.Json
