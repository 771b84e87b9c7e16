import BracketCss.Proofs.Value.Math.Callee
import BracketCss.Proofs.Value.Shadow

/-!
# Functions within functions

Transformations and filters are calls whose arguments may hold further calls: arithmetic
expressions, the lengths of a shadow, its colour and the references within that colour. Whichever
check an argument passes, the functions called in it are arithmetic functions or colour functions,
so that the list of functions of the property holds at every depth.

## Main definitions

* `nestedFunctions`: the functions that arguments may call

## Main results

* `callsOnly_of_isColor`: colours
* `callsOnly_of_checkSignature`, `callsOnly_of_checkShadow`: the arguments of a function
* `mayBeCalled_of_validateValue`: the functions that an accepted value calls
-/

namespace BracketCss

open Text

/-- The functions that the arguments of a function may call. -/
def nestedFunctions : List String := mathFunctions ++ colorFunctionNames

theorem mathFunctions_subset : mathFunctions ⊆ nestedFunctions :=
  List.subset_append_left _ _

theorem colorFunctionNames_subset : colorFunctionNames ⊆ nestedFunctions :=
  List.subset_append_right _ _

section Arguments

variable {functions : List String} {cs w : List Char}

/-! ## Words and calls -/

theorem IsDull.callsOnly (h : IsDull w) : CallsOnly functions w := by
  have plain : ∀ {body : List Char}, (∀ c ∈ body, isDullChar c) → ∀ c ∈ body, c ≠ '(' :=
    fun dull c mem => ((isDullChar_iff c).1 (dull c mem)).2.2.1
  obtain ⟨-, body, dull, rfl | rfl⟩ := h
  · exact callsFrom_of_forall_ne _ (plain dull)
  · exact callsFrom_of_forall_ne _ (List.forall_mem_append.2 ⟨plain dull, by decide⟩)

theorem isNameChar_of_isIdentifier (h : isIdentifier w) : ∀ c ∈ w, isNameChar c := by
  have name : ∀ {c : Char} {rest : List Char},
      ((isAsciiLetter c || c == '_') && rest.all isNameChar) = true →
        ∀ d ∈ c :: rest, isNameChar d := by
    intro c rest starts
    rw [Bool.and_eq_true, List.all_eq_true] at starts
    exact IsName.forall ⟨c, rest, rfl, starts⟩
  unfold isIdentifier at h
  cases w with
  | nil => cases h
  | cons c rest =>
    by_cases hyphen : c = '-'
    · subst hyphen
      cases rest with
      | nil => cases h
      | cons d rest => exact List.forall_mem_cons.2 ⟨rfl, name h⟩
    · split at h
      · next same => exact absurd (List.cons.inj same).1 hyphen
      · exact name h

theorem callsOnly_of_isIdentifier (h : isIdentifier w) : CallsOnly functions w := by
  refine callsFrom_of_forall_ne _ fun c mem => ?_
  rintro rfl
  exact absurd (isNameChar_of_isIdentifier h _ mem) (by decide)

/-- A call of an allowed function, of which the arguments call allowed functions only. -/
theorem callsOnly_of_call? {call : Scan.Call} (trimmed : trim w = w)
    (found : Scan.call? w = some call) (known : call.name ∈ functions)
    (inner : CallsOnly functions call.arguments) : CallsOnly functions w := by
  obtain ⟨name, same, named, ⟨c, first, letter⟩, chars, -⟩ := Scan.exists_of_call? found trimmed
  obtain ⟨rest, rfl⟩ := List.head?_eq_some_iff.1 first
  have isName : IsName (c :: rest) := by
    refine ⟨c, rest, rfl, by simp [startsName, letter], fun d mem => ?_⟩
    exact isNameChar_of_isAsciiNameChar (chars d (List.mem_cons_of_mem _ mem))
  have plain : ∀ d ∈ c :: rest, d ≠ '(' := by
    intro d mem
    rintro rfl
    exact absurd (chars _ mem) (by decide)
  rw [named] at known
  rw [same, CallsOnly, callsFrom_call_iff, NameState.run_outside false isName]
  exact ⟨callsFrom_of_forall_ne _ plain, known, inner⟩

/-! ## Colours -/

/-- What is on the right of a relation of two lists is related to something on the left. -/
theorem exists_of_forall₂ {α β : Type} {r : α → β → Prop} {as : List α} {bs : List β}
    (h : List.Forall₂ r as bs) {b : β} (mem : b ∈ bs) : ∃ a ∈ as, r a b := by
  induction h with
  | nil => cases mem
  | cons here _ ih =>
    rcases List.mem_cons.1 mem with rfl | mem
    · exact ⟨_, List.mem_cons_self, here⟩
    · obtain ⟨a, listed, related⟩ := ih mem
      exact ⟨a, List.mem_cons_of_mem _ listed, related⟩

/-- Only a letter and its capital have the same case class as a letter of `var`. -/
theorem lowerChar_of_caseKey {c : Char} (mem : caseKey c ∈ "var".toList) :
    lowerChar c = [caseKey c] ∧ isAsciiLetter c := by
  have table : ∀ d ∈ "var".toList, d ≠ 's' ∧ d ≠ 'k' ∧ d ≠ 'i' ∧ lowerChar d = [d] ∧
      isAsciiLetter d := by decide
  obtain ⟨notS, notK, notI, low, letter⟩ := table _ mem
  unfold caseKey at notS notK notI low letter ⊢
  by_cases upper : 'A' ≤ c ∧ c ≤ 'Z'
  · rw [if_pos upper, lowerChar, if_pos upper]
    exact ⟨rfl, by simp [isAsciiLetter, upper]⟩
  · simp only [if_neg upper] at notS notK notI low letter ⊢
    split
    · next long => exact absurd (if_pos long) notS
    · next short =>
      simp only [if_neg short] at notK notI low letter
      split
      · next kelvin => exact absurd (if_pos kelvin) notK
      · next other =>
        simp only [if_neg other] at notI low letter
        split
        · next dotted => exact absurd (if_pos dotted) notI
        · next plain =>
          simp only [if_neg plain] at low letter
          exact ⟨low, letter⟩

/-- A reference is a call of `var` without a call in it. -/
theorem IsReference.callsOnly (nested : nestedFunctions ⊆ functions) (h : IsReference cs) :
    CallsOnly functions cs := by
  obtain ⟨called, body, rfl, spelled, lead, name, trail, fallback, rfl, leadBlank, property,
    trailBlank, last⟩ := h
  have letters : ∀ c ∈ called, lowerChar c = [caseKey c] ∧ isAsciiLetter c := fun c mem =>
    lowerChar_of_caseKey (spelled ▸ List.mem_map_of_mem mem)
  have low : lower called = "var".toList := by
    rw [← spelled, List.map_eq_flatMap, lower]
    exact List.flatMap_congr fun c mem => (letters c mem).1
  have isName : IsName called := by
    obtain ⟨c, rest, rfl⟩ : ∃ c rest, called = c :: rest := by
      cases called with
      | nil => cases spelled
      | cons c rest => exact ⟨c, rest, rfl⟩
    have starts : ∀ d ∈ c :: rest, startsName d := fun d mem => by
      simp [startsName, (letters d mem).2]
    exact ⟨c, rest, rfl, starts c List.mem_cons_self, fun d mem =>
      isNameChar_of_startsName (starts d (List.mem_cons_of_mem _ mem))⟩
  have noCall : ∀ {text : List Char}, (∀ c ∈ text, isNameChar c) → ∀ c ∈ text, c ≠ '(' := by
    intro text chars c mem
    rintro rfl
    exact absurd (chars _ mem) (by decide)
  rw [CallsOnly, callsFrom_call_iff, NameState.run_outside false isName]
  refine ⟨callsFrom_of_forall_ne _ (noCall isName.forall), ?_, callsFrom_of_forall_ne _ ?_⟩
  · rw [NameState.Allows, MayBeCalled, if_neg Bool.false_ne_true, low]
    exact nested (by decide)
  · have blanks : ∀ {text : List Char}, (∀ c ∈ text, isBlank c) → ∀ c ∈ text, c ≠ '(' :=
      fun blank c mem => (not_isNameChar_of_isBlank (blank c mem)).2
    refine List.forall_mem_append.2 ⟨blanks leadBlank, List.forall_mem_append.2
      ⟨noCall (isNameChar_of_isCustomProperty property).2, List.forall_mem_append.2
        ⟨blanks trailBlank, ?_⟩⟩⟩
    rcases last with rfl | ⟨text, rfl, plain⟩
    · exact List.forall_mem_nil _
    · exact List.forall_mem_cons.2 ⟨by decide, fun c mem => (plain c mem).1⟩

theorem ColorPlace.Takes.callsOnly (nested : nestedFunctions ⊆ functions) {place : ColorPlace}
    (trimmed : trim cs = cs) (h : place.Takes cs) : CallsOnly functions cs := by
  rcases h with reference | ⟨value, unit, quantity, -⟩
  · exact reference.callsOnly nested
  · rw [← trimmed] at quantity
    obtain ⟨d, read, -⟩ := Dimension.exists_ofChars?_iff.2 quantity
    exact (isDull_of_ofChars? trimmed read).1.callsOnly

/-- The arguments of an accepted colour function. -/
theorem callsOnly_of_checkColorCall (nested : nestedFunctions ⊆ functions) {name : String}
    (known : name ∈ colorFunctionNames) (ok : checkColorCall name cs = .ok ()) :
    CallsOnly functions cs := by
  obtain ⟨split, between, channels_, alpha_⟩ := (checkColorCall_eq_ok_iff known).1 ok
  obtain ⟨trimmedChannels, trimmedAlpha⟩ := between.elim (·.trimmed) (·.trimmed)
  have channels : ∀ text ∈ split.channels, CallsOnly functions text := by
    intro text mem
    obtain ⟨place, -, takes⟩ := exists_of_forall₂ channels_ mem
    exact takes.callsOnly nested (trimmedChannels text mem)
  have alpha : ∀ text ∈ split.alpha.toList, CallsOnly functions text := by
    intro text mem
    have given := Option.mem_toList.1 mem
    exact (alpha_ text given).callsOnly nested (trimmedAlpha text given)
  rcases between with ⟨segments, cuts, -, same, -⟩ |
    ⟨-, front, rest, words, cuts, same, -, wordCuts, three⟩
  · refine .of_cutsInto (fun c comma => ?_) cuts (List.forall_mem_map.1 ?_)
    · rw [eq_of_beq comma]
      decide
    · rw [same]
      exact List.forall_mem_append.2 ⟨channels, alpha⟩
  · refine .of_cutsInto (fun c slash => ?_) cuts (List.forall_mem_cons.2 ⟨?_, ?_⟩)
    · rw [eq_of_beq slash]
      decide
    · refine .of_cutsInto (fun c blank => (not_isNameChar_of_isBlank blank).1) wordCuts ?_
      intro word mem
      by_cases empty : trim word = []
      · rw [empty]
        trivial
      · refine channels _ ?_
        rw [← three]
        exact List.mem_filter.2 ⟨List.mem_map_of_mem mem, by simpa using empty⟩
    · rw [← same, List.forall_mem_map] at alpha
      exact alpha

/-- **Colours** call colour functions and `var`. -/
theorem callsOnly_of_isColor (nested : nestedFunctions ⊆ functions) (trimmed : trim w = w)
    (h : isColor w) : CallsOnly functions w := by
  rcases isColor_cases trimmed h with listed | ⟨digits, rfl, hex⟩ | ⟨call, found, known, ok⟩
  · exact (isPlainText_colorNames _ listed).isDull_of_fullLower.callsOnly
  · refine callsFrom_of_forall_ne _ (List.forall_mem_cons.2 ⟨by decide, fun c mem => ?_⟩)
    exact ((isDullChar_iff c).1 (isDullChar_of_isHexDigit (hex c mem))).2.2.1
  · exact callsOnly_of_call? trimmed found (nested (colorFunctionNames_subset known))
      (callsOnly_of_checkColorCall nested known ok)

/-! ## Arguments -/

theorem callsOnly_of_checkSignatureArgument (nested : nestedFunctions ⊆ functions)
    (trimmed : trim cs = cs) {signature : Signature}
    (ok : checkSignatureArgument signature cs = .ok ()) : CallsOnly functions cs := by
  simp only [checkSignatureArgument] at ok
  split at ok
  · exact callsOnly_of_checkMath (fun _ mem => nested (mathFunctions_subset mem))
      (mapError_eq_ok_iff.1 ok)
  · split at ok
    · split at ok
      · next name => exact callsOnly_of_isIdentifier name
      · cases ok
    · split at ok
      · cases ok
      · next d read => exact (isDull_of_ofChars? trimmed read).1.callsOnly

theorem callsOnly_of_checkSignatureArguments (nested : nestedFunctions ⊆ functions)
    {signature : Signature} {arguments : List (List Char)}
    (trimmed : ∀ argument ∈ arguments, trim argument = argument)
    (ok : checkSignatureArguments signature arguments = .ok ()) :
    ∀ argument ∈ arguments, CallsOnly functions argument := by
  induction arguments with
  | nil => exact List.forall_mem_nil _
  | cons argument rest ih =>
    obtain ⟨here, behind⟩ := List.forall_mem_cons.1 trimmed
    cases argument with
    | nil => cases ok
    | cons c argument =>
      obtain ⟨first, others⟩ := bind_unit_eq_ok_iff.1 ok
      exact List.forall_mem_cons.2
        ⟨callsOnly_of_checkSignatureArgument nested here first, ih behind others⟩

/-- The arguments of a function with a signature. -/
theorem callsOnly_of_checkSignature (nested : nestedFunctions ⊆ functions) {signature : Signature}
    (ok : checkSignature signature cs = .ok ()) : CallsOnly functions cs := by
  by_cases empty : trim cs = []
  · refine callsOnly_trim_iff.1 ?_
    rw [empty]
    trivial
  · simp only [checkSignature, if_neg empty] at ok
    split at ok
    · cases ok
    · refine .of_parts (fun c comma => ?_) (callsOnly_of_checkSignatureArguments nested
        (fun _ mem => (Scan.of_mem_parts mem).2) ok)
      rw [eq_of_beq comma]
      decide

/-- The lengths, the colour and the `inset` of a shadow. -/
theorem callsOnly_of_checkShadow (nested : nestedFunctions ⊆ functions) {least greatest : Int}
    (ok : checkShadow least greatest cs = .ok ()) : CallsOnly functions cs := by
  obtain ⟨-, -, lengths⟩ := checkShadow_eq_ok_iff_lengths.1 ok
  refine .of_topWords fun word mem => ?_
  have trimmed := (Scan.of_mem_topWords mem).2
  rcases (atOneEnd_dropInset _).mem mem with inner | inset
  · rcases (atOneEnd_dropColor _).mem inner with length | color
    · obtain ⟨index, found⟩ := List.mem_iff_getElem?.1 length
      rcases lengths index word found with ⟨-, -, -, math⟩ | ⟨value, unit, quantity, -⟩
      · exact callsOnly_of_checkMath (fun _ mem => nested (mathFunctions_subset mem)) math
      · rw [← trimmed] at quantity
        obtain ⟨d, read, -⟩ := Dimension.exists_ofChars?_iff.2 quantity
        exact (isDull_of_ofChars? trimmed read).1.callsOnly
    · exact callsOnly_of_isColor nested trimmed color
  · have name : String.ofList (fullLower word) = "inset" := by
      rw [(fullLower_eq_iff (by decide) word).2 (eq_of_beq inset), String.ofList_toList]
    have plain := isPlainText_names "inset" List.mem_cons_self
    rw [← name] at plain
    exact plain.isDull_of_fullLower.callsOnly

/-! ## Transformations and filters -/

/-- A transformation or filter is a shadow, or a function with a signature. -/
theorem checkAllowedCall_cases {call : Scan.Call}
    (listed : call.name ∈ transformFunctions ++ filterFunctions)
    (ok : checkAllowedCall w call = .ok ()) :
    checkShadow 2 3 call.arguments = .ok () ∨
      ∃ signature, checkSignature signature call.arguments = .ok () := by
  have table : ∀ name ∈ transformFunctions ++ filterFunctions,
      name ∉ expressionFunctions ∧ name ∉ colorFunctionNames ∧ name ∉ gradientFunctions ∧
        (referenceChecks.lookup name).isNone ∧
        (name = "drop-shadow" ∨ (signatures.lookup name).isSome) := by
    decide +kernel
  obtain ⟨noExpression, noColor, noGradient, noReference, shadowOrSignature⟩ := table _ listed
  rw [checkAllowedCall, if_neg (mt List.contains_iff_mem.1 noExpression),
    if_neg (mt List.contains_iff_mem.1 noColor)] at ok
  by_cases shadow : call.name = "drop-shadow"
  · rw [if_pos (beq_iff_eq.2 shadow)] at ok
    exact .inl (mapError_eq_ok_iff.1 ok)
  · obtain ⟨signature, found⟩ :=
      Option.isSome_iff_exists.1 (shadowOrSignature.resolve_left shadow)
    rw [if_neg (mt beq_iff_eq.1 shadow), if_neg (mt List.contains_iff_mem.1 noGradient),
      Option.isNone_iff_eq_none.1 noReference, found] at ok
    exact .inr ⟨signature, mapError_eq_ok_iff.1 ok⟩

theorem isAllowed_some_iff {name : String} :
    isAllowed (some functions) name ↔ name ∈ safeFunctions ∧ name ∈ functions := by
  simp [isAllowed]

/-- What it takes to be an accepted call. -/
theorem checkFunction_eq_ok_iff {allowed : Option (List String)} :
    checkFunction allowed cs = .ok () ↔ ∃ call, Scan.call? (trim cs) = some call ∧
      isAllowed allowed call.name ∧ checkAllowedCall cs call = .ok () := by
  rw [checkFunction]
  cases Scan.call? (trim cs) with
  | none => simp
  | some call =>
    by_cases known : isAllowed allowed call.name
    · simp [known]
    · simp [known]

/-- A transformation or filter calls allowed functions at every depth. -/
theorem callsOnly_of_checkFunction (listed : functions ⊆ transformFunctions ++ filterFunctions)
    (trimmed : trim w = w) (ok : checkFunction (some functions) w = .ok ()) :
    CallsOnly (functions ++ nestedFunctions) w := by
  obtain ⟨call, found, known, ok⟩ := checkFunction_eq_ok_iff.1 ok
  rw [trimmed] at found
  obtain ⟨-, known⟩ := isAllowed_some_iff.1 known
  refine callsOnly_of_call? trimmed found (List.mem_append_left _ known) ?_
  have nested : nestedFunctions ⊆ functions ++ nestedFunctions := List.subset_append_right _ _
  rcases checkAllowedCall_cases (listed known) ok with shadow | ⟨signature, fine⟩
  · exact callsOnly_of_checkShadow nested shadow
  · exact callsOnly_of_checkSignature nested fine

end Arguments

/-! ## Values -/

section Values

variable {rule : PropertyRule} {property s value : String} {detail : Detail}

/-- Every word of a value is an accepted call. -/
theorem checkFunction_of_calledNames {words : List (List Char)} {names : List String}
    (some_ : rule.functions ≠ []) (h : calledNames rule words = .ok names) :
    ∀ w ∈ words, checkFunction (some rule.functions) w = .ok () := by
  induction words generalizing names with
  | nil => exact List.forall_mem_nil _
  | cons w words ih =>
    rw [calledNames] at h
    split at h
    · cases h
    · rw [if_neg (by simpa using some_)] at h
      cases checked : checkFunction (some rule.functions) w with
      | error fault => simp [checked] at h
      | ok =>
        cases others : calledNames rule words with
        | error refusal => simp [checked, others, Except.map] at h
        | ok rest => exact List.forall_mem_cons.2 ⟨checked, ih others⟩

/-- A reference that is the whole value is reported as one. -/
theorem not_function_of_reference {w : List Char} :
    validateFunction (some ["var"]) w ≠ .accepted value .function detail := by
  intro h
  simp only [validateFunction] at h
  split at h
  · cases h
  · next ok =>
    obtain ⟨call, found, known, -⟩ := checkFunction_eq_ok_iff.1 ok
    have name := List.mem_singleton.1 (isAllowed_some_iff.1 known).2
    simp [found, name] at h

/-- A value that is accepted as function calls consists of accepted calls. -/
theorem exists_calledNames_of_validateValue {table : PropertyTable}
    (known : table.rule? property = some rule) (calls : rule.kind = .function)
    (h : validateValue table property s = .accepted value .function detail) :
    ∃ names, calledNames rule (Scan.topWords (trim s.toList)) = .ok names := by
  obtain ⟨-, ⟨-, -, type⟩ | reference | ⟨unknown, -⟩ | ⟨other, again, accepted⟩⟩ :=
    validateValue_cases h
  · cases type
  · exact absurd reference not_function_of_reference
  · rw [known] at unknown
    cases unknown
  · obtain rfl := Option.some.inj (known.symm.trans again)
    simp only [validateKind, calls, validateCalls] at accepted
    split at accepted
    · next found =>
      simp only [keyword?] at found
      split at found
      · cases found
        cases accepted
      · cases found
    · split at accepted
      · next names called => exact ⟨names, called⟩
      · next refusal called =>
        subst accepted
        exact absurd called calledNames_ne_error

/-- **The functions that a transformation or filter calls**, at every depth: those of the property,
arithmetic functions and colour functions. A name directly behind a digit starts with the unit of
the number, and the function is what follows its last hyphen. -/
theorem mayBeCalled_of_validateValue (listed : property = "transform" ∨ property = "filter")
    (known : PropertyTable.standard.rule? property = some rule)
    (h : validateValue .standard property s = .accepted value .function detail)
    {front name rest : List Char} (text : s.toList = front ++ (name ++ '(' :: rest))
    (whole : IsWholeName front name) :
    MayBeCalled (rule.functions ++ nestedFunctions) (front.getLast?.any isDecimal) name := by
  obtain ⟨calls, some_, inTable⟩ : rule.kind = .function ∧ rule.functions ≠ [] ∧
      rule.functions ⊆ transformFunctions ++ filterFunctions := by
    rcases listed with rfl | rfl
    · have entry : PropertyTable.standard.rule? "transform" =
          some (.calls transformFunctions) := rfl
      obtain rfl := Option.some.inj (known.symm.trans entry)
      exact ⟨rfl, by decide, List.subset_append_left _ _⟩
    · have entry : PropertyTable.standard.rule? "filter" = some (.calls filterFunctions) := rfl
      obtain rfl := Option.some.inj (known.symm.trans entry)
      exact ⟨rfl, by decide, List.subset_append_right _ _⟩
  obtain ⟨names, called⟩ := exists_calledNames_of_validateValue known calls h
  have each := checkFunction_of_calledNames some_ called
  have whole_ : CallsOnly (rule.functions ++ nestedFunctions) s.toList := by
    refine callsOnly_trim_iff.1 (.of_topWords fun word mem => ?_)
    exact callsOnly_of_checkFunction inTable (Scan.of_mem_topWords mem).2 (each word mem)
  rw [text] at whole_
  exact whole_.mayBeCalled whole

/-- The name in front of a parenthesis starts with the unit of a number. -/
theorem mayBeCalled_of_validateValue_unit :
    validateValue .standard "transform" "translate(calc(1px-calc(2px)))" =
        .accepted "translate(calc(1px-calc(2px)))" .function (.functions ["translate"]) ∧
      "translate(calc(1px-calc(2px)))".toList =
        "translate(calc(1".toList ++ ("px-calc".toList ++ '(' :: "2px)))".toList) ∧
      IsWholeName "translate(calc(1".toList "px-calc".toList ∧
      MayBeCalled (transformFunctions ++ nestedFunctions) true "px-calc".toList := by
  have accepted : validateValue .standard "transform" "translate(calc(1px-calc(2px)))" =
      .accepted "translate(calc(1px-calc(2px)))" .function (.functions ["translate"]) := by
    decide +kernel
  have whole : IsWholeName "translate(calc(1".toList "px-calc".toList := by decide +kernel
  exact ⟨accepted, rfl, whole,
    mayBeCalled_of_validateValue (.inl rfl)
      (show PropertyTable.standard.rule? "transform" = some (.calls transformFunctions) from rfl)
      accepted rfl whole⟩

/-- That name itself is in no list of functions. -/
theorem unit_name_not_listed :
    validateValue .standard "transform" "translate(calc(1px-calc(2px)))" =
        .accepted "translate(calc(1px-calc(2px)))" .function (.functions ["translate"]) ∧
      "translate(calc(1px-calc(2px)))".toList =
        "translate(calc(1".toList ++ ("px-calc".toList ++ '(' :: "2px)))".toList) ∧
      IsWholeName "translate(calc(1".toList "px-calc".toList ∧
      String.ofList (lower "px-calc".toList) ∉ transformFunctions ++ nestedFunctions := by
  refine ⟨?_, rfl, ?_, ?_⟩
  · decide +kernel
  · decide +kernel
  · decide

end Values

end BracketCss
