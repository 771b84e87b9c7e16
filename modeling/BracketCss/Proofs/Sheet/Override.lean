import BracketCss.Proofs.Sheet.Options
import BracketCss.Proofs.Value.Verdict
import Mathlib.Data.List.Nodup

/-!
# Options that were changed

Options are changed by naming them, in either of their spellings. A change in the listed spelling
replaces the present value where it stands, one in the other spelling is read after all of them. So
the listed spellings come first, whatever their place among the changes, and only then does the last
mention of an option count.

## Main definitions

* `SheetOptions.value options option`: the value of an option, as it is listed
* `SheetOptions.lastGiven? changes option`: the value of the last pair that names an option
* `SheetOptions.overriddenBy options changes option`: that value, or else the present one
* `SheetOptions.listedFirst changes`: the changes with the listed spellings moved to the front

## Main results

* `Json.foldl_setField`: fields that are set one after another
* `SheetOptions.ofFields_eq_ok_iff`: what options are read from named values
* `SheetOptions.merge_eq_ok_iff`: what options are left after a change
* `SheetOptions.overriddenBy_listedFirst_iff`: when the place of a spelling does not matter
-/

namespace BracketCss

/-! ## Fields that are set one after another -/

/-- **Fields that are set one after another** have the new value where they stood, and those that
are new stand behind them. -/
theorem Json.foldl_setField {fields changes : List (String × Json)}
    (nodup : (changes.map (·.1)).Nodup) :
    changes.foldl (fun fields change => setField fields change.1 change.2) fields =
      fields.map (fun field => (field.1, (changes.lookup field.1).getD field.2)) ++
        changes.filter fun change => !fields.any (·.1 == change.1) := by
  induction changes generalizing fields with
  | nil => simp
  | cons change changes ih =>
    obtain ⟨name, v⟩ := change
    obtain ⟨fresh, nodup⟩ := List.nodup_cons.1 nodup
    have other : ∀ later ∈ changes, later.1 ≠ name := fun later mem same =>
      fresh (List.mem_map.2 ⟨later, mem, same⟩)
    have gone : changes.lookup name = none :=
      List.lookup_eq_none_iff.2 fun later mem => by simpa using (other later mem).symm
    rw [List.foldl_cons, ih nodup, setField]
    split
    · next present =>
      rw [List.filter_cons_of_neg (by simpa using present), List.map_map]
      congr 1
      · refine List.map_congr_left fun field _ => ?_
        by_cases same : field.1 = name
        · simp [same, gone]
        · simp [same, List.lookup_cons, beq_eq_false_iff_ne.2 same]
      · refine List.filter_congr fun later _ => ?_
        rw [List.any_map]
        congr 2
        funext field
        by_cases same : field.1 = name <;> simp [same]
    · next absent =>
      have apart : ∀ field ∈ fields, field.1 ≠ name := fun field mem same =>
        absent (List.any_eq_true.2 ⟨field, mem, beq_iff_eq.2 same⟩)
      rw [List.filter_cons_of_pos (by rw [Bool.eq_false_iff.2 absent]; rfl), List.map_append,
        List.append_assoc, List.map_singleton, gone, Option.getD_none, List.singleton_append]
      congr 1
      · refine List.map_congr_left fun field mem => ?_
        simp [List.lookup_cons, beq_eq_false_iff_ne.2 (apart field mem)]
      · congr 1
        refine List.filter_congr fun later mem => ?_
        simp [(other later mem).symm]

/-! ## Spellings -/

namespace OptionName

/-- The options in their order. -/
def all : List OptionName := [minify, group, comments, important, scope]

@[simp] theorem ofSpelling?_name (option : OptionName) : ofSpelling? option.name = some option := by
  cases option <;> rfl

theorem mem_spellings_of_ofSpelling? {s : String} {option : OptionName}
    (h : ofSpelling? s = some option) : (s, option) ∈ spellings := by
  obtain ⟨front, back, same, -⟩ := List.lookup_eq_some_iff.1 h
  simp [same]

/-- There is only one spelling besides the listed one. -/
theorem eq_of_ofSpelling? {s t : String} {option : OptionName} (hs : ofSpelling? s = some option)
    (ht : ofSpelling? t = some option) (asideS : s ≠ option.name) (asideT : t ≠ option.name) :
    s = t := by
  have memS := mem_spellings_of_ofSpelling? hs
  have memT := mem_spellings_of_ofSpelling? ht
  cases option <;> simp_all [spellings, name]

/-- The spelling is the one that is listed. -/
def isListed (s : String) : Bool := all.any (·.name == s)

theorem isListed_iff {s : String} {option : OptionName} (h : ofSpelling? s = some option) :
    isListed s ↔ s = option.name := by
  constructor
  · intro listed
    obtain ⟨other, -, same⟩ := List.any_eq_true.1 listed
    obtain rfl := beq_iff_eq.1 same
    rw [ofSpelling?_name] at h
    rw [Option.some.inj h]
  · rintro rfl
    cases option <;> decide

/-- The check of an option passes a value. -/
def Takes (option : OptionName) (v : Json) : Prop :=
  match option with
  | scope => ∃ selector, checkScope v = .ok selector
  | _ => ∃ b, v = .bool b

end OptionName

namespace SheetOptions

/-! ## The last mention -/

/-- The value of an option, as it is listed. -/
def value (options : SheetOptions) : OptionName → Json
  | .minify => .bool options.minify
  | .group => .bool options.group
  | .comments => .bool options.comments
  | .important => .bool options.important
  | .scope => .stringOrNull options.scope

/-- The value of the last pair that names an option, in either spelling. -/
def lastGiven? (changes : List (String × Json)) (option : OptionName) : Option Json :=
  (changes.filter fun change => OptionName.ofSpelling? change.1 == some option).getLast?.map (·.2)

/-- The value of the last pair that names an option, or else the present one. -/
def overriddenBy (options : SheetOptions) (changes : List (String × Json)) (option : OptionName) :
    Json :=
  (lastGiven? changes option).getD (options.value option)

/-- Every name is a spelling of some option. -/
def AreKnown (changes : List (String × Json)) : Prop :=
  ∀ change ∈ changes, (OptionName.ofSpelling? change.1).isSome

variable {changes rest : List (String × Json)} {option : OptionName} {options own : SheetOptions}

theorem lastGiven?_append : lastGiven? (changes ++ rest) option =
    (lastGiven? rest option).or (lastGiven? changes option) := by
  simp only [lastGiven?, List.filter_append, List.getLast?_append, Option.map_or]

theorem exists_of_lastGiven? {v : Json} (h : lastGiven? changes option = some v) :
    ∃ change ∈ changes, OptionName.ofSpelling? change.1 = some option ∧ change.2 = v := by
  obtain ⟨change, last, same⟩ := Option.map_eq_some_iff.1 h
  obtain ⟨mem, named⟩ := List.mem_filter.1 (List.mem_of_getLast? last)
  exact ⟨change, mem, beq_iff_eq.1 named, same⟩

theorem isSome_lastGiven? {change : String × Json} (mem : change ∈ changes)
    (named : OptionName.ofSpelling? change.1 = some option) :
    (lastGiven? changes option).isSome := by
  rw [lastGiven?, Option.isSome_map, List.getLast?_isSome]
  exact List.ne_nil_of_mem (List.mem_filter.2 ⟨mem, beq_iff_eq.2 named⟩)

/-- What names other options does not count. -/
theorem lastGiven?_filter {p : String × Json → Bool}
    (kept : ∀ change ∈ changes, OptionName.ofSpelling? change.1 = some option → p change) :
    lastGiven? (changes.filter p) option = lastGiven? changes option := by
  rw [lastGiven?, List.filter_filter, lastGiven?]
  congr 2
  refine List.filter_congr fun change mem => ?_
  by_cases named : OptionName.ofSpelling? change.1 = some option
  · simp [named, kept change mem named]
  · simp [named]

/-! ## Options from named values -/

theorem lastMention?_cons {mention : OptionName × Json} {given : List (OptionName × Json)} :
    lastMention? (mention :: given) option = (lastMention? given option).or
      (if mention.1 = option then some mention.2 else none) := by
  rw [lastMention?, List.reverse_cons, List.lookup_append, ← lastMention?, List.lookup_cons]
  by_cases same : mention.1 = option
  · simp [same]
  · rw [if_neg same, beq_eq_false_iff_ne.2 (Ne.symm same), List.lookup_nil]

theorem areKnown_of_mentions {given : List (OptionName × Json)} (h : mentions changes = .ok given) :
    AreKnown changes := by
  induction changes generalizing given with
  | nil => exact List.forall_mem_nil _
  | cons change changes ih =>
    rw [mentions] at h
    split at h
    · cases h
    · next option named =>
      cases later : mentions changes with
      | error fault =>
        rw [later] at h
        cases h
      | ok given => exact List.forall_mem_cons.2 ⟨by rw [named]; rfl, ih later⟩

/-- Named values mention the options that they name, the last mention being that of the last
pair. -/
theorem mentions_of_areKnown (h : AreKnown changes) : ∃ given, mentions changes = .ok given ∧
    ∀ option, lastMention? given option = lastGiven? changes option := by
  induction changes with
  | nil => exact ⟨[], rfl, fun _ => rfl⟩
  | cons change changes ih =>
    obtain ⟨known, others⟩ := List.forall_mem_cons.1 h
    obtain ⟨first, named⟩ := Option.isSome_iff_exists.1 known
    obtain ⟨given, later, same⟩ := ih others
    refine ⟨(first, change.2) :: given, by simp [mentions, named, later, Except.map],
      fun option => ?_⟩
    rw [lastMention?_cons, same, ← List.singleton_append, lastGiven?_append]
    congr 1
    by_cases own : first = option <;> simp [lastGiven?, named, own]

theorem checkBoolean_eq_ok_iff {v : Json} {b : Bool} :
    checkBoolean option v = .ok b ↔ v = .bool b := by
  cases v <;> simp [checkBoolean]

theorem checkScope_eq_ok {v : Json} {scope : Option String} (h : checkScope v = .ok scope) :
    v = .stringOrNull scope := by
  cases v with
  | null => exact Except.ok.inj h ▸ rfl
  | string s =>
    simp only [checkScope] at h
    split at h
    · cases h
    · split at h
      · exact Except.ok.inj h ▸ rfl
      · cases h
  | _ => cases h

theorem ofMentions_eq (given : List (OptionName × Json)) :
    let v (option : OptionName) := (lastMention? given option).getD (default.value option)
    ofMentions given = do
      let minify ← checkBoolean .minify (v .minify)
      let group ← checkBoolean .group (v .group)
      let comments ← checkBoolean .comments (v .comments)
      let important ← checkBoolean .important (v .important)
      let scope ← checkScope (v .scope)
      return ⟨minify, group, comments, important, scope⟩ := by
  simp only [ofMentions]
  cases lastMention? given .minify <;> cases lastMention? given .group <;>
    cases lastMention? given .comments <;> cases lastMention? given .important <;> rfl

/-- What options are read from mentions. -/
theorem ofMentions_eq_ok_iff {given : List (OptionName × Json)} :
    ofMentions given = .ok own ↔ ∀ option : OptionName,
      option.Takes ((lastMention? given option).getD (default.value option)) ∧
        own.value option = (lastMention? given option).getD (default.value option) := by
  simp only [ofMentions_eq, bind_eq_ok_iff, checkBoolean_eq_ok_iff]
  constructor
  · rintro ⟨minify, hm, group, hg, comments, hc, important, hi, scope, hs, same⟩ option
    obtain rfl := Except.ok.inj same
    cases option with
    | minify => exact ⟨⟨_, hm⟩, hm.symm⟩
    | group => exact ⟨⟨_, hg⟩, hg.symm⟩
    | comments => exact ⟨⟨_, hc⟩, hc.symm⟩
    | important => exact ⟨⟨_, hi⟩, hi.symm⟩
    | scope => exact ⟨⟨_, hs⟩, (checkScope_eq_ok hs).symm⟩
  · intro h
    obtain ⟨⟨scope, hs⟩, same⟩ := h .scope
    have listed : Json.stringOrNull own.scope = .stringOrNull scope :=
      same.trans (checkScope_eq_ok hs)
    refine ⟨_, (h .minify).2.symm, _, (h .group).2.symm, _, (h .comments).2.symm, _,
      (h .important).2.symm, scope, hs, ?_⟩
    have same : own.scope = scope := by
      cases scope <;> cases found : own.scope <;> simp_all [Json.stringOrNull]
    rw [← same]
    rfl

/-- There are options with any values that pass their checks. -/
theorem exists_value {v : OptionName → Json} (h : ∀ option : OptionName, option.Takes (v option)) :
    ∃ settled : SheetOptions, ∀ option, settled.value option = v option := by
  obtain ⟨minify, hm⟩ := h .minify
  obtain ⟨group, hg⟩ := h .group
  obtain ⟨comments, hc⟩ := h .comments
  obtain ⟨important, hi⟩ := h .important
  obtain ⟨scope, hs⟩ := h .scope
  refine ⟨⟨minify, group, comments, important, scope⟩, fun option => ?_⟩
  cases option with
  | minify => exact hm.symm
  | group => exact hg.symm
  | comments => exact hc.symm
  | important => exact hi.symm
  | scope => exact (checkScope_eq_ok hs).symm

/-- **What options are read from named values**: each has the value of the last pair that names it,
or the default, if its check passes. -/
theorem ofFields_eq_ok_iff : ofFields changes = .ok own ↔ AreKnown changes ∧
    ∀ option : OptionName, option.Takes (default.overriddenBy changes option) ∧
      own.value option = default.overriddenBy changes option := by
  rw [ofFields, bind_eq_ok_iff]
  constructor
  · rintro ⟨given, mentioned, read⟩
    have known := areKnown_of_mentions mentioned
    obtain ⟨_, again, same⟩ := mentions_of_areKnown known
    obtain rfl := Except.ok.inj (mentioned.symm.trans again)
    simp only [ofMentions_eq_ok_iff, same] at read
    exact ⟨known, read⟩
  · rintro ⟨known, read⟩
    obtain ⟨given, mentioned, same⟩ := mentions_of_areKnown known
    refine ⟨given, mentioned, ?_⟩
    simp only [ofMentions_eq_ok_iff, same]
    exact read

/-! ## Changing some of the options -/

/-- The changes with the listed spellings moved to the front. -/
def listedFirst (changes : List (String × Json)) : List (String × Json) :=
  (changes.filter fun change => OptionName.isListed change.1) ++
    changes.filter fun change => !OptionName.isListed change.1

/-- Among distinct names the last pair with a name is the first one. -/
theorem lookup_of_nodup (nodup : (changes.map (·.1)).Nodup) (name : String) :
    changes.lookup name = (changes.filter fun change => change.1 == name).getLast?.map (·.2) := by
  induction changes with
  | nil => rfl
  | cons change changes ih =>
    obtain ⟨fresh, nodup⟩ := List.nodup_cons.1 nodup
    rw [List.lookup_cons]
    by_cases same : change.1 = name
    · have gone : changes.filter (fun change => change.1 == name) = [] :=
        List.filter_eq_nil_iff.2 fun later mem again =>
          fresh (List.mem_map.2 ⟨later, mem, (beq_iff_eq.1 again).trans same.symm⟩)
      rw [List.filter_cons, if_pos (beq_iff_eq.2 same), gone, beq_iff_eq.2 same.symm]
      rfl
    · rw [List.filter_cons, if_neg (mt beq_iff_eq.1 same), beq_eq_false_iff_ne.2 (Ne.symm same)]
      exact ih nodup

/-- Of the listed spellings, an option is given by its name. -/
theorem lastGiven?_listed (nodup : (changes.map (·.1)).Nodup) :
    lastGiven? (changes.filter fun change => OptionName.isListed change.1) option =
      changes.lookup option.name := by
  rw [lookup_of_nodup nodup, lastGiven?, List.filter_filter]
  congr 2
  refine List.filter_congr fun change _ => ?_
  by_cases named : OptionName.ofSpelling? change.1 = some option
  · rw [beq_iff_eq.2 named, Bool.true_and, Bool.eq_iff_iff, OptionName.isListed_iff named,
      beq_iff_eq]
  · have other : change.1 ≠ option.name := fun same =>
      named (same ▸ OptionName.ofSpelling?_name option)
    rw [beq_eq_false_iff_ne.2 named, Bool.false_and, beq_eq_false_iff_ne.2 other]

/-- A listing gives each option its value. -/
theorem lastGiven?_listing (v : OptionName → Json) :
    lastGiven? (OptionName.all.map fun option => (option.name, v option)) option =
      some (v option) := by
  cases option <;> simp [lastGiven?, OptionName.all]

theorem isSome_of_isListed {s : String} (h : OptionName.isListed s) :
    (OptionName.ofSpelling? s).isSome := by
  obtain ⟨option, -, same⟩ := List.any_eq_true.1 h
  rw [← beq_iff_eq.1 same, OptionName.ofSpelling?_name]
  rfl

/-- **What options are left after a change**: the listed spellings come first, and then the last
pair that names an option counts. -/
theorem merge_eq_ok_iff (nodup : (changes.map (·.1)).Nodup) :
    options.merge changes = .ok own ↔ AreKnown changes ∧
      ∀ option : OptionName, option.Takes (options.overriddenBy (listedFirst changes) option) ∧
        own.value option = options.overriddenBy (listedFirst changes) option := by
  let listing := OptionName.all.map fun option =>
    (option.name, (changes.lookup option.name).getD (options.value option))
  let aside := changes.filter fun change => !OptionName.isListed change.1
  have merged : options.merge changes = ofFields (listing ++ aside) := by
    rw [merge, Json.foldl_setField nodup]
    rfl
  have known : AreKnown (listing ++ aside) ↔ AreKnown changes := by
    rw [AreKnown, List.forall_mem_append]
    constructor
    · rintro ⟨-, others⟩ change mem
      by_cases listed : OptionName.isListed change.1
      · exact isSome_of_isListed listed
      · exact others change (List.mem_filter.2 ⟨mem, by simpa using listed⟩)
    · refine fun all => ⟨?_, fun change mem => all change (List.mem_filter.1 mem).1⟩
      refine List.forall_mem_map.2 fun option _ => ?_
      rw [OptionName.ofSpelling?_name]
      rfl
  have last (option : OptionName) : default.overriddenBy (listing ++ aside) option =
      options.overriddenBy (listedFirst changes) option := by
    rw [overriddenBy, overriddenBy, listedFirst, lastGiven?_append, lastGiven?_append,
      lastGiven?_listing, lastGiven?_listed nodup]
    cases lastGiven? aside option <;> rfl
  simp only [merged, ofFields_eq_ok_iff, known, last]

/-- **When the place of a spelling does not matter**: the pair in the spelling that is not listed
has the value of the last one. -/
theorem overriddenBy_listedFirst_iff (nodup : (changes.map (·.1)).Nodup) :
    options.overriddenBy (listedFirst changes) option = options.overriddenBy changes option ↔
      ∀ change ∈ changes, OptionName.ofSpelling? change.1 = some option →
        change.1 ≠ option.name → lastGiven? changes option = some change.2 := by
  have unlisted {change : String × Json} (named : OptionName.ofSpelling? change.1 = some option) :
      (!OptionName.isListed change.1) ↔ change.1 ≠ option.name := by
    rw [Bool.not_eq_true', Bool.eq_false_iff, Ne, OptionName.isListed_iff named]
  rw [overriddenBy, overriddenBy, listedFirst, lastGiven?_append]
  by_cases aside : ∃ change ∈ changes, OptionName.ofSpelling? change.1 = some option ∧
      change.1 ≠ option.name
  · obtain ⟨change, mem, named, other⟩ := aside
    have alone : ∀ second ∈ changes, OptionName.ofSpelling? second.1 = some option →
        second.1 ≠ option.name → second = change := fun second mem' named' other' =>
      List.inj_on_of_nodup_map nodup mem' mem
        (OptionName.eq_of_ofSpelling? named' named other' other)
    have kept : change ∈ changes.filter fun change => !OptionName.isListed change.1 :=
      List.mem_filter.2 ⟨mem, (unlisted named).2 other⟩
    obtain ⟨v, first⟩ := Option.isSome_iff_exists.1 (isSome_lastGiven? kept named)
    obtain ⟨second, mem', named', rfl⟩ := exists_of_lastGiven? first
    obtain ⟨mem', other'⟩ := List.mem_filter.1 mem'
    obtain rfl := alone second mem' named' ((unlisted named').1 other')
    obtain ⟨w, last⟩ := Option.isSome_iff_exists.1 (isSome_lastGiven? mem named)
    rw [first, last]
    constructor
    · intro same third mem'' named'' other''
      rw [alone third mem'' named'' other'']
      exact congrArg some same.symm
    · intro same
      exact (Option.some.inj (same second mem named other)).symm
  · have none : lastGiven? (changes.filter fun change => !OptionName.isListed change.1) option =
        none := by
      refine Option.eq_none_iff_forall_ne_some.2 fun v given => aside ?_
      obtain ⟨change, mem, named, -⟩ := exists_of_lastGiven? given
      obtain ⟨mem, other⟩ := List.mem_filter.1 mem
      exact ⟨change, mem, named, (unlisted named).1 other⟩
    have all : ∀ change ∈ changes, OptionName.ofSpelling? change.1 = some option →
        OptionName.isListed change.1 := fun change mem named =>
      (OptionName.isListed_iff named).2 (by_contra fun other => aside ⟨change, mem, named, other⟩)
    rw [none, lastGiven?_filter all]
    exact iff_of_true rfl fun change mem named other => absurd ⟨change, mem, named, other⟩ aside

end SheetOptions

end BracketCss
