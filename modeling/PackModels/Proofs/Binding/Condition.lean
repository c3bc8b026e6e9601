import PackModels.Binding.Condition
import PackModels.Proofs.Sides
import PackModels.Proofs.Text

/-!
Contract: what is written as a condition, and which states satisfy it.

Both are read off the syntax alone, without the condition that is made from it:
`IsCondition` says which values are conditions and `Selects` what a condition says
about the values of a state. A property is said to be among its alternatives or
besides them; a state without the property is neither.

Owns: `IsCondition`, `Selects` and what the steps of reading a condition give.

Does not own: which properties a condition mentions.
-/

namespace PackModels

/-! ## The text of a property -/

/-- The text of a value that is no list, no record and not `null`. -/
inductive Spelled : Json.Value → String → Prop
  | text (characters : String) : Spelled (.text characters) characters
  | yes : Spelled (.boolean true) "true"
  | no : Spelled (.boolean false) "false"
  | number (value : Json.Number) : Spelled (.number value) value.text

/-- A text of some alternatives with bars between them, none of them empty. -/
structure Alternatives (text : String) (values : List String) : Prop where
  given : values ≠ []
  filled : ∀ value ∈ values, value ≠ ""
  uncut : ∀ value ∈ values, '|' ∉ value.toList
  joined : text = Text.join "|" values

/-- A text that asks for one of some values, or for another one than these. -/
inductive Asks : String → (negate : Bool) → List String → Prop
  | among {text : String} {values : List String} (plain : ∀ rest, text ≠ "!" ++ rest)
      (alternatives : Alternatives text values) : Asks text false values
  | besides {rest : String} {values : List String}
      (alternatives : Alternatives rest values) : Asks ("!" ++ rest) true values

theorem alternatives_iff {text : String} {values : List String} :
    Alternatives text values ↔
      Text.split '|' text = values ∧ values.any String.isEmpty = false := by
  have isMark : ("|" : String).toList = ['|'] := rfl
  rw [Text.split_eq_iff isMark, List.any_eq_false]
  simp only [String.isEmpty_iff]
  constructor
  · rintro ⟨given, filled, uncut, joined⟩
    exact ⟨⟨given, uncut, joined⟩, filled⟩
  · rintro ⟨⟨given, uncut, joined⟩, filled⟩
    exact ⟨given, filled, uncut, joined⟩

theorem asks_iff {text : String} {negate : Bool} {values : List String} :
    Asks text negate values ↔ negate = (Text.dropLeading? '!' text).isSome ∧
      Alternatives ((Text.dropLeading? '!' text).getD text) values := by
  have isMark : ("!" : String).toList = ['!'] := rfl
  cases marked : Text.dropLeading? '!' text with
  | none =>
      have plain : ∀ rest, text ≠ "!" ++ rest := (Text.dropLeading?_eq_none_iff isMark).mp marked
      constructor
      · intro asks
        cases asks with
        | among _ alternatives => exact ⟨rfl, alternatives⟩
        | besides _ => exact absurd rfl (plain _)
      · rintro ⟨rfl, alternatives⟩
        exact .among plain alternatives
  | some rest =>
      obtain rfl := (Text.dropLeading?_mark isMark).mp marked
      constructor
      · generalize isText : "!" ++ rest = text
        intro asks
        cases asks with
        | among plain _ => exact absurd isText.symm (plain rest)
        | besides alternatives =>
            rw [String.append_right_inj] at isText
            exact ⟨rfl, isText ▸ alternatives⟩
      · rintro ⟨rfl, alternatives⟩
        exact .besides alternatives

/-! ## The syntax and what it says -/

/-- Whether the only key of an object combines conditions. -/
def Combines (members : List (String × Json.Value)) : Prop :=
  ∃ key value, members = [(key, value)] ∧ (key = "OR" ∨ key = "AND")

/-- What can be written as a condition. -/
inductive IsCondition : Json.Value → Prop
  | combination {key : String} {items : List Json.Value} (combines : key = "OR" ∨ key = "AND")
      (each : ∀ item ∈ items, IsCondition item) : IsCondition (.members [(key, .list items)])
  | properties {members : List (String × Json.Value)} (free : ¬ Combines members)
      (each : ∀ member ∈ members, ∃ text negate values,
        Spelled member.2 text ∧ Asks text negate values) : IsCondition (.members members)

/-- What a property says about the values of a state. -/
inductive PropertyHolds (valueOf : String → Option String) (name : String)
    (written : Json.Value) : Prop
  | among {text actual : String} {values : List String} (spelled : Spelled written text)
      (asks : Asks text false values) (known : valueOf name = some actual)
      (listed : actual ∈ values)
  | besides {text actual : String} {values : List String} (spelled : Spelled written text)
      (asks : Asks text true values) (known : valueOf name = some actual)
      (unlisted : actual ∉ values)

/-- What a condition says about the values of a state. -/
inductive Selects (valueOf : String → Option String) : Json.Value → Prop
  | any {items : List Json.Value} {item : Json.Value} (listed : item ∈ items)
      (selects : Selects valueOf item) : Selects valueOf (.members [("OR", .list items)])
  | every {items : List Json.Value} (each : ∀ item ∈ items, Selects valueOf item) :
      Selects valueOf (.members [("AND", .list items)])
  | properties {members : List (String × Json.Value)} (free : ¬ Combines members)
      (each : ∀ member ∈ members, PropertyHolds valueOf member.1 member.2) :
      Selects valueOf (.members members)

section Selects

variable {valueOf : String → Option String}

theorem selects_any_iff {items : List Json.Value} :
    Selects valueOf (.members [("OR", .list items)]) ↔ ∃ item ∈ items, Selects valueOf item := by
  constructor
  · generalize written : Json.Value.members [("OR", .list items)] = value
    intro selected
    cases selected with
    | any listed selects =>
        obtain rfl : items = _ := by simpa using written
        exact ⟨_, listed, selects⟩
    | every _ => simp at written
    | properties free _ =>
        obtain rfl := Json.Value.members.inj written
        exact absurd ⟨"OR", _, rfl, .inl rfl⟩ free
  · rintro ⟨item, listed, selects⟩
    exact .any listed selects

theorem selects_every_iff {items : List Json.Value} :
    Selects valueOf (.members [("AND", .list items)]) ↔ ∀ item ∈ items, Selects valueOf item := by
  constructor
  · generalize written : Json.Value.members [("AND", .list items)] = value
    intro selected
    cases selected with
    | any _ _ => simp at written
    | every each =>
        obtain rfl : items = _ := by simpa using written
        exact each
    | properties free _ =>
        obtain rfl := Json.Value.members.inj written
        exact absurd ⟨"AND", _, rfl, .inr rfl⟩ free
  · exact .every

theorem selects_properties_iff {members : List (String × Json.Value)}
    (free : ¬ Combines members) :
    Selects valueOf (.members members) ↔
      ∀ member ∈ members, PropertyHolds valueOf member.1 member.2 := by
  constructor
  · intro selected
    cases selected with
    | any _ _ => exact absurd ⟨"OR", _, rfl, .inl rfl⟩ free
    | every _ => exact absurd ⟨"AND", _, rfl, .inr rfl⟩ free
    | properties _ each => exact each
  · exact .properties free

end Selects

/-- A property says something of the values of a state only where the state has
a value of this name. -/
theorem not_propertyHolds_of_unknown {valueOf : String → Option String} {name : String}
    (unknown : valueOf name = none) (written : Json.Value) :
    ¬ PropertyHolds valueOf name written := by
  rintro (⟨_, _, known, _⟩ | ⟨_, _, known, _⟩)
  · rw [unknown] at known
    cases known
  · rw [unknown] at known
    cases known

/-- A state has no value of a property that its block lacks. -/
theorem Registry.value?_eq_none_of_lacking {registry : Registry} {state : StateHandle}
    {block : BlockDef} {name : String} (belongs : registry.blockOf? state = some block)
    (lacking : ∀ property ∈ block.properties, property.name ≠ name) :
    registry.value? state name = none := by
  have unknown : block.propertyIndex? name = none := by
    rw [BlockDef.propertyIndex?, List.findIdx?_eq_none_iff]
    intro property member
    exact beq_eq_false_iff_ne.mpr (lacking property member)
  rw [value?, belongs]
  cases registry.state? state with
  | none => rfl
  | some found => simp [chosen?, unknown]

namespace Condition

variable {id : ResourceId}

theorem valueText?_eq_some_iff {value : Json.Value} {text : String} :
    valueText? value = some text ↔ Spelled value text := by
  constructor
  · intro spelled
    cases value with
    | text characters =>
        rw [← Option.some.inj spelled]
        exact .text characters
    | boolean value =>
        rw [← Option.some.inj spelled]
        cases value with
        | true => exact .yes
        | false => exact .no
    | number value =>
        rw [← Option.some.inj spelled]
        exact .number value
    | null => cases spelled
    | list items => cases spelled
    | members members => cases spelled
  · intro spelled
    cases spelled with
    | text characters => rfl
    | yes => rfl
    | no => rfl
    | number value => rfl

theorem ofText_eq_ok_iff {name text : String} {condition : Condition} :
    ofText id name text = .ok condition ↔
      ∃ negate values, Asks text negate values ∧ condition = .property name values negate := by
  unfold ofText
  simp only [asks_iff, alternatives_iff]
  split
  · rename_i empty
    constructor
    · intro read
      cases read
    · rintro ⟨negate, values, ⟨_, rfl, filled⟩, _⟩
      rw [empty] at filled
      cases filled
  · rename_i filled
    rw [Except.ok.injEq]
    constructor
    · rintro rfl
      exact ⟨_, _, ⟨rfl, rfl, (Bool.not_eq_true _).mp filled⟩, rfl⟩
    · rintro ⟨negate, values, ⟨rfl, rfl, _⟩, rfl⟩
      rfl

/-- A property is read from the text of its value. -/
theorem ofProperty_eq_ok_iff {name : String} {value : Json.Value} {condition : Condition} :
    ofProperty id name value = .ok condition ↔
      ∃ text negate values, Spelled value text ∧ Asks text negate values ∧
        condition = .property name values negate := by
  unfold ofProperty
  simp only [← valueText?_eq_some_iff]
  cases valueText? value with
  | none => simp
  | some text => simp [ofText_eq_ok_iff]

/-! ## The steps of reading -/

theorem ofProperties_eq_readEach (members : List (String × Json.Value)) :
    ofProperties id members = readEach (fun member => ofProperty id member.1 member.2) members := by
  induction members with
  | nil => rfl
  | cons member rest inductionHypothesis =>
      rw [ofProperties, readEach, inductionHypothesis]
      cases ofProperty id member.1 member.2 with
      | error error => rfl
      | ok term => cases readEach _ rest <;> rfl

theorem parseAll_eq_readEach (items : List Json.Value) :
    parseAll id items = readEach (parse id) items := by
  induction items with
  | nil => rw [parseAll, readEach]
  | cons item rest inductionHypothesis =>
      rw [parseAll, readEach, inductionHypothesis]
      cases parse id item with
      | error error => rfl
      | ok term => cases readEach _ rest <;> rfl

theorem ofProperties_eq_ok_iff {members : List (String × Json.Value)} {terms : List Condition} :
    ofProperties id members = .ok terms ↔
      List.Forall₂ (fun member term => ofProperty id member.1 member.2 = .ok term)
        members terms := by
  rw [ofProperties_eq_readEach, readEach_eq_ok_iff]

theorem parseAll_eq_ok_iff {items : List Json.Value} {terms : List Condition} :
    parseAll id items = .ok terms ↔
      List.Forall₂ (fun item term => parse id item = .ok term) items terms := by
  rw [parseAll_eq_readEach, readEach_eq_ok_iff]

/-- A condition is a list of conditions under the only key, or a list of
properties. -/
theorem parse_eq_ok_iff {value : Json.Value} {condition : Condition} :
    parse id value = .ok condition ↔
      (∃ items terms, parseAll id items = .ok terms ∧
        ((value = .members [("OR", .list items)] ∧ condition = any terms) ∨
          (value = .members [("AND", .list items)] ∧ condition = every terms))) ∨
      ∃ members terms, value = .members members ∧ ¬ Combines members ∧
        ofProperties id members = .ok terms ∧ condition = conjunction terms := by
  constructor
  · intro parsed
    unfold parse at parsed
    split at parsed
    · rename_i key inner
      split at parsed
      · rename_i combines
        split at parsed
        · rename_i items
          split at parsed
          · cases parsed
          · rename_i terms isTerms
            rw [Except.ok.injEq] at parsed
            refine .inl ⟨items, terms, isTerms, ?_⟩
            rcases combines with rfl | rfl
            · exact .inl ⟨rfl, parsed.symm⟩
            · exact .inr ⟨rfl, parsed.symm⟩
        · cases parsed
      · rename_i property
        refine .inr ⟨_, [condition], rfl, ?_, ?_, rfl⟩
        · rintro ⟨other, _, same, combines⟩
          obtain ⟨rfl, _⟩ := Prod.mk.inj (List.cons.inj same).1
          exact property combines
        · rw [ofProperties_eq_ok_iff]
          exact .cons parsed .nil
    · rename_i members several
      split at parsed
      · cases parsed
      · rename_i terms isTerms
        refine .inr ⟨members, terms, rfl, ?_, isTerms, (Except.ok.inj parsed).symm⟩
        rintro ⟨key, inner, rfl, _⟩
        exact several key inner rfl
    · cases parsed
  · rintro (⟨items, terms, isTerms, ⟨rfl, rfl⟩ | ⟨rfl, rfl⟩⟩ |
      ⟨members, terms, rfl, free, isTerms, rfl⟩)
    · rw [parse, isTerms]
      rfl
    · rw [parse, isTerms]
      rfl
    · match members, free, isTerms with
      | [], _, isTerms =>
          rw [parse, isTerms]
          simp
      | [(key, inner)], free, isTerms =>
          have property : ¬ (key = "OR" ∨ key = "AND") :=
            fun combines => free ⟨key, inner, rfl, combines⟩
          obtain ⟨term, others, isTerm, none, rfl⟩ :=
            List.forall₂_cons_left_iff.mp (ofProperties_eq_ok_iff.mp isTerms)
          obtain rfl := List.forall₂_nil_left_iff.mp none
          unfold parse
          exact (if_neg property).trans isTerm
      | first :: second :: rest, _, isTerms =>
          rw [parse, isTerms]
          simp

/-! ## Mentions -/

theorem mem_mentionsOf_iff {terms : List Condition} {mention : String × List String} :
    mention ∈ mentionsOf terms ↔ ∃ term ∈ terms, mention ∈ term.mentions := by
  induction terms with
  | nil => simp [mentionsOf]
  | cons term rest inductionHypothesis => simp [mentionsOf, inductionHypothesis]

/-! ## Tests -/

section Test

variable {registry : Registry} {state : StateHandle}

theorem testAny_iff {terms : List Condition} :
    testAny registry state terms = true ↔ ∃ term ∈ terms, term.test registry state = true := by
  induction terms with
  | nil => simp [testAny]
  | cons term rest inductionHypothesis => simp [testAny, inductionHypothesis]

theorem testEvery_iff {terms : List Condition} :
    testEvery registry state terms = true ↔ ∀ term ∈ terms, term.test registry state = true := by
  induction terms with
  | nil => simp [testEvery]
  | cons term rest inductionHypothesis => simp [testEvery, inductionHypothesis]

theorem test_conjunction_iff {terms : List Condition} :
    (conjunction terms).test registry state = true ↔
      ∀ term ∈ terms, term.test registry state = true := by
  unfold conjunction
  split
  · simp
  · rw [test, testEvery_iff]

theorem test_property_iff {name : String} {values : List String} {negate : Bool} :
    (property name values negate).test registry state = true ↔
      ∃ actual, registry.value? state name = some actual ∧ (actual ∈ values ↔ negate = false) := by
  rw [test]
  cases registry.value? state name with
  | none => simp
  | some actual => cases negate <;> simp

end Test

/-! ## What is read -/

theorem exists_ofProperties_iff {members : List (String × Json.Value)} :
    (∃ terms, ofProperties id members = .ok terms) ↔
      ∀ member ∈ members, ∃ text negate values,
        Spelled member.2 text ∧ Asks text negate values := by
  simp only [ofProperties_eq_ok_iff, exists_forall₂_iff, ofProperty_eq_ok_iff]
  constructor
  · intro each member listed
    obtain ⟨_, text, negate, values, spelled, asks, _⟩ := each member listed
    exact ⟨text, negate, values, spelled, asks⟩
  · intro each member listed
    obtain ⟨text, negate, values, spelled, asks⟩ := each member listed
    exact ⟨_, text, negate, values, spelled, asks, rfl⟩

/-- Exactly what is written as a condition is read as one. -/
theorem exists_parse_iff (value : Json.Value) :
    (∃ condition, parse id value = .ok condition) ↔ IsCondition value := by
  constructor
  · rintro ⟨condition, parsed⟩
    rcases parse_eq_ok_iff.mp parsed with ⟨items, terms, isTerms, written⟩ |
      ⟨members, terms, rfl, free, isTerms, _⟩
    · have read := (exists_of_forall₂ (parseAll_eq_ok_iff.mp isTerms)).1
      rcases written with ⟨rfl, _⟩ | ⟨rfl, _⟩
      · refine .combination (.inl rfl) fun item listed => ?_
        obtain ⟨term, _, isTerm⟩ := read item listed
        exact (exists_parse_iff item).mp ⟨term, isTerm⟩
      · refine .combination (.inr rfl) fun item listed => ?_
        obtain ⟨term, _, isTerm⟩ := read item listed
        exact (exists_parse_iff item).mp ⟨term, isTerm⟩
    · exact .properties free (exists_ofProperties_iff.mp ⟨terms, isTerms⟩)
  · intro written
    cases written with
    | @combination key items combines each =>
        have read : ∀ item ∈ items, ∃ term, parse id item = .ok term := by
          intro item listed
          exact (exists_parse_iff item).mpr (each item listed)
        obtain ⟨terms, isTerms⟩ := exists_forall₂_iff.mpr read
        rw [← parseAll_eq_ok_iff] at isTerms
        rcases combines with rfl | rfl
        · exact ⟨_, parse_eq_ok_iff.mpr (.inl ⟨items, terms, isTerms, .inl ⟨rfl, rfl⟩⟩)⟩
        · exact ⟨_, parse_eq_ok_iff.mpr (.inl ⟨items, terms, isTerms, .inr ⟨rfl, rfl⟩⟩)⟩
    | @properties members free each =>
        obtain ⟨terms, isTerms⟩ := exists_ofProperties_iff.mpr each
        exact ⟨_, parse_eq_ok_iff.mpr (.inr ⟨members, terms, rfl, free, isTerms, rfl⟩)⟩
termination_by sizeOf value

section Meaning

variable {registry : Registry} {state : StateHandle}

theorem test_ofProperty_iff {name : String} {written : Json.Value} {term : Condition}
    (isTerm : ofProperty id name written = .ok term) :
    term.test registry state = true ↔ PropertyHolds (registry.value? state) name written := by
  obtain ⟨text, negate, values, spelled, asks, rfl⟩ := ofProperty_eq_ok_iff.mp isTerm
  -- A value is read in one way only.
  have unique : ∀ text' negate' values', Spelled written text' → Asks text' negate' values' →
      negate' = negate ∧ values' = values := by
    intro text' negate' values' spelled' asks'
    have again : ofProperty id name written = .ok (.property name values' negate') :=
      ofProperty_eq_ok_iff.mpr ⟨text', negate', values', spelled', asks', rfl⟩
    rw [isTerm, Except.ok.injEq, property.injEq] at again
    exact ⟨again.2.2.symm, again.2.1.symm⟩
  rw [test_property_iff]
  constructor
  · rintro ⟨actual, known, agrees⟩
    cases negate with
    | false => exact .among spelled asks known (agrees.mpr rfl)
    | true => exact .besides spelled asks known (fun listed => absurd (agrees.mp listed) (by simp))
  · rintro (⟨spelled', asks', known, listed⟩ | ⟨spelled', asks', known, unlisted⟩)
    · obtain ⟨rfl, rfl⟩ := unique _ _ _ spelled' asks'
      exact ⟨_, known, by simpa using listed⟩
    · obtain ⟨rfl, rfl⟩ := unique _ _ _ spelled' asks'
      exact ⟨_, known, by simpa using unlisted⟩

theorem test_ofProperties_iff {members : List (String × Json.Value)} {terms : List Condition}
    (isTerms : ofProperties id members = .ok terms) :
    (conjunction terms).test registry state = true ↔
      ∀ member ∈ members, PropertyHolds (registry.value? state) member.1 member.2 := by
  obtain ⟨forth, back⟩ := exists_of_forall₂ (ofProperties_eq_ok_iff.mp isTerms)
  rw [test_conjunction_iff]
  constructor
  · intro each member listed
    obtain ⟨term, isListed, isTerm⟩ := forth member listed
    exact (test_ofProperty_iff isTerm).mp (each term isListed)
  · intro each term listed
    obtain ⟨member, isListed, isTerm⟩ := back term listed
    exact (test_ofProperty_iff isTerm).mpr (each member isListed)

/-- A condition holds of exactly the states that its syntax selects. -/
theorem test_iff_selects (value : Json.Value) {condition : Condition}
    (parsed : parse id value = .ok condition) :
    condition.test registry state = true ↔ Selects (registry.value? state) value := by
  rcases parse_eq_ok_iff.mp parsed with ⟨items, terms, isTerms, ⟨rfl, rfl⟩ | ⟨rfl, rfl⟩⟩ |
    ⟨members, terms, rfl, free, isTerms, rfl⟩
  · obtain ⟨forth, back⟩ := exists_of_forall₂ (parseAll_eq_ok_iff.mp isTerms)
    rw [test, testAny_iff, selects_any_iff]
    constructor
    · rintro ⟨term, listed, holds⟩
      obtain ⟨item, isListed, isTerm⟩ := back term listed
      exact ⟨item, isListed, (test_iff_selects item isTerm).mp holds⟩
    · rintro ⟨item, listed, selects⟩
      obtain ⟨term, isListed, isTerm⟩ := forth item listed
      exact ⟨term, isListed, (test_iff_selects item isTerm).mpr selects⟩
  · obtain ⟨forth, back⟩ := exists_of_forall₂ (parseAll_eq_ok_iff.mp isTerms)
    rw [test, testEvery_iff, selects_every_iff]
    constructor
    · intro each item listed
      obtain ⟨term, isListed, isTerm⟩ := forth item listed
      exact (test_iff_selects item isTerm).mp (each term isListed)
    · intro each term listed
      obtain ⟨item, isListed, isTerm⟩ := back term listed
      exact (test_iff_selects item isTerm).mpr (each item isListed)
  · rw [test_ofProperties_iff isTerms, selects_properties_iff free]
termination_by sizeOf value

end Meaning

/-- Reading a condition succeeds on exactly the values that are written as one,
and what is read holds of exactly the states that the value selects. Neither
form of a property selects a state whose block lacks the property. -/
theorem parse_exact (id : ResourceId) (value : Json.Value) :
    ((∃ condition, parse id value = .ok condition) ↔ IsCondition value) ∧
    (∀ condition, parse id value = .ok condition →
      ∀ (registry : Registry) (state : StateHandle),
        condition.test registry state = true ↔ Selects (registry.value? state) value) ∧
    (∀ (registry : Registry) (state : StateHandle) (block : BlockDef) (name : String),
      registry.blockOf? state = some block →
        (∀ property ∈ block.properties, property.name ≠ name) →
          ∀ written, ¬ PropertyHolds (registry.value? state) name written) := by
  refine ⟨exists_parse_iff value, ?meaning, ?lacking⟩
  case meaning =>
    intro condition parsed registry state
    exact test_iff_selects value parsed
  case lacking =>
    intro registry state block name belongs lacking written
    exact not_propertyHolds_of_unknown (Registry.value?_eq_none_of_lacking belongs lacking) written

end Condition

end PackModels
