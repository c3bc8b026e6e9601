import Mathlib.Data.List.Basic
import Mathlib.Data.List.Induction
import Mathlib.Data.List.Nodup
import PackModels.Binding.StateFile

/-!
Contract: the block of a state file.

A file mentions values with properties, in its variants and in the conditions of
its parts. Its block has the properties that are mentioned, each with the values
that are mentioned with it in increasing order and once. A property that is
merged into those of a block is added to the one of its name: what that one has
comes first, and nothing is there twice.

Owns: `Speaks`, what a file mentions, and the values of merged properties.

Does not own: what the settings make of a block.
-/

namespace PackModels

namespace BlockDef

/-! ## Merged properties -/

/-- A property of a new name comes after the others. -/
theorem mergeProperty_of_notMem {name : String} {values : List String}
    {properties : List Property} (new : name ∉ properties.map Property.name) :
    mergeProperty name values properties = properties ++ [⟨name, values.toArray⟩] := by
  induction properties with
  | nil => rfl
  | cons property rest inductionHypothesis =>
      rw [List.map_cons, List.mem_cons, not_or] at new
      rw [mergeProperty, if_neg (Ne.symm new.1), inductionHypothesis new.2, List.cons_append]

theorem mem_addValues {present : Array String} {values : List String} {value : String} :
    value ∈ addValues present values ↔ value ∈ present ∨ value ∈ values := by
  unfold addValues
  induction values generalizing present with
  | nil => simp
  | cons first rest inductionHypothesis =>
      rw [List.foldl_cons, inductionHypothesis, List.mem_cons]
      by_cases known : present.contains first = true
      · rw [if_pos known]
        have isPresent : first ∈ present := by simpa using known
        constructor
        · rintro (before | later)
          · exact .inl before
          · exact .inr (.inr later)
        · rintro (before | rfl | later)
          · exact .inl before
          · exact .inl isPresent
          · exact .inr later
      · rw [if_neg known, Array.mem_push, or_assoc]

theorem nodup_addValues {present : Array String} {values : List String}
    (distinct : present.toList.Nodup) : (addValues present values).toList.Nodup := by
  unfold addValues
  induction values generalizing present with
  | nil => exact distinct
  | cons first rest inductionHypothesis =>
      rw [List.foldl_cons]
      apply inductionHypothesis
      by_cases known : present.contains first = true
      · rw [if_pos known]
        exact distinct
      · have new : first ∉ present.toList := by simpa using known
        rw [if_neg known, Array.toList_push, List.nodup_append]
        exact ⟨distinct, List.nodup_singleton first, fun left member right last same =>
          new (List.mem_singleton.mp last ▸ same ▸ member)⟩

theorem addValues_append (present : Array String) (values more : List String) :
    addValues present (values ++ more) = addValues (addValues present values) more :=
  List.foldl_append

/-- Values that are added come after those that are there, each once and in the
order in which they first come. -/
theorem toList_addValues (present : Array String) (values : List String) :
    (addValues present values).toList =
      present.toList ++ (values.removeAll present.toList).eraseDups := by
  induction values using List.reverseRecOn with
  | nil => simp [addValues]
  | append_singleton front last inductionHypothesis =>
      have removed : (front ++ [last]).removeAll present.toList =
          front.removeAll present.toList ++ [last].removeAll present.toList :=
        List.filter_append front [last]
      have added : addValues present (front ++ [last]) =
          if (addValues present front).contains last then addValues present front
          else (addValues present front).push last :=
        addValues_append present front [last]
      rw [removed, List.eraseDups_append, ← List.append_assoc, ← inductionHypothesis, added]
      by_cases old : last ∈ present
      · have known : (addValues present front).contains last = true := by
          simp [mem_addValues, old]
        rw [if_pos known]
        simp [List.removeAll, old]
      · by_cases again : last ∈ front
        · have known : (addValues present front).contains last = true := by
            simp [mem_addValues, again]
          rw [if_pos known]
          simp [List.removeAll, old, again]
        · have new : ¬ (addValues present front).contains last = true := by
            simp [mem_addValues, old, again]
          rw [if_neg new, Array.toList_push]
          simp [List.removeAll, old, again, List.eraseDups_cons]

/-- The first value is that of those that are there, and else the first new one. -/
theorem getElem?_zero_addValues (present : Array String) (values : List String) :
    (addValues present values)[0]? = present[0]?.or values.head? := by
  rw [← Array.getElem?_toList, ← Array.getElem?_toList, toList_addValues]
  cases present.toList with
  | nil =>
      rw [List.nil_append, List.removeAll_nil, List.getElem?_nil, Option.none_or]
      cases values with
      | nil => rfl
      | cons first rest => rw [List.eraseDups_cons, List.getElem?_cons_zero, List.head?_cons]
  | cons first rest =>
      rw [List.cons_append, List.getElem?_cons_zero, List.getElem?_cons_zero, Option.some_or]

/-- The values of the first property of a name. -/
def valuesOf (properties : List Property) (name : String) : Array String :=
  ((properties.find? (fun property => property.name == name)).map Property.values).getD #[]

/-- Where no value is given twice, the property that values are merged into has
its own values first. -/
theorem exists_merged {name : String} {values : List String}
    (distinct : addValues #[] values = values.toArray) (properties : List Property) :
    ∃ property ∈ mergeProperty name values properties,
      property.name = name ∧ property.values = addValues (valuesOf properties name) values := by
  induction properties with
  | nil => exact ⟨⟨name, values.toArray⟩, List.mem_singleton_self _, rfl, distinct.symm⟩
  | cons first rest inductionHypothesis =>
      rw [mergeProperty]
      unfold valuesOf at inductionHypothesis ⊢
      by_cases same : first.name = name
      · rw [if_pos same, List.find?_cons, beq_iff_eq.mpr same]
        exact ⟨_, List.mem_cons_self, same, rfl⟩
      · obtain ⟨property, member, named, merged⟩ := inductionHypothesis
        rw [if_neg same, List.find?_cons, beq_eq_false_iff_ne.mpr same]
        exact ⟨property, List.mem_cons_of_mem _ member, named, merged⟩

/-- A visible block that is no fluid, with some properties. -/
def plain (id : ResourceId) (properties : List Property) : BlockDef :=
  ⟨id, properties, .model, none⟩

end BlockDef

namespace StateFile

/-! ## What a file mentions -/

/-- The properties that a file mentions, with their values, in its order. -/
def mentions (file : StateFile) : List (String × List String) :=
  file.variants.flatMap (fun variant => variant.demands.map (fun demand => (demand.1, [demand.2])))
    ++ file.parts.flatMap (fun part => part.condition.mentions)

/-- Whether a file mentions a value with a property. -/
def Speaks (file : StateFile) (name value : String) : Prop :=
  ∃ mention ∈ file.mentions, mention.1 = name ∧ value ∈ mention.2

def addMention (table : Table String (Roster String)) (mention : String × List String) :
    Table String (Roster String) :=
  table.insert mention.1
    (mention.2.foldl (fun values value => values.insert value) (table[mention.1]?.getD ∅))

theorem mentioned_eq (file : StateFile) : file.mentioned = file.mentions.foldl addMention ∅ :=
  rfl

theorem mem_addMention {table : Table String (Roster String)} {mention : String × List String}
    {name value : String} :
    value ∈ (addMention table mention)[name]?.getD ∅ ↔
      (mention.1 = name ∧ value ∈ mention.2) ∨ value ∈ table[name]?.getD ∅ := by
  unfold addMention
  by_cases same : mention.1 = name
  · rw [same, Std.ExtTreeMap.getElem?_insert_self, Option.getD_some,
      Roster.mem_foldl_insert]
    simp
  · rw [Table.getElem?_insert_of_ne (Ne.symm same)]
    simp [same]

/-- A value is listed under a property exactly if it is mentioned with it. -/
theorem mem_mentioned_iff {file : StateFile} {name value : String} :
    value ∈ file.mentioned[name]?.getD ∅ ↔ file.Speaks name value := by
  suffices run : ∀ (mentions : List (String × List String)) (table : Table String (Roster String)),
      value ∈ (mentions.foldl addMention table)[name]?.getD ∅ ↔
        (∃ mention ∈ mentions, mention.1 = name ∧ value ∈ mention.2) ∨
          value ∈ table[name]?.getD ∅ by
    rw [mentioned_eq, run, Speaks]
    simp
  intro mentions
  induction mentions with
  | nil => simp
  | cons mention rest inductionHypothesis =>
      intro table
      rw [List.foldl_cons, inductionHypothesis, mem_addMention, List.exists_mem_cons_iff,
        ← or_assoc, or_comm (a := ∃ other ∈ rest, _)]

theorem mem_foldl_addMention {mentions : List (String × List String)}
    {table : Table String (Roster String)} {name : String} :
    name ∈ mentions.foldl addMention table ↔
      (∃ mention ∈ mentions, mention.1 = name) ∨ name ∈ table := by
  induction mentions generalizing table with
  | nil => simp
  | cons mention rest inductionHypothesis =>
      rw [List.foldl_cons, inductionHypothesis, addMention, Std.ExtTreeMap.mem_insert,
        Std.compare_eq_iff_eq, List.exists_mem_cons_iff, ← or_assoc,
        or_comm (a := ∃ other ∈ rest, _)]

/-! ## The block of a file -/

/-- A property with the values that are mentioned with it. -/
def mentionedProperty (entry : String × Roster String) : Property :=
  ⟨entry.1, entry.2.toList.toArray⟩

/-- The block of a state file has the mentioned properties and nothing else. -/
theorem inferBlock_eq (file : StateFile) (id : ResourceId) :
    file.inferBlock id = .plain id (file.mentioned.toList.map mentionedProperty) := by
  unfold inferBlock
  suffices run : ∀ rest done : List (String × Roster String),
      ((done ++ rest).map Prod.fst).Nodup →
        rest.foldl (fun (block : BlockDef) entry => block.withProperty entry.1 entry.2.toList)
            (.plain id (done.map mentionedProperty)) =
          .plain id ((done ++ rest).map mentionedProperty) from
    run file.mentioned.toList [] file.mentioned.nodup_toList
  intro rest
  induction rest with
  | nil =>
      intro done _
      rw [List.append_nil, List.foldl_nil]
  | cons entry rest inductionHypothesis =>
      intro done distinct
      have new : entry.1 ∉ (done.map mentionedProperty).map Property.name := by
        rw [List.map_map]
        exact Table.not_mem_of_nodup distinct
      have regroup : done ++ entry :: rest = (done ++ [entry]) ++ rest := by simp
      rw [regroup] at distinct ⊢
      rw [← inductionHypothesis (done ++ [entry]) distinct, List.foldl_cons,
        BlockDef.withProperty, BlockDef.plain, BlockDef.mergeProperty_of_notMem new,
        List.map_append]
      rfl

/-- The values of a property are those that are mentioned with it. -/
theorem mem_values_iff {file : StateFile} {id : ResourceId} {property : Property}
    (member : property ∈ (file.inferBlock id).properties) {value : String} :
    value ∈ property.values ↔ file.Speaks property.name value := by
  rw [inferBlock_eq, BlockDef.plain] at member
  obtain ⟨⟨name, values⟩, listed, rfl⟩ := List.mem_map.mp member
  have held := Std.ExtTreeMap.mem_toList_iff_getElem?_eq_some.mp listed
  rw [← mem_mentioned_iff, mentionedProperty, List.mem_toArray, Std.ExtTreeSet.mem_toList, held,
    Option.getD_some]

/-- No value is there twice. -/
theorem nodup_values {file : StateFile} {id : ResourceId} :
    ∀ property ∈ (file.inferBlock id).properties, property.values.toList.Nodup := by
  rw [inferBlock_eq, BlockDef.plain, List.forall_mem_map]
  intro entry _
  refine entry.2.distinct_toList.imp ?_
  intro left right different same
  exact different (Std.compare_eq_iff_eq.mpr same)

end StateFile

end PackModels
