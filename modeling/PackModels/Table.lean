import Std.Data.ExtTreeMap
import Std.Data.ExtTreeSet

/-!
Contract: finite maps and sets with a canonical order.

A `Table` lists its entries in increasing key order, and two tables with the
same entries are equal, so nothing computed from a table can depend on the
order in which the entries arrived. `ofPairs` lets the last of two equal keys
win and `ofPairsFirst` the first.
-/

namespace PackModels

/-- A finite map whose entries are listed in increasing key order. -/
abbrev Table (Key : Type) (Value : Type) [Ord Key] : Type :=
  Std.ExtTreeMap Key Value compare

/-- A finite set whose members are listed in increasing order. -/
abbrev Roster (Member : Type) [Ord Member] : Type :=
  Std.ExtTreeSet Member compare

namespace Table

variable {Key Value : Type} [Ord Key] [Std.TransOrd Key]

/-- The table of a list of pairs; a later pair replaces an earlier one. -/
def ofPairs (pairs : List (Key × Value)) : Table Key Value :=
  pairs.foldl (fun table pair => table.insert pair.1 pair.2) ∅

/-- The table of a list of pairs; an earlier pair shadows a later one. -/
def ofPairsFirst (pairs : List (Key × Value)) : Table Key Value :=
  pairs.foldl (fun table pair => table.insertIfNew pair.1 pair.2) ∅

/-! ## The entries of a table -/

theorem nodup_toList (table : Table Key Value) : (table.toList.map Prod.fst).Nodup := by
  rw [Std.ExtTreeMap.map_fst_toList_eq_keys]
  exact Std.ExtTreeMap.nodup_keys

omit [Ord Key] [Std.TransOrd Key] in
/-- In a list of distinct keys, none has been listed before. -/
theorem not_mem_of_nodup {done rest : List (Key × Value)} {entry : Key × Value}
    (distinct : ((done ++ entry :: rest).map Prod.fst).Nodup) :
    entry.1 ∉ done.map Prod.fst := by
  rw [List.map_append, List.map_cons] at distinct
  intro member
  exact (List.nodup_append.mp distinct).2.2 entry.1 member entry.1 (by simp) rfl

variable [Std.LawfulEqOrd Key]

theorem getElem?_insert_of_ne {table : Table Key Value} {key other : Key} {value : Value}
    (apart : other ≠ key) : (table.insert key value)[other]? = table[other]? := by
  have different : compare key other ≠ .eq := by
    intro same
    exact apart (Std.compare_eq_iff_eq.mp same).symm
  rw [Std.ExtTreeMap.getElem?_insert, if_neg different]

theorem not_mem_toList_of_getElem? {table : Table Key Value} {key : Key}
    (absent : table[key]? = none) : key ∉ table.toList.map Prod.fst := by
  rw [Std.ExtTreeMap.map_fst_toList_eq_keys, Std.ExtTreeMap.mem_keys,
    Std.ExtTreeMap.mem_iff_isSome_getElem?, absent]
  simp

/-- Distinct keys of a table are no more than its entries. -/
theorem length_le_size {table : Table Key Value} {keys : List Key} (distinct : keys.Nodup)
    (held : ∀ key ∈ keys, key ∈ table) : keys.length ≤ table.size := by
  have subset : keys ⊆ table.keys :=
    fun key member => Std.ExtTreeMap.mem_keys.mpr (held key member)
  rw [← Std.ExtTreeMap.length_keys]
  exact distinct.length_le_of_subset subset

variable [BEq Key] [LawfulBEq Key]

/-- The entry of a key is found among the entries, in whatever order. -/
theorem find?_of_perm {table : Table Key Value} {entries : List (Key × Value)}
    (permutation : entries.Perm table.toList) (key : Key) :
    entries.find? (fun entry => entry.1 == key) =
      table[key]?.map (fun value => (key, value)) := by
  cases held : table[key]? with
  | none =>
      have absent := not_mem_toList_of_getElem? held
      rw [Option.map_none, List.find?_eq_none]
      intro entry member same
      exact absent (eq_of_beq same ▸ List.mem_map_of_mem (permutation.mem_iff.mp member))
  | some value =>
      have listed := Std.ExtTreeMap.mem_toList_iff_getElem?_eq_some.mpr held
      have member := permutation.mem_iff.mpr listed
      cases found : entries.find? (fun entry => entry.1 == key) with
      | none => exact absurd (beq_self_eq_true key) (List.find?_eq_none.mp found _ member)
      | some entry =>
          have hit := List.find?_some found
          have same : entry.1 = key := eq_of_beq hit
          have heldEntry := Std.ExtTreeMap.mem_toList_iff_getElem?_eq_some.mp
            (permutation.mem_iff.mp (List.mem_of_find?_eq_some found))
          rw [same, held, Option.some.injEq] at heldEntry
          rw [Option.map_some, heldEntry, ← same]

theorem find?_toList (table : Table Key Value) (key : Key) :
    table.toList.find? (fun entry => entry.1 == key) =
      table[key]?.map (fun value => (key, value)) :=
  find?_of_perm (.refl _) key

/-! ## Tables of pairs -/

/-- Pairs that are inserted in order shadow what was there and each other. -/
theorem getElem?_foldl_insert (pairs : List (Key × Value)) (before : Table Key Value) (key : Key) :
    (pairs.foldl (fun table pair => table.insert pair.1 pair.2) before)[key]? =
      ((pairs.filter (fun pair => pair.1 == key)).getLast?.map Prod.snd).or before[key]? := by
  induction pairs generalizing before with
  | nil => simp
  | cons pair rest inductionHypothesis =>
      rw [List.foldl_cons, inductionHypothesis, List.filter_cons]
      by_cases same : pair.1 = key
      · rw [same, Std.ExtTreeMap.getElem?_insert_self, if_pos (beq_self_eq_true key),
          List.getLast?_cons]
        cases (rest.filter (fun pair => pair.1 == key)).getLast? with
        | none => rfl
        | some later => rfl
      · rw [getElem?_insert_of_ne (Ne.symm same), if_neg (by simpa using same)]

/-- A table of pairs holds the last pair of each key. -/
theorem getElem?_ofPairs (pairs : List (Key × Value)) (key : Key) :
    (ofPairs pairs)[key]? =
      (pairs.filter (fun pair => pair.1 == key)).getLast?.map Prod.snd := by
  rw [ofPairs, getElem?_foldl_insert, Std.ExtTreeMap.getElem?_empty, Option.or_none]

/-- Where equal keys have equal values, a table of pairs holds those pairs. -/
theorem getElem?_ofPairs_iff {pairs : List (Key × Value)}
    (agree : ∀ key value value', (key, value) ∈ pairs → (key, value') ∈ pairs → value = value')
    {key : Key} {value : Value} : (ofPairs pairs)[key]? = some value ↔ (key, value) ∈ pairs := by
  rw [getElem?_ofPairs, Option.map_eq_some_iff]
  constructor
  · rintro ⟨pair, last, rfl⟩
    obtain ⟨member, same⟩ := List.mem_filter.mp (List.mem_of_getLast? last)
    rw [← eq_of_beq same]
    exact member
  · intro member
    have listed : (key, value) ∈ pairs.filter (fun pair => pair.1 == key) :=
      List.mem_filter.mpr ⟨member, beq_self_eq_true key⟩
    cases last : (pairs.filter (fun pair => pair.1 == key)).getLast? with
    | none =>
        rw [List.getLast?_eq_none_iff.mp last] at listed
        cases listed
    | some pair =>
        obtain ⟨member', same⟩ := List.mem_filter.mp (List.mem_of_getLast? last)
        refine ⟨pair, rfl, agree key pair.2 value ?_ member⟩
        rw [← eq_of_beq same]
        exact member'

/-- Of equal keys, the first one counts. -/
theorem getElem?_ofPairsFirst (pairs : List (Key × Value)) (key : Key) :
    (ofPairsFirst pairs)[key]? = (pairs.find? (fun pair => pair.1 == key)).map Prod.snd := by
  suffices run : ∀ before : Table Key Value,
      (pairs.foldl (fun table pair => table.insertIfNew pair.1 pair.2) before)[key]? =
        before[key]?.or ((pairs.find? (fun pair => pair.1 == key)).map Prod.snd) by
    rw [ofPairsFirst, run, Std.ExtTreeMap.getElem?_empty, Option.none_or]
  induction pairs with
  | nil => simp
  | cons pair rest inductionHypothesis =>
      intro before
      rw [List.foldl_cons, inductionHypothesis, Std.ExtTreeMap.getElem?_insertIfNew,
        List.find?_cons]
      by_cases same : pair.1 = key
      · subst same
        rw [beq_self_eq_true]
        by_cases known : pair.1 ∈ before
        · simp [known]
        · simp [known]
      · have apart : compare pair.1 key ≠ .eq := fun equal => same (Std.compare_eq_iff_eq.mp equal)
        rw [beq_eq_false_iff_ne.mpr same, if_neg (fun both => apart both.1)]

omit [BEq Key] [LawfulBEq Key]

/-! ## Changed values -/

variable {Value' : Type} (change : Value → Value')

theorem map_insert (table : Table Key Value) (key : Key) (value : Value) :
    (table.insert key value).map (fun _ value => change value) =
      (table.map (fun _ value => change value)).insert key (change value) := by
  apply Std.ExtTreeMap.ext_getElem?
  intro other
  rw [Std.ExtTreeMap.getElem?_map]
  by_cases same : other = key
  · rw [same, Std.ExtTreeMap.getElem?_insert_self, Std.ExtTreeMap.getElem?_insert_self,
      Option.map_some]
  · rw [getElem?_insert_of_ne same, getElem?_insert_of_ne same, Std.ExtTreeMap.getElem?_map]

theorem map_ofPairs (pairs : List (Key × Value)) :
    (ofPairs pairs).map (fun _ value => change value) =
      ofPairs (pairs.map (fun pair => (pair.1, change pair.2))) := by
  suffices run : ∀ before : Table Key Value,
      (pairs.foldl (fun table pair => table.insert pair.1 pair.2) before).map
          (fun _ value => change value) =
        (pairs.map (fun pair => (pair.1, change pair.2))).foldl
          (fun table pair => table.insert pair.1 pair.2)
          (before.map (fun _ value => change value)) by
    rw [ofPairs, run]
    rfl
  induction pairs with
  | nil => exact fun _ => rfl
  | cons pair rest inductionHypothesis =>
      intro before
      rw [List.foldl_cons, inductionHypothesis, map_insert, List.map_cons, List.foldl_cons]

end Table

/-- Members that are added in order are there afterwards, besides those that were
there before. -/
theorem Roster.mem_foldl_insert {Member : Type} [Ord Member] [Std.TransOrd Member]
    [Std.LawfulEqOrd Member] {members : List Member} {roster : Roster Member} {member : Member} :
    member ∈ members.foldl (fun roster member => roster.insert member) roster ↔
      member ∈ members ∨ member ∈ roster := by
  induction members generalizing roster with
  | nil => simp
  | cons first rest inductionHypothesis =>
      rw [List.foldl_cons, inductionHypothesis, Std.ExtTreeSet.mem_insert, List.mem_cons,
        Std.compare_eq_iff_eq, eq_comm (a := first), or_assoc, or_left_comm]

end PackModels
