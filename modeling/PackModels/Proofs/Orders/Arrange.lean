import PackModels.Id
import PackModels.Proofs.Sorted
import PackModels.Table

/-!
Contract: orders in which collections without an order are gone through.

The entries of such a collection come in any order, and at another occasion in
another one. Two things make up for that: entries that are put in the order of
their keys come out in one order, and a table that is made of entries with
distinct keys does not depend on the order in which they were put in.

Owns: `Occasion`, when a collection is gone through, and `Orders`, an order for
every occasion.
-/

namespace PackModels

/-- The occasions at which something is gone through that has no order. -/
inductive Occasion where
  /-- Tasks are made of the texts of models. -/
  | tasks
  /-- These tasks finish. -/
  | finished
  /-- The texture slots in the text of a model are read. -/
  | writtenSlots (id : ResourceId)
  /-- The transforms in the text of a model are read. -/
  | writtenDisplay (id : ResourceId)
  /-- The states, and then the items, that discovery starts from are listed. -/
  | rootStates
  | rootItems
  /-- The models that were loaded are searched for unreferenced ones. -/
  | loaded
  /-- The states, and then the items, that are baked are listed. -/
  | bakedStates
  | bakedItems
  /-- The texture slots of one model of a chain are gone through for a bake. -/
  | slots (bake place : Nat)
  /-- The texture slots of a whole chain are gone through for a bake. -/
  | slotNames (bake : Nat)

/-- An order for whatever is gone through at any occasion. -/
structure Orders where
  arrange : Occasion → {Entry : Type} → List Entry → List Entry
  perm : ∀ (occasion : Occasion) {Entry : Type} (entries : List Entry),
    (arrange occasion entries).Perm entries

/-- Everything is gone through as it is listed. -/
def Orders.asListed : Orders :=
  ⟨fun _ _ entries => entries, fun _ _ entries => .refl entries⟩

namespace Table

variable {Key Value : Type} [Ord Key] [Std.TransOrd Key]

theorem increasing_toList (table : Table Key Value) : Increasing Prod.fst table.toList :=
  table.ordered_keys_toList

variable [Std.LawfulEqOrd Key] [BEq Key] [LawfulBEq Key]

omit [Ord Key] [Std.TransOrd Key] [Std.LawfulEqOrd Key] [BEq Key] [LawfulBEq Key] in
theorem agree_of_nodup {pairs : List (Key × Value)} (distinct : (pairs.map Prod.fst).Nodup)
    (key : Key) (value value' : Value) (member : (key, value) ∈ pairs)
    (member' : (key, value') ∈ pairs) : value = value' := by
  have same := List.inj_on_of_nodup_map distinct member member' rfl
  exact (Prod.mk.inj same).2

/-- No order is left in a table, if no entry can shadow another one. -/
theorem ofPairs_perm {pairs pairs' : List (Key × Value)}
    (permutation : pairs.Perm pairs') (distinct : (pairs'.map Prod.fst).Nodup) :
    ofPairs pairs = ofPairs pairs' := by
  have distinct' : (pairs.map Prod.fst).Nodup :=
    (permutation.map Prod.fst).nodup_iff.mpr distinct
  apply Std.ExtTreeMap.ext_getElem?
  intro key
  apply Option.ext
  intro value
  rw [getElem?_ofPairs_iff (agree_of_nodup distinct'),
    getElem?_ofPairs_iff (agree_of_nodup distinct), permutation.mem_iff]

/-- What is picked from the entries of a table, in any order, makes one table if
different keys stay different. -/
theorem ofPairs_filterMap_perm {Key' Value' : Type} [Ord Key'] [Std.TransOrd Key']
    {table : Table Key' Value'} {entries : List (Key' × Value')}
    (permutation : entries.Perm table.toList) {pick : Key' × Value' → Option (Key × Value)}
    (injective : ∀ left right pair pair', pick left = some pair → pick right = some pair' →
      pair.1 = pair'.1 → left.1 = right.1) :
    ofPairs (entries.filterMap pick) = ofPairs (table.toList.filterMap pick) := by
  apply ofPairs_perm (permutation.filterMap pick)
  rw [List.Nodup, List.pairwise_map]
  apply (List.pairwise_map.mp table.nodup_toList).filterMap pick
  intro left right different pair picked pair' picked' same
  exact different (injective left right pair pair' picked picked' same)

theorem ofPairs_toList (table : Table Key Value) : ofPairs table.toList = table := by
  apply Std.ExtTreeMap.ext_getElem?
  intro key
  apply Option.ext
  intro value
  rw [getElem?_ofPairs_iff (agree_of_nodup table.nodup_toList),
    Std.ExtTreeMap.mem_toList_iff_getElem?_eq_some]

/-- Values that are changed entry by entry are the changed values of a table. -/
theorem ofPairs_map_toList {Value' : Type} (change : Value → Value') (table : Table Key Value) :
    ofPairs (table.toList.map (fun entry => (entry.1, change entry.2))) =
      table.map (fun _ value => change value) := by
  have listed : (table.map (fun _ value => change value)).toList =
      table.toList.map (fun entry => (entry.1, change entry.2)) :=
    Std.ExtTreeMap.toList_map
  rw [← listed, ofPairs_toList]

end Table

end PackModels
