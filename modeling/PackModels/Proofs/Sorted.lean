import Mathlib.Data.List.Nodup
import PackModels.Table

/-!
Contract: items in the increasing order of some keys.

There is only one such order for items with distinct keys, and sorting by the
keys finds it. A search that takes the first match takes the least one.
-/

namespace PackModels

variable {Item Key : Type} [Ord Key] {key : Item → Key} {items others : List Item}

/-- Whether the keys of some items increase. -/
def Increasing (key : Item → Key) (items : List Item) : Prop :=
  items.Pairwise (fun left right => compare (key left) (key right) = .lt)

/-- Items in the order of their keys. -/
def sortBy (key : Item → Key) (items : List Item) : List Item :=
  items.mergeSort (fun left right => (compare (key left) (key right)).isLE)

theorem sortBy_perm (key : Item → Key) (items : List Item) : (sortBy key items).Perm items :=
  List.mergeSort_perm items _

theorem Increasing.nodup [Std.LawfulEqOrd Key] (increasing : Increasing key items) :
    (items.map key).Nodup := by
  apply List.pairwise_map.mpr
  apply increasing.imp
  intro left right before same
  rw [same, Std.compare_self] at before
  cases before

variable [Std.TransOrd Key]

theorem Roster.increasing_toList {Member : Type} [Ord Member] [Std.TransOrd Member]
    (roster : Roster Member) : Increasing id roster.toList :=
  roster.ordered_toList

theorem Increasing.eq_of_perm (increasing : Increasing key items)
    (increasing' : Increasing key others) (permutation : items.Perm others) : items = others := by
  apply List.Perm.eq_of_pairwise _ increasing increasing' permutation
  intro left right _ _ before after
  rw [← Std.OrientedCmp.gt_iff_lt, before] at after
  cases after

/-- Of increasing items, the first that passes a test has the least key of those
that do. -/
theorem Increasing.find?_eq_some_iff (increasing : Increasing key items) {passes : Item → Bool}
    {item : Item} :
    items.find? passes = some item ↔ item ∈ items ∧ passes item = true ∧
      ∀ other ∈ items, passes other = true →
        other = item ∨ compare (key item) (key other) = .lt := by
  rw [List.find?_eq_some_iff_append]
  constructor
  · rintro ⟨passed, front, back, rfl, before⟩
    have after := (List.pairwise_cons.mp (List.pairwise_append.mp increasing).2.1).1
    refine ⟨by simp, passed, ?_⟩
    intro other member isOther
    rcases List.mem_append.mp member with early | late
    · have failed := before other early
      rw [isOther] at failed
      cases failed
    · rcases List.mem_cons.mp late with same | late
      · exact .inl same
      · exact .inr (after other late)
  · rintro ⟨member, passed, least⟩
    obtain ⟨front, back, rfl⟩ := List.append_of_mem member
    have before := (List.pairwise_append.mp increasing).2.2
    refine ⟨passed, front, back, rfl, ?_⟩
    intro other early
    have less := before other early item List.mem_cons_self
    rw [Bool.not_eq_true', ← Bool.not_eq_true]
    intro isOther
    rcases least other (List.mem_append_left _ early) isOther with rfl | greater
    · rw [Std.compare_self] at less
      cases less
    · rw [← Std.OrientedCmp.gt_iff_lt, less] at greater
      cases greater

variable [Std.LawfulEqOrd Key]

/-- Items with distinct keys increase once they are sorted. -/
theorem increasing_sortBy (distinct : (items.map key).Nodup) :
    Increasing key (sortBy key items) := by
  have ordered : (sortBy key items).Pairwise
      (fun left right => (compare (key left) (key right)).isLE = true) := by
    apply List.pairwise_mergeSort
    · intro first second third before after
      exact Std.TransCmp.isLE_trans before after
    · intro left right
      have swapped : compare (key right) (key left) = (compare (key left) (key right)).swap :=
        Std.OrientedCmp.eq_swap
      rw [swapped]
      cases compare (key left) (key right) <;> rfl
  have apart : ((sortBy key items).map key).Nodup :=
    ((sortBy_perm key items).map key).nodup_iff.mpr distinct
  apply ordered.imp₂ _ (List.pairwise_map.mp apart)
  intro left right before different
  rcases Ordering.isLE_iff_eq_lt_or_eq_eq.mp before with less | equal
  · exact less
  · exact absurd (Std.compare_eq_iff_eq.mp equal) different

/-- Items whose keys increase are what any arrangement of them is sorted to. -/
theorem Increasing.sortBy_eq (increasing : Increasing key items)
    (permutation : others.Perm items) : sortBy key others = items := by
  have distinct : (others.map key).Nodup :=
    (permutation.map key).nodup_iff.mpr increasing.nodup
  exact (increasing_sortBy distinct).eq_of_perm increasing
    ((sortBy_perm key others).trans permutation)

end PackModels
