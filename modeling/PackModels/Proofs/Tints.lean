import PackModels.Groups

/-!
Contract: the two readings of the tint properties in the settings.

The settings list tint properties under written names, and several names may
denote one block. Asked about a block, the settings answer with the first of
its names in key order, while the table that the groups are made with keeps the
last one. So the two readings agree about a block exactly where the first and
the last of its names have the same properties.
-/

namespace PackModels.TintTable

variable (settings : Settings)

/-- The entries of the settings that name a block, in key order. -/
def naming (block : ResourceId) : List (String × List String) :=
  settings.tintProperties.toList.filter (fun entry => ResourceId.parse entry.1 == block)

/-- The settings answer with the first name of a block. -/
theorem tintPropertiesOf_eq (block : ResourceId) :
    settings.tintPropertiesOf block = ((naming settings block).head?.map Prod.snd).getD [] := by
  unfold Settings.tintPropertiesOf Settings.firstNamed? naming
  rw [List.head?_filter]

/-- The table answers with the last name of a block. -/
theorem source_ofSettings_eq (block : BlockDef) :
    (ofSettings settings).source block =
      ((naming settings block.id).getLast?.map Prod.snd).getD [] := by
  unfold source ofSettings naming
  rw [Table.getElem?_ofPairs, List.filter_map, List.getLast?_map, Option.map_map]
  rfl

/-- The two readings agree about a block exactly where the first and the last
of its names have the same properties. -/
theorem source_eq_tintPropertiesOf_iff (block : BlockDef) :
    (ofSettings settings).source block = settings.tintPropertiesOf block.id ↔
      (naming settings block.id).getLast?.map Prod.snd =
        (naming settings block.id).head?.map Prod.snd := by
  rw [source_ofSettings_eq, tintPropertiesOf_eq]
  cases naming settings block.id with
  | nil => simp
  | cons first rest =>
      rw [List.getLast?_cons, List.head?_cons]
      simp

/-- Settings that name one block in two ways, with other properties each time. -/
def twoNames : Settings :=
  { Settings.default with
    tintProperties := Table.ofPairs [("foo", ["a"]), ("minecraft:foo", ["b"])] }

/-- The settings answer with the short name and the table with the long one. -/
theorem source_ne_tintPropertiesOf :
    twoNames.tintPropertiesOf (ResourceId.inDefaultSpace "foo") = ["a"] ∧
      (ofSettings twoNames).source (.new (ResourceId.inDefaultSpace "foo")) = ["b"] := by
  decide

end PackModels.TintTable
