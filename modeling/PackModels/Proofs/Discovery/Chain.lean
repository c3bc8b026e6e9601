import PackModels.Proofs.Direct.Chain
import PackModels.Proofs.Discovery.Ancestry

/-!
Contract: the chains of a finished discovery are those of the files.

Following parents through a discovery ends at the first id that stands for the
missing model, or at one without a parent. On the way there it meets the
definitions of the lineage.
-/

namespace PackModels.Discovery

open PackModels.Lineage

/-- A discovery works on the definitions of some files, each held by an instance
of its own. -/
structure Holds (files : Table ResourceId ModelDef) (discovery : Discovery) : Prop where
  missing : discovery.missing.value = ModelDef.missing
  values : ∀ id : ResourceId, (discovery.input[id]?).map Shared.value = files[id]?
  unmissing : ∀ (id : ResourceId) model, discovery.input[id]? = some model →
    model.tag ≠ discovery.missing.tag
  apart : ∀ (left right : ResourceId) model model', discovery.input[left]? = some model →
    discovery.input[right]? = some model' → model.tag = model'.tag → left = right

section

variable {files : Table ResourceId ModelDef} {discovery : Discovery}

theorem Holds.parent?_eq (holds : Holds files discovery) :
    parent? discovery.input = Direct.parent? files := by
  funext id
  unfold parent? Direct.parent? Direct.own?
  by_cases missing : id = ModelDef.missingId
  · rw [if_pos missing, if_pos missing, Option.bind_none]
  · rw [if_neg missing, if_neg missing, ← holds.values id]
    cases discovery.input[id]? with
    | none => rfl
    | some model => rfl

theorem Holds.usable?_of_unusable (holds : Holds files discovery) {id : ResourceId}
    (unusable : Unusable discovery.input id) : Direct.usable? files id = none := by
  unfold Direct.usable? Direct.own?
  rcases unusable with missing | absent | loop
  · rw [if_pos missing, ite_self]
  · rw [← holds.values id, absent, Option.map_none, ite_self, ite_self]
  · rw [holds.parent?_eq] at loop
    rw [if_pos (Direct.isOnLoop_iff.mpr loop)]

theorem Holds.usable?_of_usable (holds : Holds files discovery) {id : ResourceId}
    (usable : ¬ Unusable discovery.input id) {model : Shared ModelDef}
    (held : discovery.input[id]? = some model) :
    Direct.usable? files id = some model.value := by
  unfold Unusable at usable
  push Not at usable
  obtain ⟨unmissing, _, offLoop⟩ := usable
  rw [holds.parent?_eq, ← Direct.isOnLoop_iff] at offLoop
  rw [Direct.usable?, if_neg offLoop, Direct.own?, if_neg unmissing, ← holds.values id, held,
    Option.map_some]

end

section Following

variable {asked : List ResourceId} {files : Table ResourceId ModelDef} {discovery : Discovery}

/-- No two ids share an instance. -/
theorem Holds.coherent (holds : Holds files discovery) :
    Coherent discovery.input discovery.missing := by
  rintro left right (rfl | ⟨id, held⟩) (rfl | ⟨id', held'⟩) sameTag
  · rfl
  · exact absurd sameTag.symm (holds.unmissing id' right held')
  · exact absurd sameTag (holds.unmissing id left held)
  · obtain rfl := holds.apart id id' left right held held' sameTag
    exact Option.some.inj (held.symm.trans held')

variable {behind : List ResourceId} {id : ResourceId}

theorem exists_lineage_eq_cons (files : Table ResourceId ModelDef) (new : id ∉ behind) :
    ∃ above, Direct.lineage files behind id = id :: above := by
  cases up : Direct.parent? files id with
  | none => exact ⟨[], Direct.lineage_of_none new up⟩
  | some parent => exact ⟨_, Direct.lineage_of_some new up⟩

/-- The way up from an id meets the definitions of its lineage. -/
theorem map_ancestry_eq_along (settled : Settled asked discovery) (holds : Holds files discovery)
    {ids : List ResourceId} (ancestry : (ModelSet.ofDiscovery discovery).Ancestry id ids)
    (climbed : Climbed discovery behind id) (referenced : id ∈ discovery.referenced) :
    (ids.map (ModelSet.ofDiscovery discovery).get).map Shared.value =
      Direct.along files (Direct.lineage files behind id) := by
  induction ancestry generalizing behind with
  | last id parentless =>
      by_cases unusable : Unusable discovery.input id
      · obtain ⟨above, lineage⟩ := exists_lineage_eq_cons files climbed.not_mem
        rw [lineage, Direct.along, holds.usable?_of_unusable unusable, List.map_singleton,
          List.map_singleton, settled.get_of_unusable referenced unusable, holds.missing]
      · obtain ⟨held, isParent⟩ := settled.get_of_usable referenced unusable
        have last : Direct.parent? files id = none := by
          rw [← holds.parent?_eq, ← isParent, parentless]
        rw [Direct.lineage_of_none climbed.not_mem last, Direct.along,
          holds.usable?_of_usable unusable held, Direct.along]
        rfl
  | onward id parent above isParent rest inductionHypothesis =>
      obtain ⟨usable, packParent⟩ := settled.usable_of_parent referenced isParent
      have onward := inductionHypothesis (climbed.cons referenced usable packParent)
        (settled.closed id parent referenced packParent)
      have fileParent : Direct.parent? files id = some parent := holds.parent?_eq ▸ packParent
      rw [Direct.lineage_of_some climbed.not_mem fileParent, Direct.along,
        holds.usable?_of_usable usable (settled.get_of_usable referenced usable).1, ← onward]
      rfl

/-- The chain of a referenced id is the one that the files give. -/
theorem chain_eq (settled : Settled asked discovery) (holds : Holds files discovery)
    (referenced : id ∈ discovery.referenced) :
    (ModelSet.ofDiscovery discovery).chain id = Direct.chain files id := by
  obtain ⟨ids, ancestry, _, chained⟩ :=
    chainOf_of_referenced settled holds.coherent referenced
  rw [ModelSet.chain, chained, Direct.chain]
  exact map_ancestry_eq_along settled holds ancestry (Climbed.start id) referenced

/-- An id that is not referenced stands for the missing model and nothing above
it. -/
theorem chain_of_unreferenced (parentless : discovery.missing.value.parent = none)
    (absent : id ∉ discovery.referenced) :
    (ModelSet.ofDiscovery discovery).chain id = [discovery.missing.value] := by
  rw [ModelSet.chain, (chainOf_of_unreferenced parentless absent).2, List.map_singleton]

end Following

end PackModels.Discovery
