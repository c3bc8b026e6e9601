import PackModels.Proofs.Discovery.Coverage

/-!
Contract: following parents through a finished discovery meets every ancestor.

The way up from an id goes on until an id stands for a model without a parent.
A chain goes the same way, but it would stop where an instance comes for the
second time, and several ids of a pack may share one instance. Two ids that
share one have the same parent. So if the way up led from the first one to the
second, it would go on from there to where it came from, and the second one
would lie on a loop. But then it stands for the missing model, from which
nothing is followed. No chain is cut short.

Owns: the way up from an id, and that chains go all of it, whichever instances
are shared.

Does not own: which definitions of the files these are (`Discovery.chain_eq`).
-/

namespace PackModels

/-- The ids on the way up from an id, until one stands for a model without a
parent. -/
inductive ModelSet.Ancestry (set : ModelSet) : ResourceId → List ResourceId → Prop where
  | last (id : ResourceId) (parentless : (set.get id).value.parent = none) :
      Ancestry set id [id]
  | onward (id parent : ResourceId) (above : List ResourceId)
      (isParent : (set.get id).value.parent = some parent) (rest : Ancestry set parent above) :
      Ancestry set id (id :: above)

/-- There is one way up from an id. -/
theorem ModelSet.Ancestry.unique {set : ModelSet} {id : ResourceId}
    {ids others : List ResourceId} (ancestry : set.Ancestry id ids)
    (other : set.Ancestry id others) : others = ids := by
  induction ancestry generalizing others with
  | last id parentless =>
      cases other with
      | last => rfl
      | onward _ parent above isParent =>
          rw [parentless] at isParent
          cases isParent
  | onward id parent above isParent rest inductionHypothesis =>
      cases other with
      | last _ parentless =>
          rw [isParent] at parentless
          cases parentless
      | onward _ parent' above' isParent' rest' =>
          obtain rfl := Option.some.inj (isParent.symm.trans isParent')
          rw [inductionHypothesis rest']

/-- Only at its end does the way up meet a model without a parent. -/
theorem ModelSet.Ancestry.last_of_parentless {set : ModelSet} {id upper : ResourceId}
    {front back : List ResourceId} (ancestry : set.Ancestry id (front ++ upper :: back))
    (parentless : (set.get upper).value.parent = none) : back = [] := by
  induction front generalizing id with
  | nil =>
      cases ancestry with
      | last => rfl
      | onward _ parent _ isParent rest =>
          rw [parentless] at isParent
          cases isParent
  | cons lower front inductionHypothesis =>
      cases split : front ++ upper :: back with
      | nil => simp at split
      | cons next rest =>
          rw [List.cons_append, split] at ancestry
          cases ancestry with
          | onward _ parent _ isParent above => exact inductionHypothesis (split ▸ above)

theorem ModelSet.chainOf_of_parentless {set : ModelSet} {id : ResourceId}
    (parentless : (set.get id).value.parent = none) : set.chainOf id = [set.get id] := by
  rw [chainOf, follow, parentless]
  rfl

namespace Discovery

open PackModels.Lineage

/-- An instance that a discovery can hand out: the missing model, or one of the
pack. -/
def Stocks (input : Table ResourceId (Shared ModelDef)) (missing model : Shared ModelDef) :
    Prop :=
  model = missing ∨ ∃ id : ResourceId, input[id]? = some model

/-- Holders of one instance hold one model. Any number of ids may share an
instance. -/
def Coherent (input : Table ResourceId (Shared ModelDef)) (missing : Shared ModelDef) : Prop :=
  ∀ left right, Stocks input missing left → Stocks input missing right →
    left.tag = right.tag → left = right

section Following

variable {asked : List ResourceId} {discovery : Discovery}

theorem Settled.get_of_unusable (settled : Settled asked discovery) {id : ResourceId}
    (referenced : id ∈ discovery.referenced) (unusable : Unusable discovery.input id) :
    (ModelSet.ofDiscovery discovery).get id = discovery.missing := by
  rw [ModelSet.get, ModelSet.ofDiscovery, settled.getElem?_of_unusable referenced unusable,
    Option.getD_some]

/-- A usable id stands for its own model and is followed as the pack says. -/
theorem Settled.get_of_usable (settled : Settled asked discovery) {id : ResourceId}
    (referenced : id ∈ discovery.referenced) (usable : ¬ Unusable discovery.input id) :
    discovery.input[id]? = some ((ModelSet.ofDiscovery discovery).get id) ∧
      ((ModelSet.ofDiscovery discovery).get id).value.parent = parent? discovery.input id := by
  have present : discovery.input[id]? ≠ none := fun absent => usable (.inr (.inl absent))
  obtain ⟨model, held⟩ := Option.ne_none_iff_exists'.mp present
  have stands : (ModelSet.ofDiscovery discovery).get id = model := by
    rw [ModelSet.get, ModelSet.ofDiscovery, settled.getElem?_of_usable referenced usable, held,
      Option.getD_some]
  rw [stands]
  refine ⟨held, ?_⟩
  rw [parent?, if_neg fun missing => usable (.inl missing), held, Option.bind_some]

theorem get_of_unreferenced {id : ResourceId} (absent : id ∉ discovery.referenced) :
    (ModelSet.ofDiscovery discovery).get id = discovery.missing := by
  rw [ModelSet.get, ModelSet.ofDiscovery, Std.ExtTreeMap.getElem?_eq_none absent,
    Option.getD_none]

theorem Settled.stocks_get (settled : Settled asked discovery) (id : ResourceId) :
    Stocks discovery.input discovery.missing ((ModelSet.ofDiscovery discovery).get id) := by
  by_cases referenced : id ∈ discovery.referenced
  · by_cases unusable : Unusable discovery.input id
    · exact .inl (settled.get_of_unusable referenced unusable)
    · exact .inr ⟨id, (settled.get_of_usable referenced unusable).1⟩
  · exact .inl (get_of_unreferenced referenced)

/-- Only a usable id is followed, and to the parent that the pack gives it. -/
theorem Settled.usable_of_parent (settled : Settled asked discovery) {id parent : ResourceId}
    (referenced : id ∈ discovery.referenced)
    (isParent : ((ModelSet.ofDiscovery discovery).get id).value.parent = some parent) :
    ¬ Unusable discovery.input id ∧ IsParent (parent? discovery.input) id parent := by
  by_cases unusable : Unusable discovery.input id
  · rw [settled.get_of_unusable referenced unusable, settled.parentless] at isParent
    cases isParent
  · exact ⟨unusable, (settled.get_of_usable referenced unusable).2.symm.trans isParent⟩

/-- The ids that were gone through on the way up to an id. -/
structure Climbed (discovery : Discovery) (behind : List ResourceId) (id : ResourceId) :
    Prop where
  distinct : behind.Nodup
  referenced : ∀ lower ∈ behind, lower ∈ discovery.referenced
  usable : ∀ lower ∈ behind, ¬ Unusable discovery.input lower
  leads : ∀ lower ∈ behind,
    Relation.TransGen (IsParent (parent? discovery.input)) lower id

theorem Climbed.start (id : ResourceId) : Climbed discovery [] id := by
  refine ⟨List.nodup_nil, ?_, ?_, ?_⟩ <;>
  · intro _ member
    cases member

variable {behind : List ResourceId} {id : ResourceId}

theorem Climbed.not_mem (climbed : Climbed discovery behind id) : id ∉ behind := by
  intro met
  exact climbed.usable id met (.inr (.inr (climbed.leads id met)))

theorem Climbed.length_le (climbed : Climbed discovery behind id) :
    behind.length ≤ discovery.referenced.size :=
  Table.length_le_size climbed.distinct climbed.referenced

/-- Going on to the parent of a usable id. -/
theorem Climbed.cons (climbed : Climbed discovery behind id)
    (referenced : id ∈ discovery.referenced) (usable : ¬ Unusable discovery.input id)
    {parent : ResourceId} (isParent : IsParent (parent? discovery.input) id parent) :
    Climbed discovery (id :: behind) parent where
  distinct := List.nodup_cons.mpr ⟨climbed.not_mem, climbed.distinct⟩
  referenced := by
    intro lower member
    rcases List.mem_cons.mp member with same | before
    · exact same ▸ referenced
    · exact climbed.referenced lower before
  usable := by
    intro lower member
    rcases List.mem_cons.mp member with same | before
    · exact same ▸ usable
    · exact climbed.usable lower before
  leads := by
    intro lower member
    rcases List.mem_cons.mp member with same | before
    · exact same ▸ .single isParent
    · exact (climbed.leads lower before).tail isParent

/-- The instance of an id was not seen on the way up to it. An id below that
shared it would have the same parent, which would close a loop. -/
theorem Climbed.unseen (climbed : Climbed discovery behind id)
    (settled : Settled asked discovery)
    (coherent : Coherent discovery.input discovery.missing)
    (referenced : id ∈ discovery.referenced) :
    ((ModelSet.ofDiscovery discovery).get id).tag ∉
      behind.map (fun lower => ((ModelSet.ofDiscovery discovery).get lower).tag) := by
  intro met
  obtain ⟨lower, member, sameTag⟩ := List.mem_map.mp met
  have lowerReferenced := climbed.referenced lower member
  have shared := coherent _ _ (settled.stocks_get lower) (settled.stocks_get id) sameTag
  obtain ⟨parent, isParent, reaches⟩ :=
    Relation.TransGen.head'_iff.mp (climbed.leads lower member)
  have lowerParent :=
    (settled.get_of_usable lowerReferenced (climbed.usable lower member)).2.trans isParent
  obtain ⟨usable, idParent⟩ := settled.usable_of_parent referenced (shared ▸ lowerParent)
  exact usable (.inr (.inr (.head' idParent reaches)))

/-- Following parents goes all of the way up. The number of steps cannot run
out: the ids gone through are distinct. -/
theorem exists_ancestry (settled : Settled asked discovery)
    (coherent : Coherent discovery.input discovery.missing) (steps : Nat)
    (climbed : Climbed discovery behind id) (referenced : id ∈ discovery.referenced)
    (enough : discovery.referenced.size + 1 ≤ steps + behind.length) :
    ∃ ids, (ModelSet.ofDiscovery discovery).Ancestry id ids ∧
      (∀ upper ∈ ids, upper ∈ discovery.referenced) ∧
      (ModelSet.ofDiscovery discovery).follow steps
          (behind.map (fun lower => ((ModelSet.ofDiscovery discovery).get lower).tag))
          ((ModelSet.ofDiscovery discovery).get id) =
        ids.map (ModelSet.ofDiscovery discovery).get := by
  induction steps generalizing behind id with
  | zero =>
      -- The ids gone through are distinct and referenced, so there are not that many.
      have bound := climbed.length_le
      omega
  | succ steps inductionHypothesis =>
      have unseen := climbed.unseen settled coherent referenced
      rw [ModelSet.follow, if_neg (by simpa using unseen)]
      cases above : ((ModelSet.ofDiscovery discovery).get id).value.parent with
      | none =>
          refine ⟨[id], .last id above, ?_, rfl⟩
          intro upper member
          rw [List.mem_singleton.mp member]
          exact referenced
      | some parent =>
          obtain ⟨usable, isParent⟩ := settled.usable_of_parent referenced above
          obtain ⟨ids, ancestry, allReferenced, followed⟩ :=
            inductionHypothesis (climbed.cons referenced usable isParent)
              (settled.closed id parent referenced isParent)
              (by simp only [List.length_cons]; omega)
          refine ⟨id :: ids, .onward id parent ids above ancestry, ?_, ?_⟩
          · intro upper member
            rcases List.mem_cons.mp member with same | higher
            · exact same ▸ referenced
            · exact allReferenced upper higher
          · simp only [List.map_cons] at followed
            simp only [followed, List.map_cons]

/-- The chain of a referenced id holds the model of every id on the way up. -/
theorem chainOf_of_referenced (settled : Settled asked discovery)
    (coherent : Coherent discovery.input discovery.missing)
    (referenced : id ∈ discovery.referenced) :
    ∃ ids, (ModelSet.ofDiscovery discovery).Ancestry id ids ∧
      (∀ upper ∈ ids, upper ∈ discovery.referenced) ∧
      (ModelSet.ofDiscovery discovery).chainOf id =
        ids.map (ModelSet.ofDiscovery discovery).get := by
  refine exists_ancestry settled coherent _ (Climbed.start id) referenced ?_
  show discovery.referenced.size + 1 ≤ discovery.referenced.size + 2 + 0
  omega

/-- An id that is not referenced stands for the missing model and nothing above
it. -/
theorem chainOf_of_unreferenced (parentless : discovery.missing.value.parent = none)
    (absent : id ∉ discovery.referenced) :
    (ModelSet.ofDiscovery discovery).Ancestry id [id] ∧
      (ModelSet.ofDiscovery discovery).chainOf id = [discovery.missing] := by
  have stands := get_of_unreferenced absent
  have unparented : ((ModelSet.ofDiscovery discovery).get id).value.parent = none := by
    rw [stands, parentless]
  refine ⟨.last id unparented, ?_⟩
  rw [ModelSet.chainOf_of_parentless unparented, stands]

end Following

/-- The chain of any id holds exactly the models on its way up, whichever ids of
the pack share an instance: it goes on until there is no parent, it stays among
the referenced ids once it is there, and only its last model can be the missing
one. -/
theorem chainOf_exact (input : Table ResourceId (Shared ModelDef)) (missing : Shared ModelDef)
    (parentless : missing.value.parent = none) (coherent : Coherent input missing)
    (roots : List (List ResourceId)) (id : ResourceId) :
    let found := ((start input missing).visitAll roots.flatten).1
    let set := ModelSet.ofDiscovery found
    (∃ ids, set.Ancestry id ids ∧ (∀ others, set.Ancestry id others → others = ids) ∧
      set.chainOf id = ids.map set.get ∧
      (id ∈ found.referenced → ∀ upper ∈ ids, upper ∈ found.referenced)) ∧
    (∀ front model back, set.chainOf id = front ++ model :: back →
      model.same missing = true ∨ model.value = missing.value → back = []) ∧
    (id ∉ found.referenced → set.chainOf id = [missing]) := by
  intro found set
  obtain ⟨settled, sameInput, sameMissing⟩ :=
    (settled_start input parentless).visitAll roots.flatten
  rw [List.nil_append] at settled
  change Settled roots.flatten found at settled
  change found.input = input at sameInput
  change found.missing = missing at sameMissing
  rw [← sameInput, ← sameMissing] at coherent
  obtain ⟨ids, ancestry, chained, stays⟩ : ∃ ids, set.Ancestry id ids ∧
      set.chainOf id = ids.map set.get ∧
      (id ∈ found.referenced → ∀ upper ∈ ids, upper ∈ found.referenced) := by
    by_cases referenced : id ∈ found.referenced
    · obtain ⟨ids, ancestry, stays, chained⟩ := chainOf_of_referenced settled coherent referenced
      exact ⟨ids, ancestry, chained, fun _ => stays⟩
    · obtain ⟨ancestry, chained⟩ := chainOf_of_unreferenced settled.parentless referenced
      refine ⟨[id], ancestry, ?_, fun member => absurd member referenced⟩
      rw [chained, List.map_singleton, get_of_unreferenced referenced]
  refine ⟨⟨ids, ancestry, fun others other => ancestry.unique other, chained, stays⟩, ?_, ?_⟩
  · intro front model back split isMissing
    obtain ⟨lower, rest, rfl, _, restMapped⟩ :=
      List.map_eq_append_iff.mp (chained.symm.trans split)
    obtain ⟨upper, above, rfl, met, rfl⟩ := List.map_eq_cons_iff.mp restMapped
    have unparented : (set.get upper).value.parent = none := by
      rcases isMissing with sameTag | sameValue
      · have tags : (set.get upper).tag = found.missing.tag := by
          rw [met, sameMissing]
          exact beq_iff_eq.mp sameTag
        rw [coherent _ _ (settled.stocks_get upper) (.inl rfl) tags, settled.parentless]
      · rw [met, sameValue, parentless]
    rw [ancestry.last_of_parentless unparented, List.map_nil]
  · intro absent
    rw [(chainOf_of_unreferenced settled.parentless absent).2, sameMissing]

/-- An id may share its instance with its parent. -/
theorem chainOf_exact_sharedInstance :
    let missing : Shared ModelDef := ⟨0, ModelDef.missing⟩
    let stem : ResourceId := ⟨"pack", "stem"⟩
    let leaf : ResourceId := ⟨"pack", "leaf"⟩
    let own : Shared ModelDef := ⟨1, { ModelDef.blank with parent := some stem }⟩
    let pack : Table ResourceId (Shared ModelDef) := Table.ofPairs [(stem, own), (leaf, own)]
    let set := ModelSet.ofDiscovery ((start pack missing).visitAll [leaf]).1
    missing.value.parent = none ∧ Coherent pack missing ∧
      ∃ ids, set.Ancestry leaf ids ∧ set.chainOf leaf = ids.map set.get := by
  intro missing stem leaf own pack set
  have only : ∀ model, Stocks pack missing model → model = missing ∨ model = own := by
    rintro model (same | ⟨id, held⟩)
    · exact .inl same
    · rw [Table.getElem?_ofPairs, Option.map_eq_some_iff] at held
      obtain ⟨entry, last, rfl⟩ := held
      have member := (List.mem_filter.mp (List.mem_of_getLast? last)).1
      simp only [List.mem_cons, List.not_mem_nil, or_false] at member
      rcases member with rfl | rfl
      · exact .inr rfl
      · exact .inr rfl
  have coherent : Coherent pack missing := by
    intro left right stocks stocks' sameTag
    rcases only left stocks with rfl | rfl
    · rcases only right stocks' with rfl | rfl
      · rfl
      · cases sameTag
    · rcases only right stocks' with rfl | rfl
      · cases sameTag
      · rfl
  obtain ⟨⟨ids, ancestry, _, chained, _⟩, _⟩ :=
    chainOf_exact pack missing rfl coherent [[leaf]] leaf
  exact ⟨rfl, coherent, ids, ancestry, chained⟩

end Discovery

end PackModels
