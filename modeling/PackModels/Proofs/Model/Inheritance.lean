import PackModels.Baking.Bake
import PackModels.Proofs.Model.References

/-!
Contract: a chain of models comes to what its merged model comes to.

Merging a model over a base keeps what the model declares and takes the rest
from the base, value by value. Whatever is read off a chain is the first value
that one of its models declares, so the models of a chain from some point on
can be merged into one, and a model that declares nothing makes no difference.
What is done with the values afterwards, following references between slots and
showing a left hand like the right one, looks at the chain as a whole and never
at its single models.

Owns: `ModelDef.mergedOver`, `ModelDef.merged`, and that every value is inheritable.

Does not own: what a slot is resolved to (`SlotTable.material?_resolve_iff`).
-/

namespace PackModels

namespace ModelDef

/-- A model merged over a base: a list of elements is declared even if it is
empty. -/
def mergedOver (definition base : ModelDef) : ModelDef where
  parent := base.parent
  textures := base.textures ∪ definition.textures
  ambientOcclusion := definition.ambientOcclusion.or base.ambientOcclusion
  guiLight := definition.guiLight.or base.guiLight
  display := base.display ∪ definition.display
  elements := definition.elements.or base.elements

/-- The models of a chain, the most derived one first, merged into one. -/
def merged (chain : List ModelDef) : ModelDef :=
  chain.foldr mergedOver blank

/-- A value that a model takes from its base where it does not declare it. -/
structure Inheritable {Value : Type} (declared? : ModelDef → Option Value) : Prop where
  inherits : ∀ definition base,
    declared? (definition.mergedOver base) = (declared? definition).or (declared? base)
  silent : ∀ parent, declared? { blank with parent := parent } = none

/-! ## The values that are inherited -/

theorem inheritable_slot (slot : String) :
    Inheritable (fun definition => definition.textures[slot]?) where
  inherits := fun _ _ => Std.ExtTreeMap.getElem?_union
  silent := fun _ => Std.ExtTreeMap.getElem?_empty

theorem inheritable_ambientOcclusion : Inheritable ModelDef.ambientOcclusion where
  inherits := fun _ _ => rfl
  silent := fun _ => rfl

theorem inheritable_guiLight : Inheritable ModelDef.guiLight where
  inherits := fun _ _ => rfl
  silent := fun _ => rfl

theorem inheritable_display (context : DisplayContext) :
    Inheritable (fun definition => definition.display[context]?) where
  inherits := fun _ _ => Std.ExtTreeMap.getElem?_union
  silent := fun _ => Std.ExtTreeMap.getElem?_empty

theorem inheritable_elements : Inheritable ModelDef.elements where
  inherits := fun _ _ => rfl
  silent := fun _ => rfl

/-! ## First declarations -/

section

variable {Value : Type} {declared? : ModelDef → Option Value}

/-- A merged model declares what the first model of the chain to declare it
does. -/
theorem Inheritable.merged (inheritable : Inheritable declared?) (chain : List ModelDef) :
    declared? (ModelDef.merged chain) = chain.findSome? declared? := by
  induction chain with
  | nil => exact inheritable.silent none
  | cons definition rest inductionHypothesis =>
      have step : ModelDef.merged (definition :: rest) =
          definition.mergedOver (ModelDef.merged rest) := rfl
      rw [step, inheritable.inherits, inductionHypothesis, List.findSome?_cons]
      cases declared? definition with
      | none => rfl
      | some value => rfl

theorem Inheritable.findSome?_merged (inheritable : Inheritable declared?)
    (front back : List ModelDef) :
    (front ++ [ModelDef.merged back]).findSome? declared? =
      (front ++ back).findSome? declared? := by
  rw [List.findSome?_append, List.findSome?_append, List.findSome?_singleton,
    inheritable.merged]

theorem Inheritable.findSome?_silent (inheritable : Inheritable declared?)
    (front back : List ModelDef) (parent : Option ResourceId) :
    (front ++ { blank with parent := parent } :: back).findSome? declared? =
      (front ++ back).findSome? declared? := by
  rw [List.findSome?_append, List.findSome?_append, List.findSome?_cons,
    inheritable.silent parent]

end

end ModelDef

/-! ## What a chain comes to -/

/-- Two chains that declare every inheritable value alike. -/
def SameDeclared (chain chain' : List ModelDef) : Prop :=
  ∀ {Value : Type} (declared? : ModelDef → Option Value), ModelDef.Inheritable declared? →
    chain.findSome? declared? = chain'.findSome? declared?

section

variable {chain chain' : List ModelDef}

theorem SameDeclared.slots (same : SameDeclared chain chain') :
    SlotTable.resolve chain = SlotTable.resolve chain' := by
  have bindings : SlotTable.bindings chain = SlotTable.bindings chain' := by
    apply Std.ExtTreeMap.ext_getElem?
    intro slot
    rw [SlotTable.getElem?_bindings, SlotTable.getElem?_bindings]
    exact same _ (ModelDef.inheritable_slot slot)
  rw [SlotTable.resolve, SlotTable.resolve, bindings]

theorem SameDeclared.display (same : SameDeclared chain chain') (context : DisplayContext) :
    Transforms.declared? (chain.map ModelDef.display) context =
      Transforms.declared? (chain'.map ModelDef.display) context := by
  rw [Transforms.declared?, Transforms.declared?, List.findSome?_map, List.findSome?_map]
  exact same _ (ModelDef.inheritable_display context)

theorem SameDeclared.transforms (same : SameDeclared chain chain') :
    Transforms.resolve (chain.map ModelDef.display) =
      Transforms.resolve (chain'.map ModelDef.display) := by
  funext context
  unfold Transforms.resolve
  simp only [same.display]

/-- What is declared first decides everything that a chain comes to. -/
theorem SameDeclared.ofChain_eq (same : SameDeclared chain chain') :
    Inherited.ofChain chain = Inherited.ofChain chain' := by
  unfold Inherited.ofChain
  rw [same.slots, same.transforms, same _ ModelDef.inheritable_ambientOcclusion,
    same _ ModelDef.inheritable_guiLight, same _ ModelDef.inheritable_elements]

theorem SameDeclared.bake_eq (same : SameDeclared chain chain') (atlases : AtlasSet)
    (name : String) (placement : Placement) (misses : Misses) :
    Bake.chain atlases name chain placement misses =
      Bake.chain atlases name chain' placement misses := by
  unfold Bake.chain
  rw [same.ofChain_eq]

end

/-- From any point on, the models of a chain can be merged into one without a
change to anything that the chain comes to; so a chain is baked like its merged
model, and models that declare nothing can stand anywhere in it. -/
theorem Inherited.ofChain_merged (front back : List ModelDef) :
    Inherited.ofChain (front ++ [ModelDef.merged back]) = Inherited.ofChain (front ++ back) ∧
    (∀ (atlases : AtlasSet) (name : String) (placement : Placement) (misses : Misses),
      Bake.chain atlases name [ModelDef.merged (front ++ back)] placement misses =
        Bake.chain atlases name (front ++ back) placement misses) ∧
    (∀ parent : Option ResourceId,
      Inherited.ofChain (front ++ { ModelDef.blank with parent := parent } :: back) =
        Inherited.ofChain (front ++ back)) := by
  refine ⟨?_, ?_, ?_⟩
  · apply SameDeclared.ofChain_eq
    intro Value declared? inheritable
    exact inheritable.findSome?_merged front back
  · apply SameDeclared.bake_eq
    intro Value declared? inheritable
    exact inheritable.findSome?_merged [] (front ++ back)
  · intro parent
    apply SameDeclared.ofChain_eq
    intro Value declared? inheritable
    exact inheritable.findSome?_silent front back parent

end PackModels
