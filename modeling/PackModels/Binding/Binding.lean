import PackModels.Geometry.Rotation
import PackModels.Id

/-!
Contract: what a block state is bound to before anything is baked.

A binding is one placed model, a choice between placed models by weight, or
several bindings drawn together. Equal bindings bake to the same thing, so
bindings can be compared.
-/

namespace PackModels

structure Variant where
  model : ResourceId
  placement : Placement
deriving DecidableEq, Hashable, Repr, Inhabited

/-- A placed model with its weight in a choice. -/
structure WeightedVariant where
  weight : UInt32
  variant : Variant
deriving DecidableEq, Repr, Inhabited

inductive Binding where
  | single (variant : Variant)
  | weighted (entries : List WeightedVariant)
  | composite (parts : List Binding)
deriving Inhabited

namespace Binding

mutual

def decideEq : (left right : Binding) → Decidable (left = right)
  | .single left, .single right =>
      decidable_of_iff (left = right) (by simp)
  | .weighted left, .weighted right =>
      decidable_of_iff (left = right) (by simp)
  | .composite left, .composite right =>
      match decideEqParts left right with
      | isTrue equal => isTrue (by rw [equal])
      | isFalse different => isFalse (by simpa using different)
  | .single _, .weighted _ => isFalse (by simp)
  | .single _, .composite _ => isFalse (by simp)
  | .weighted _, .single _ => isFalse (by simp)
  | .weighted _, .composite _ => isFalse (by simp)
  | .composite _, .single _ => isFalse (by simp)
  | .composite _, .weighted _ => isFalse (by simp)

def decideEqParts : (left right : List Binding) → Decidable (left = right)
  | [], [] => isTrue rfl
  | [], _ :: _ => isFalse (by simp)
  | _ :: _, [] => isFalse (by simp)
  | left :: leftRest, right :: rightRest =>
      match decideEq left right, decideEqParts leftRest rightRest with
      | isTrue headEqual, isTrue tailEqual => isTrue (by rw [headEqual, tailEqual])
      | isFalse different, _ => isFalse (by simp [different])
      | _, isFalse different => isFalse (by simp [different])

end

instance : DecidableEq Binding :=
  decideEq

mutual

def variants : Binding → List Variant
  | .single variant => [variant]
  | .weighted entries => entries.map WeightedVariant.variant
  | .composite parts => variantsOfParts parts

def variantsOfParts : List Binding → List Variant
  | [] => []
  | part :: rest => part.variants ++ variantsOfParts rest

end

/-- Weights and the way in which parts are nested do not count. -/
instance : Hashable Binding :=
  ⟨fun binding => hash binding.variants⟩

/-- The models that a binding depends on, from left to right. -/
def models (binding : Binding) : List ResourceId :=
  binding.variants.map Variant.model

end Binding

end PackModels
