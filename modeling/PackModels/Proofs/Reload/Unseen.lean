import PackModels.Proofs.Groups
import PackModels.Reload.Prepare

/-!
Contract: whether states may replace one another unseen is an equivalence.

Only the group of the state that is replaced is looked at for whether there is one,
and the fluids of both states are looked up only after that. This is enough, because
groups are made for the states of one registry: a state that is in a group is known
there, and a state in the same group is as well. So there is an answer for any two
handles, also for those that were taken from another registry, and a handle that the
registry does not know may replace nothing but itself.

Owns: `Within`, which ties groups to a registry, and `Steady`, what is answered about
all handles.

Does not own: what states of one group look like.
-/

namespace PackModels

namespace Groups

variable {groups : Groups} {registry : Registry}

/-- Whether only states of a registry are in groups. -/
def Within (groups : Groups) (registry : Registry) : Prop :=
  ∀ state, groups.group state ≠ .alone → state < registry.stateCount

theorem within_build (tints : TintSource) (registry : Registry) (bindings : BindingTable) :
    (build tints registry bindings).Within registry :=
  fun _ grouped => lt_of_group_ne_alone grouped

theorem within_empty (registry : Registry) : empty.Within registry :=
  fun state grouped => absurd (group_empty state) grouped

theorem Within.isSome_fluid? (within : groups.Within registry) {state : StateHandle}
    (grouped : groups.group state ≠ .alone) : (registry.fluid? state).isSome = true := by
  have known : state < registry.states.size := within state grouped
  have held : registry.state? state = some registry.states[state] :=
    Array.getElem?_eq_getElem known
  rw [Registry.fluid?, held]
  rfl

/-- A registry that does not know a handle is not asked for its fluid. -/
theorem Within.isSome_requiresRender? (within : groups.Within registry)
    (old new : StateHandle) : (groups.requiresRender? registry old new).isSome = true := by
  unfold requiresRender?
  by_cases one : old = new
  · rw [if_pos one]
    rfl
  · by_cases grouped : groups.group old = .alone ∨ groups.group old ≠ groups.group new
    · rw [if_neg one, if_pos grouped]
      rfl
    · obtain ⟨together, agree⟩ := not_or.mp grouped
      have same : groups.group old = groups.group new := Decidable.not_not.mp agree
      obtain ⟨before, isBefore⟩ := Option.isSome_iff_exists.mp (within.isSome_fluid? together)
      obtain ⟨after, isAfter⟩ :=
        Option.isSome_iff_exists.mp (within.isSome_fluid? (same ▸ together))
      rw [if_neg one, if_neg grouped, isBefore, isAfter]
      rfl

/-! ## States that are together -/

theorem Together.symm {old new : StateHandle} (together : groups.Together registry old new) :
    groups.Together registry new old := by
  rcases together with one | ⟨grouped, same, fluid, before, after⟩
  · exact .inl one.symm
  · exact .inr ⟨same ▸ grouped, same.symm, fluid, after, before⟩

theorem Together.trans {old next new : StateHandle}
    (first : groups.Together registry old next) (second : groups.Together registry next new) :
    groups.Together registry old new := by
  rcases first with one | ⟨grouped, same, fluid, before, between⟩
  · exact one ▸ second
  · rcases second with one | ⟨_, same', fluid', between', after⟩
    · exact .inr ⟨grouped, one ▸ same, fluid, before, one ▸ between⟩
    · obtain rfl : fluid = fluid' := Option.some.inj (between.symm.trans between')
      exact .inr ⟨grouped, same.trans same', fluid, before, after⟩

theorem Together.equivalence (groups : Groups) (registry : Registry) :
    Equivalence (groups.Together registry) where
  refl _ := .inl rfl
  symm := Together.symm
  trans := Together.trans

/-- A handle that is in no group is together with nothing but itself. -/
theorem Together.eq_of_alone {old new : StateHandle}
    (together : groups.Together registry old new) (lone : groups.group new = .alone) :
    old = new := by
  rcases together with one | ⟨grouped, same, _⟩
  · exact one
  · exact absurd (same.trans lone) grouped

end Groups

namespace Snapshot

/-- What is answered about replacing any handle by any other one. -/
structure Steady (snapshot : Snapshot) : Prop where
  answers : ∀ old new, (snapshot.requiresRender? old new).isSome = true
  equivalence : Equivalence (fun old new => snapshot.requiresRender? old new = some false)
  foreign : ∀ old new, snapshot.registry.stateCount ≤ new →
    snapshot.requiresRender? old new = some false → old = new

theorem steady_of_within {snapshot : Snapshot} (within : snapshot.groups.Within snapshot.registry) :
    snapshot.Steady where
  answers := within.isSome_requiresRender?
  equivalence := by
    simp only [requiresRender?, Groups.requiresRender?_eq_some_false_iff]
    exact Groups.Together.equivalence snapshot.groups snapshot.registry
  foreign old new outside skips := by
    have lone : snapshot.groups.group new = .alone := by
      by_contra grouped
      exact absurd (within new grouped) (Nat.not_lt_of_le outside)
    exact (Groups.requiresRender?_eq_some_false_iff.mp skips).eq_of_alone lone

end Snapshot

namespace Prepare

/-- However the stage of the groups ends, only states of the registry are in groups. -/
theorem within_groups (inputs : ReloadInputs) :
    (groups inputs).1.Within inputs.registry := by
  unfold groups
  cases inputs.tints with
  | some tints => exact Groups.within_build tints inputs.registry inputs.bindings
  | none =>
      dsimp only
      split
      · exact Groups.within_empty inputs.registry
      · exact Groups.within_build _ inputs.registry inputs.bindings

/-- Before the first reload and after any other one, every question whether a state
may replace another one unseen is answered, also for handles that the registry does
not know, and the answers are those of an equivalence. -/
theorem snapshot_steady :
    Snapshot.empty.Steady ∧ ∀ inputs : ReloadInputs, (snapshot inputs).1.Steady := by
  constructor
  · exact Snapshot.steady_of_within (Groups.within_empty Registry.empty)
  · intro inputs
    exact Snapshot.steady_of_within (within_groups inputs)

end Prepare

end PackModels
