import PackModels.Proofs.Direct.Snapshot
import PackModels.Proofs.Groups

/-!
Contract: a state that is not drawn again for another one would be drawn the
same.

Groups are made from bindings before anything is baked, and what a state draws
comes from the bakes of its binding. Both are decided by the binding alone,
even where it cannot be baked, since one cache accounts for all states. So
states of one group draw the very same instances with the same tints.
-/

namespace PackModels.Prepare

open Direct

variable {inputs : ReloadInputs}

/-- What was baked for a state depends on its binding alone. -/
theorem bakedFor?_eq_of_bindingOf? {old new : StateHandle}
    (same : Look.bindingOf? inputs.registry inputs.bindings old =
      Look.bindingOf? inputs.registry inputs.bindings new) :
    bakedFor? inputs.registry (batch inputs).stateModels old =
      bakedFor? inputs.registry (batch inputs).stateModels new := by
  obtain ⟨last, complete⟩ := batch_complete inputs
  have told : ∀ state, bakedFor? inputs.registry (batch inputs).stateModels state =
      (Look.bindingOf? inputs.registry inputs.bindings state).bind
        (Binding.assemble last.find) := by
    intro state
    unfold bakedFor? Look.bindingOf?
    cases inputs.registry.stateId? state with
    | none => rw [Option.bind_none, Option.bind_none, Option.bind_none]
    | some id =>
        rw [Option.bind_some, Option.bind_some]
        exact complete.stateModels_eq id
  rw [told, told, same]

theorem stateModel_of_unbaked {state : StateHandle} (unbaked : baked? inputs state = none) :
    (snapshot inputs).1.stateModel state = .single (snapshot inputs).1.missingModel := by
  rw [← map_bakedFor?, Option.map_eq_none_iff] at unbaked
  rw [snapshot_stateModel, unbaked, Option.getD_none]
  rfl

/-- The groups of a reload put states together only where they look the same. -/
theorem same_look {old new : StateHandle}
    (together : (groups inputs).1.group old ≠ .alone)
    (same : (groups inputs).1.group old = (groups inputs).1.group new) :
    (Look.isInvisible inputs.registry old = true ∧
        Look.isInvisible inputs.registry new = true) ∨
      ∃ tints look, inputs.tints = some tints ∧
        Look.ofState? tints inputs.registry inputs.bindings old = some look ∧
        Look.ofState? tints inputs.registry inputs.bindings new = some look := by
  unfold groups at together same
  cases source : inputs.tints with
  | some tints =>
      rw [source] at together same
      rcases Groups.same_look together same with hidden | ⟨look, hasOld, hasNew⟩
      · exact .inl hidden
      · exact .inr ⟨tints, look, rfl, hasOld, hasNew⟩
  | none =>
      rw [source] at together same
      dsimp only at together same
      by_cases asks : Groups.asksForTints inputs.registry = true
      · rw [if_pos asks] at together
        exact absurd (Groups.group_empty old) together
      · rw [if_neg asks] at together same
        rcases Groups.same_look together same with hidden | ⟨look, hasOld, _⟩
        · exact .inl hidden
        · -- Without a source of tints no state is visible, so none has a look.
          have visible := (Groups.of_ofState? hasOld).1
          exact absurd
            (Groups.asksForTints_of_visible (Groups.lt_of_group_ne_alone together) visible) asks

/-- Where a state need not be drawn again for another one, both hold the same
fluid, and either both draw nothing or they draw the same instances with the
same tints. A binding that cannot be baked gives every state the missing model. -/
theorem requiresRender?_sound (inputs : ReloadInputs) {old new : StateHandle}
    (distinct : old ≠ new)
    (skips : (snapshot inputs).1.requiresRender? old new = some false) :
    (∃ fluid, inputs.registry.fluid? old = some fluid ∧
      inputs.registry.fluid? new = some fluid) ∧
    ((Look.isInvisible inputs.registry old = true ∧
        Look.isInvisible inputs.registry new = true) ∨
      ((snapshot inputs).1.stateModel old = (snapshot inputs).1.stateModel new ∧
        ∃ tints, inputs.tints = some tints ∧
          Look.tintsOf tints inputs.registry old = Look.tintsOf tints inputs.registry new)) ∧
    (∀ state binding, Look.bindingOf? inputs.registry inputs.bindings state = some binding →
      Binding.assemble (bake? inputs) binding = none →
        (snapshot inputs).1.stateModel state = .single (snapshot inputs).1.missingModel) := by
  obtain ⟨together, same, fluids⟩ :=
    (Groups.requiresRender?_eq_some_false_iff.mp skips).resolve_left distinct
  refine ⟨fluids, ?looks, ?failing⟩
  case looks =>
    rcases same_look together same with hidden | ⟨tints, look, source, hasOld, hasNew⟩
    · exact .inl hidden
    · obtain ⟨_, boundOld, tintsOld⟩ := Groups.of_ofState? hasOld
      obtain ⟨_, boundNew, tintsNew⟩ := Groups.of_ofState? hasNew
      have baked := bakedFor?_eq_of_bindingOf? (boundOld.trans boundNew.symm)
      refine .inr ⟨?_, tints, source, tintsOld.trans tintsNew.symm⟩
      rw [snapshot_stateModel, snapshot_stateModel, baked]
  case failing =>
    intro state binding bound fails
    apply stateModel_of_unbaked
    rw [baked?, bound, Option.bind_some, fails]

/-- Two blocks without properties that are bound to one model. -/
def twoBlocks : ReloadInputs where
  models := ∅
  registry :=
    ⟨#[⟨.new ⟨"pack", "stone"⟩, 0, 1⟩, ⟨.new ⟨"pack", "brick"⟩, 1, 1⟩],
      #[⟨0, [], .empty⟩, ⟨1, [], .empty⟩],
      Table.ofPairs [(⟨"pack", "stone"⟩, 0), (⟨"pack", "brick"⟩, 1)]⟩
  bindings :=
    Table.ofPairs
      [(⟨⟨"pack", "stone"⟩, ""⟩, .single ⟨⟨"pack", "model"⟩, Placement.identity⟩),
        (⟨⟨"pack", "brick"⟩, ""⟩, .single ⟨⟨"pack", "model"⟩, Placement.identity⟩)]
  items := ∅
  tints := some (fun _ => [])
  stitched := none

/-- One block replaces the other unseen, whatever becomes of the model. -/
theorem requiresRender?_sound_twoBlocks :
    (0 : StateHandle) ≠ 1 ∧ (snapshot twoBlocks).1.requiresRender? 0 1 = some false ∧
      (snapshot twoBlocks).1.stateModel 0 = (snapshot twoBlocks).1.stateModel 1 := by
  have looks : ∀ state : StateHandle, state = 0 ∨ state = 1 →
      Look.ofState? (fun _ => []) twoBlocks.registry twoBlocks.bindings state =
        some ⟨.single ⟨⟨"pack", "model"⟩, Placement.identity⟩, []⟩ := by
    rintro state (rfl | rfl) <;> decide
  have number : ∀ look : Look, (Look.numbers [look, look])[look]? = some 1 := by
    intro look
    have counted : (Look.counts [look, look]).getD look 0 = 2 := by
      simp [Look.counts]
    unfold Look.numbers
    simp only [counted, List.foldl_cons, List.foldl_nil, Nat.one_lt_two, if_true]
    rw [Std.HashMap.getElem?_insertIfNew, if_neg (by simp), Std.HashMap.getElem?_insertIfNew,
      if_pos (by simp)]
    rfl
  have grouped : ∀ state : StateHandle, state = 0 ∨ state = 1 →
      (groups twoBlocks).1.group state = .shared 1 := by
    intro state isState
    have inside : state < twoBlocks.registry.stateCount := by
      rcases isState with rfl | rfl <;> decide
    have visible : Look.isInvisible twoBlocks.registry state = false := by
      rcases isState with rfl | rfl <;> decide
    have handles : twoBlocks.registry.handles = [0, 1] := by decide
    change (Groups.build (fun _ => []) twoBlocks.registry twoBlocks.bindings).group state = _
    rw [Groups.group_build, if_pos inside, handles, looks state isState]
    simp only [List.map_cons, List.map_nil, looks 0 (.inl rfl), looks 1 (.inr rfl)]
    unfold Groups.place
    rw [visible, if_neg (by simp)]
    simp [number]
  have skips : (snapshot twoBlocks).1.requiresRender? 0 1 = some false := by
    change (groups twoBlocks).1.requiresRender? twoBlocks.registry 0 1 = some false
    unfold Groups.requiresRender?
    rw [grouped 0 (.inl rfl), grouped 1 (.inr rfl)]
    decide
  refine ⟨by decide, skips, ?_⟩
  rcases (requiresRender?_sound twoBlocks (by decide) skips).2.1 with ⟨hidden, _⟩ | ⟨same, _⟩
  · exact absurd hidden (by decide)
  · exact same

end PackModels.Prepare
