import PackModels.Proofs.Numbering

/-!
Contract: states of one group have one look.

No two looks share a number. A state that draws something is in a numbered
group only through its look; therefore two states of one group either both draw
nothing or have the same look.
-/

namespace PackModels

namespace Groups

variable {tints : TintSource} {registry : Registry} {bindings : BindingTable}

theorem group_build (tints : TintSource) (registry : Registry) (bindings : BindingTable)
    (state : StateHandle) :
    (build tints registry bindings).group state =
      if state < registry.stateCount then
        place
          (Look.numbers
            ((registry.handles.map (Look.ofState? tints registry bindings)).filterMap id))
          (Look.isInvisible registry state) (Look.ofState? tints registry bindings state)
      else
        .alone := by
  unfold group build
  dsimp only
  rw [List.getElem?_toArray, List.getElem?_map]
  by_cases inside : state < registry.stateCount
  · have handle : registry.handles[state]? = some state := List.getElem?_range inside
    have zipped : (registry.handles.zip
        (registry.handles.map (Look.ofState? tints registry bindings)))[state]? =
          some (state, Look.ofState? tints registry bindings state) := by
      rw [List.getElem?_zip_eq_some, List.getElem?_map, handle]
      exact ⟨rfl, rfl⟩
    rw [if_pos inside, zipped, Option.map_some, Option.getD_some]
  · have outside : (registry.handles.zip
        (registry.handles.map (Look.ofState? tints registry bindings)))[state]? = none := by
      apply List.getElem?_eq_none
      simpa [Registry.handles] using inside
    rw [if_neg inside, outside, Option.map_none, Option.getD_none]

theorem lt_of_group_ne_alone {state : StateHandle}
    (grouped : (build tints registry bindings).group state ≠ .alone) :
    state < registry.stateCount := by
  by_cases inside : state < registry.stateCount
  · exact inside
  · rw [group_build, if_neg inside] at grouped
    exact absurd rfl grouped

/-- What puts a state into a group. -/
theorem place_cases {numbers : Std.HashMap Look Nat} {hidden : Bool} {look : Option Look}
    {group : Group} (placed : place numbers hidden look = group) (together : group ≠ .alone) :
    (hidden = true ∧ group = .invisible) ∨
      ∃ found number, look = some found ∧ numbers[found]? = some number ∧
        group = .shared number := by
  unfold place at placed
  cases hidden with
  | true => exact .inl ⟨rfl, placed.symm⟩
  | false =>
      rw [if_neg (by simp)] at placed
      cases look with
      | none => exact absurd placed.symm together
      | some found =>
          dsimp only at placed
          cases numbered : numbers[found]? with
          | none =>
              rw [numbered] at placed
              exact absurd placed.symm together
          | some number =>
              rw [numbered] at placed
              exact .inr ⟨found, number, rfl, numbered, placed.symm⟩

/-- Two states of one group both draw nothing or have the same look. -/
theorem same_look {old new : StateHandle}
    (together : (build tints registry bindings).group old ≠ .alone)
    (same : (build tints registry bindings).group old =
      (build tints registry bindings).group new) :
    (Look.isInvisible registry old = true ∧ Look.isInvisible registry new = true) ∨
      ∃ look, Look.ofState? tints registry bindings old = some look ∧
        Look.ofState? tints registry bindings new = some look := by
  have placedOld := group_build tints registry bindings old
  have placedNew := group_build tints registry bindings new
  rw [if_pos (lt_of_group_ne_alone together)] at placedOld
  rw [if_pos (lt_of_group_ne_alone (same ▸ together)), ← same] at placedNew
  rcases place_cases placedOld.symm together with
    ⟨hidden, isHidden⟩ | ⟨look, number, has, numbered, isShared⟩
  · rcases place_cases placedNew.symm together with
      ⟨hiddenNew, _⟩ | ⟨_, _, _, _, isShared⟩
    · exact .inl ⟨hidden, hiddenNew⟩
    · rw [isHidden] at isShared
      cases isShared
  · rcases place_cases placedNew.symm together with
      ⟨_, isHidden⟩ | ⟨lookNew, numberNew, hasNew, numberedNew, isSharedNew⟩
    · rw [isShared] at isHidden
      cases isHidden
    · rw [isShared] at isSharedNew
      obtain rfl : number = numberNew := Group.shared.inj isSharedNew
      have sameLook :=
        (Look.ordinal_numbers _).tagged.apart look lookNew number number numbered numberedNew rfl
      exact .inr ⟨look, has, sameLook ▸ hasNew⟩

/-- What a look says of a state. -/
theorem of_ofState? {state : StateHandle} {look : Look}
    (has : Look.ofState? tints registry bindings state = some look) :
    Look.isInvisible registry state = false ∧
      Look.bindingOf? registry bindings state = some look.binding ∧
      Look.tintsOf tints registry state = look.tints := by
  unfold Look.ofState? at has
  cases hidden : Look.isInvisible registry state with
  | true =>
      rw [hidden, if_pos rfl] at has
      cases has
  | false =>
      rw [hidden, if_neg (by simp)] at has
      obtain ⟨binding, bound, rfl⟩ := Option.map_eq_some_iff.mp has
      exact ⟨rfl, bound, rfl⟩

theorem asksForTints_of_visible {state : StateHandle} (inside : state < registry.stateCount)
    (visible : Look.isInvisible registry state = false) : asksForTints registry = true := by
  unfold asksForTints
  rw [List.any_eq_true]
  exact ⟨state, List.mem_range.mpr inside, by rw [visible]; rfl⟩

/-- Whether two states are one state, or are in one group and hold the same fluid. -/
def Together (groups : Groups) (registry : Registry) (old new : StateHandle) : Prop :=
  old = new ∨ groups.group old ≠ .alone ∧ groups.group old = groups.group new ∧
    ∃ fluid, registry.fluid? old = some fluid ∧ registry.fluid? new = some fluid

/-- A state need not be drawn again exactly for the states that it is together with. -/
theorem requiresRender?_eq_some_false_iff {groups : Groups} {old new : StateHandle} :
    groups.requiresRender? registry old new = some false ↔
      groups.Together registry old new := by
  unfold requiresRender? Together
  by_cases one : old = new
  · simp [one]
  · by_cases grouped : groups.group old = .alone ∨ groups.group old ≠ groups.group new
    · rw [if_neg one, if_pos grouped]
      rcases grouped with lone | different
      · simp [one, lone]
      · simp [one, different]
    · obtain ⟨together, agree⟩ := not_or.mp grouped
      have same : groups.group old = groups.group new := Decidable.not_not.mp agree
      rw [if_neg one, if_neg grouped]
      cases before : registry.fluid? old with
      | none => simp [one]
      | some fluid =>
          cases after : registry.fluid? new with
          | none => simp [one]
          | some fluid' => simp [one, same, same ▸ together, eq_comm (a := fluid)]

theorem group_empty (state : StateHandle) : empty.group state = .alone := by
  simp [group, empty]

end Groups

end PackModels
