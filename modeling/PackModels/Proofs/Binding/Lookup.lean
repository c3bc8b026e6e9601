import PackModels.Proofs.Binding.Load

/-!
Contract: which file the binding of a state comes from.

Files are loaded one after another into one table, but a file binds only states
of its own block. So what is found under the name of a state is what the file
of its block alone would put there, whatever the other files are. Where no two
states have one name, this is what the file binds this very state to.

Owns: `ofFile`, the bindings of one file alone, and `ownBinding?`, what the file
of its block binds a state to.
-/

namespace PackModels

variable {definitions : List BlockDef} {registry : Registry}

theorem toOption_eq_some_iff {Error Value : Type} {outcome : Except Error Value} {value : Value} :
    outcome.toOption = some value ↔ outcome = .ok value := by
  cases outcome with
  | error error => simp [Except.toOption]
  | ok found => simp [Except.toOption]

namespace Registry

/-! ## The block of a state -/

theorem known_of_blockOf? {state : StateHandle} {block : BlockDef}
    (belongs : registry.blockOf? state = some block) : state < registry.stateCount := by
  obtain ⟨found, held, _⟩ := Option.bind_eq_some_iff.mp belongs
  exact (Array.getElem?_eq_some_iff.mp held).1

theorem known_of_stateId? {state : StateHandle} {id : StateId}
    (isNamed : registry.stateId? state = some id) : state < registry.stateCount := by
  obtain ⟨block, belongs, _⟩ := Option.bind_eq_some_iff.mp isNamed
  exact known_of_blockOf? belongs

theorem block_of_stateId? {state : StateHandle} {id : StateId} {block : BlockDef}
    (isNamed : registry.stateId? state = some id) (belongs : registry.blockOf? state = some block) :
    id.block = block.id := by
  unfold stateId? at isNamed
  rw [belongs, Option.bind_eq_bind, Option.bind_some] at isNamed
  obtain ⟨key, _, same⟩ := Option.bind_eq_some_iff.mp isNamed
  cases same
  rfl

/-- The block that a state belongs to is the one that is registered under its
id. -/
theorem Enumerated.definition?_of_blockOf? (enumerated : Enumerated definitions registry)
    {state : StateHandle} {block : BlockDef} (belongs : registry.blockOf? state = some block) :
    registry.definition? block.id = some block := by
  obtain ⟨handle, entry, choice, located⟩ :=
    enumerated.exists_located (known_of_blockOf? belongs)
  rw [located.blockOf?_eq, Option.some.injEq] at belongs
  exact enumerated.definition?_eq_some_iff.mpr ⟨handle, entry, located.owner, belongs, rfl⟩

/-- The states of a block are those that are found to belong to it. -/
theorem Enumerated.mem_statesOf_iff_blockOf? (enumerated : Enumerated definitions registry)
    {id : ResourceId} {handle : BlockHandle} {block : BlockDef}
    (owns : registry.blockOfId? id = some handle) (defined : registry.definition? id = some block)
    (state : StateHandle) :
    state ∈ registry.statesOf handle ↔ registry.blockOf? state = some block := by
  obtain ⟨entry, owner, _⟩ := (enumerated.named id handle).mp owns
  have same : entry.definition = block := by
    rw [definition?, owns, Option.bind_some, owner, Option.map_some,
      Option.some.injEq] at defined
    exact defined
  rw [enumerated.mem_statesOf_iff owner]
  constructor
  · rintro ⟨choice, located⟩
    rw [located.blockOf?_eq, same]
  · intro belongs
    obtain ⟨handle', entry', choice, located⟩ :=
      enumerated.exists_located (known_of_blockOf? belongs)
    rw [located.blockOf?_eq, Option.some.injEq] at belongs
    have sameId : entry'.definition.id = entry.definition.id := by rw [belongs, same]
    obtain rfl := enumerated.handle_unique located.owner owner sameId
    obtain rfl : entry' = entry := Option.some.inj (located.owner.symm.trans owner)
    exact ⟨choice, located⟩

end Registry

namespace BindingTable

/-- The bindings of some states, each under the name of its state. -/
def named (registry : Registry) (bound : List (StateHandle × Binding)) :
    List (StateId × Binding) :=
  bound.filterMap (fun entry => (registry.stateId? entry.1).map (fun id => (id, entry.2)))

theorem insertStates_eq (table : BindingTable) (bound : List (StateHandle × Binding)) :
    insertStates registry table bound =
      (named registry bound).foldl (fun table pair => table.insert pair.1 pair.2) table := by
  unfold insertStates named
  rw [List.foldl_filterMap]
  apply List.foldl_ext
  intro table entry _
  cases registry.stateId? entry.1 with
  | none => rfl
  | some id => rfl

/-! ## The bindings of one file -/

/-- The states that a file binds, with their bindings. -/
def boundBy (registry : Registry) (file : ResourceId × String) : List (StateHandle × Binding) :=
  match registry.definition? file.1, registry.blockOfId? file.1, StateFile.parse file.1 file.2 with
  | some block, some handle, .ok read => read.bind registry block (registry.statesOf handle)
  | _, _, _ => []

/-- The bindings of one state file alone. -/
def ofFile (registry : Registry) (file : ResourceId × String) : BindingTable :=
  Table.ofPairs (named registry (boundBy registry file))

theorem addFile_table (loaded : BindingTable × List Warning) (file : ResourceId × String) :
    (addFile registry loaded file).1 = insertStates registry loaded.1 (boundBy registry file) := by
  unfold addFile boundBy Registry.definition?
  cases registry.blockOfId? file.1 with
  | none => rfl
  | some handle =>
      rw [Option.bind_some]
      dsimp only
      cases registry.blocks[handle]? with
      | none => rfl
      | some entry =>
          rw [Option.map_some]
          cases StateFile.parse file.1 file.2 with
          | error error => rfl
          | ok read => rfl

/-- The bindings of a file shadow those that are there. -/
theorem getElem?_addFile (loaded : BindingTable × List Warning) (file : ResourceId × String)
    (id : StateId) :
    (addFile registry loaded file).1[id]? = (ofFile registry file)[id]?.or loaded.1[id]? := by
  rw [addFile_table, insertStates_eq, Table.getElem?_foldl_insert, ofFile,
    Table.getElem?_ofPairs]

/-! ## The states that a file binds -/

/-- A file binds each state of its block to what the state takes of the file. -/
theorem mem_boundBy_iff (enumerated : Registry.Enumerated definitions registry)
    {file : ResourceId × String} {state : StateHandle} {binding : Binding} :
    (state, binding) ∈ boundBy registry file ↔
      ∃ block read, registry.blockOf? state = some block ∧ block.id = file.1 ∧
        StateFile.parse file.1 file.2 = .ok read ∧
        StateFile.bindState? registry (read.usableVariants block) (read.usableParts block) state =
          some binding := by
  unfold boundBy
  constructor
  · intro member
    split at member
    · rename_i block handle read defined owns parsed
      obtain ⟨bound, listed, same⟩ := List.mem_filterMap.mp member
      obtain ⟨taken, takes, pair⟩ := Option.map_eq_some_iff.mp same
      rw [Prod.mk.injEq] at pair
      obtain ⟨rfl, rfl⟩ := pair
      have belongs := (enumerated.mem_statesOf_iff_blockOf? owns defined bound).mp listed
      obtain ⟨_, _, _, _, isId⟩ := enumerated.definition?_eq_some_iff.mp defined
      exact ⟨block, read, belongs, isId, parsed, takes⟩
    · cases member
  · rintro ⟨block, read, belongs, isId, parsed, takes⟩
    have defined := enumerated.definition?_of_blockOf? belongs
    obtain ⟨handle, entry, owner, rfl, _⟩ := enumerated.definition?_eq_some_iff.mp defined
    have owns : registry.blockOfId? entry.definition.id = some handle :=
      (enumerated.named _ _).mpr ⟨entry, owner, rfl⟩
    have listed := (enumerated.mem_statesOf_iff_blockOf? owns defined state).mpr belongs
    rw [← isId, defined, owns, isId, parsed]
    exact List.mem_filterMap.mpr ⟨state, listed, by rw [takes, Option.map_some]⟩

theorem mem_named_iff {bound : List (StateHandle × Binding)} {id : StateId} {binding : Binding} :
    (id, binding) ∈ named registry bound ↔
      ∃ state, (state, binding) ∈ bound ∧ registry.stateId? state = some id := by
  unfold named
  rw [List.mem_filterMap]
  constructor
  · rintro ⟨⟨state, bound⟩, member, same⟩
    obtain ⟨name, isNamed, pair⟩ := Option.map_eq_some_iff.mp same
    rw [Prod.mk.injEq] at pair
    obtain ⟨rfl, rfl⟩ := pair
    exact ⟨state, member, isNamed⟩
  · rintro ⟨state, member, isNamed⟩
    exact ⟨(state, binding), member, by rw [isNamed, Option.map_some]⟩

/-- What a file has under a name is what it binds some state of this name to. -/
theorem exists_of_ofFile {file : ResourceId × String} {id : StateId} {binding : Binding}
    (found : (ofFile registry file)[id]? = some binding) :
    ∃ state, (state, binding) ∈ boundBy registry file ∧ registry.stateId? state = some id := by
  rw [ofFile, Table.getElem?_ofPairs, Option.map_eq_some_iff] at found
  obtain ⟨pair, last, rfl⟩ := found
  obtain ⟨member, same⟩ := List.mem_filter.mp (List.mem_of_getLast? last)
  have isId : pair.1 = id := eq_of_beq same
  exact mem_named_iff.mp (isId ▸ member)

/-- A file binds only states of its own block. -/
theorem block_of_ofFile (enumerated : Registry.Enumerated definitions registry)
    {file : ResourceId × String} {id : StateId} {binding : Binding}
    (found : (ofFile registry file)[id]? = some binding) : id.block = file.1 := by
  obtain ⟨state, member, isNamed⟩ := exists_of_ofFile found
  obtain ⟨block, _, belongs, isId, _⟩ := (mem_boundBy_iff enumerated).mp member
  exact (Registry.block_of_stateId? isNamed belongs).trans isId

/-! ## The bindings of all files -/

theorem getElem?_foldl_addFile (enumerated : Registry.Enumerated definitions registry)
    (id : StateId) (files : List (ResourceId × String)) (distinct : (files.map Prod.fst).Nodup)
    (loaded : BindingTable × List Warning) :
    (files.foldl (addFile registry) loaded).1[id]? =
      ((files.find? (fun file => file.1 == id.block)).bind
        (fun file => (ofFile registry file)[id]?)).or loaded.1[id]? := by
  induction files generalizing loaded with
  | nil => rfl
  | cons file rest inductionHypothesis =>
      rw [List.map_cons, List.nodup_cons] at distinct
      rw [List.foldl_cons, inductionHypothesis distinct.2, getElem?_addFile, List.find?_cons]
      by_cases own : file.1 = id.block
      · -- No later file is one of this block.
        have last : rest.find? (fun file => file.1 == id.block) = none := by
          rw [List.find?_eq_none]
          intro other member same
          exact distinct.1 (own ▸ eq_of_beq same ▸ List.mem_map_of_mem member)
        rw [last, own, beq_self_eq_true, Option.bind_none, Option.none_or, Option.bind_some]
      · have elsewhere : (ofFile registry file)[id]? = none := by
          rw [Option.eq_none_iff_forall_ne_some]
          intro binding bound
          exact own (block_of_ofFile enumerated bound).symm
        rw [elsewhere, Option.none_or, beq_eq_false_iff_ne.mpr own]

/-- What is loaded for a state comes from the file of its block. -/
theorem getElem?_load (enumerated : Registry.Enumerated definitions registry)
    (files : Table ResourceId String) (id : StateId) :
    (load registry files).1[id]? =
      files[id.block]?.bind (fun text => (ofFile registry (id.block, text))[id]?) := by
  have nothing : (∅ : BindingTable)[id]? = none := Std.ExtTreeMap.getElem?_empty
  unfold load
  rw [getElem?_foldl_addFile enumerated id files.toList files.nodup_toList, Table.find?_toList,
    nothing, Option.or_none, Option.bind_map]
  rfl

/-- What the file of its block binds a state to. -/
def ownBinding? (registry : Registry) (files : Table ResourceId String) (state : StateHandle) :
    Option Binding := do
  let block ← registry.blockOf? state
  let text ← files[block.id]?
  let read ← (StateFile.parse block.id text).toOption
  StateFile.bindState? registry (read.usableVariants block) (read.usableParts block) state

theorem ownBinding?_eq_some_iff (enumerated : Registry.Enumerated definitions registry)
    {files : Table ResourceId String} {state : StateHandle} {binding : Binding} :
    ownBinding? registry files state = some binding ↔
      ∃ id text, files[id]? = some text ∧ (state, binding) ∈ boundBy registry (id, text) := by
  unfold ownBinding?
  simp only [mem_boundBy_iff enumerated, Option.bind_eq_bind, Option.bind_eq_some_iff]
  constructor
  · rintro ⟨block, belongs, text, held, read, parsed, takes⟩
    exact ⟨block.id, text, held, block, read, belongs, rfl, toOption_eq_some_iff.mp parsed,
      takes⟩
  · rintro ⟨_, text, held, block, read, belongs, rfl, parsed, takes⟩
    exact ⟨block, belongs, text, held, read, toOption_eq_some_iff.mpr parsed, takes⟩

/-- A file binds each state once. -/
theorem boundBy_functional (enumerated : Registry.Enumerated definitions registry)
    {file : ResourceId × String} {state : StateHandle} {binding binding' : Binding}
    (bound : (state, binding) ∈ boundBy registry file)
    (bound' : (state, binding') ∈ boundBy registry file) : binding = binding' := by
  obtain ⟨block, read, belongs, _, parsed, takes⟩ := (mem_boundBy_iff enumerated).mp bound
  obtain ⟨block', read', belongs', _, parsed', takes'⟩ := (mem_boundBy_iff enumerated).mp bound'
  obtain rfl : block = block' := Option.some.inj (belongs.symm.trans belongs')
  obtain rfl : read = read' := Except.ok.inj (parsed.symm.trans parsed')
  exact Option.some.inj (takes.symm.trans takes')

/-- Where no two states have one name, what is loaded under the name of a state
is what the file of its block binds it to. -/
theorem getElem?_load_of_unique (enumerated : Registry.Enumerated definitions registry)
    (unique : ∀ state other id, registry.stateId? state = some id →
      registry.stateId? other = some id → state = other)
    (files : Table ResourceId String) {state : StateHandle} {id : StateId}
    (isNamed : registry.stateId? state = some id) :
    (load registry files).1[id]? = ownBinding? registry files state := by
  apply Option.ext
  intro binding
  rw [getElem?_load enumerated, Option.bind_eq_some_iff, ownBinding?_eq_some_iff enumerated]
  have agree : ∀ file key value value', (key, value) ∈ named registry (boundBy registry file) →
      (key, value') ∈ named registry (boundBy registry file) → value = value' := by
    intro file key value value' member member'
    obtain ⟨bound, listed, hasKey⟩ := mem_named_iff.mp member
    obtain ⟨bound', listed', hasKey'⟩ := mem_named_iff.mp member'
    obtain rfl := unique bound bound' key hasKey hasKey'
    exact boundBy_functional enumerated listed listed'
  constructor
  · rintro ⟨text, held, found⟩
    obtain ⟨other, member, hasId⟩ := exists_of_ofFile found
    exact ⟨id.block, text, held, unique other state id hasId isNamed ▸ member⟩
  · rintro ⟨block, text, held, member⟩
    obtain ⟨owner, _, belongs, isId, _⟩ := (mem_boundBy_iff enumerated).mp member
    have sameBlock : id.block = block := (Registry.block_of_stateId? isNamed belongs).trans isId
    rw [sameBlock]
    exact ⟨text, held,
      (Table.getElem?_ofPairs_iff (agree _)).mpr (mem_named_iff.mpr ⟨state, member, isNamed⟩)⟩

end BindingTable

end PackModels
