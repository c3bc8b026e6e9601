import PackModels.Proofs.Binding.Reading
import PackModels.Proofs.Binding.Usable
import PackModels.Proofs.Block.Keys

/-!
Contract: a state file that lists the keys of the states of a block binds each
state to what stands under its key.

The key of a state is read as the values that this state has and no other state
of its block, so of all variants exactly one is met by a state, whatever comes
first in the order of the keys. No variant asks for a property that the block
does not have, so nothing is left out and nothing is complained about.

Owns: `Spells`, which texts are such files, and `Lists`, what is read from one.
-/

namespace PackModels

open Registry (Located Enumerated Legible renderAssignment assignment)

namespace StateFile

variable {definitions : List BlockDef} {registry : Registry} {state other : StateHandle}
  {handle : BlockHandle} {entry : BlockEntry} {choice choice' : List Nat} {id : ResourceId}

/-! ## Files that list states -/

/-- Whether a text is a state file without parts whose variants are the keys of
these states, each with what is assigned to its state. -/
def Spells (registry : Registry) (states : List StateHandle)
    (assigned : StateHandle → RawBinding) (text : String) : Prop :=
  ∃ variants, Json.decode? decodeFile text = some ⟨some variants, none⟩ ∧
    ∀ key raw, (key, raw) ∈ variants ↔
      ∃ state ∈ states, registry.variantKey? state = some key ∧ assigned state = raw

/-- Whether a file has no parts, and one variant for each state of a block,
which demands all values of the state. -/
structure Lists (registry : Registry) (handle : BlockHandle) (entry : BlockEntry)
    (binding : StateHandle → Binding) (file : StateFile) : Prop where
  parts : file.parts = []
  variants : ∀ variant, variant ∈ file.variants ↔
    ∃ state choice, Located registry state handle entry choice ∧
      variant = ⟨renderAssignment (assignment entry.definition choice),
        assignment entry.definition choice, binding state⟩

/-- Where all keys and all bindings can be read, all variants are. -/
theorem readVariants_ok {id : ResourceId} {entries : List (String × RawBinding)}
    (readable : ∀ entry ∈ entries, ∃ demands binding,
      parseKey? entry.1 = some demands ∧ entry.2.bind id = .ok binding) :
    ∃ variants, readVariants id entries = .ok variants ∧
      ∀ variant, variant ∈ variants ↔ ∃ entry ∈ entries, variant.key = entry.1 ∧
        parseKey? entry.1 = some variant.demands ∧ entry.2.bind id = .ok variant.binding := by
  have placed : ∀ entry ∈ entries, ∃ variant : StateVariant, variant.key = entry.1 ∧
      parseKey? entry.1 = some variant.demands ∧ entry.2.bind id = .ok variant.binding := by
    intro entry member
    obtain ⟨demands, binding, parsed, bound⟩ := readable entry member
    exact ⟨⟨entry.1, demands, binding⟩, rfl, parsed, bound⟩
  obtain ⟨variants, each⟩ := exists_forall₂_iff.mpr placed
  obtain ⟨forth, back⟩ := exists_of_forall₂ each
  refine ⟨variants, readVariants_eq_ok_iff.mpr each, fun variant => ⟨back variant, ?_⟩⟩
  rintro ⟨entry, member, isKey, parsed, bound⟩
  obtain ⟨other, listed, isKey', parsed', bound'⟩ := forth entry member
  -- An entry is read in one way only.
  have same : variant = other := by
    cases variant
    cases other
    simp_all
  exact same ▸ listed

/-- A text that spells the states of a block has their keys with their bindings,
each key once. -/
theorem mem_table_of_spells (enumerated : Enumerated definitions registry)
    (legible : registry.Legible) (owner : registry.blocks[handle]? = some entry)
    {assigned : StateHandle → RawBinding} {variants : List (String × RawBinding)}
    (members : ∀ key raw, (key, raw) ∈ variants ↔
      ∃ state ∈ registry.statesOf handle,
        registry.variantKey? state = some key ∧ assigned state = raw)
    (key : String) (raw : RawBinding) :
    (key, raw) ∈ (Table.ofPairs variants).toList ↔
      ∃ state choice, Located registry state handle entry choice ∧
        key = renderAssignment (assignment entry.definition choice) ∧ assigned state = raw := by
  have spelled : ∀ key raw, (key, raw) ∈ variants ↔
      ∃ state choice, Located registry state handle entry choice ∧
        key = renderAssignment (assignment entry.definition choice) ∧ assigned state = raw := by
    intro key raw
    rw [members]
    constructor
    · rintro ⟨state, member, hasKey, same⟩
      obtain ⟨choice, located⟩ := (enumerated.mem_statesOf_iff owner).mp member
      rw [located.variantKey?_eq, Option.some.injEq] at hasKey
      exact ⟨state, choice, located, hasKey.symm, same⟩
    · rintro ⟨state, choice, located, rfl, same⟩
      exact ⟨state, (enumerated.mem_statesOf_iff owner).mpr ⟨choice, located⟩,
        located.variantKey?_eq, same⟩
  rw [Std.ExtTreeMap.mem_toList_iff_getElem?_eq_some, Table.getElem?_ofPairs_iff, spelled]
  intro key raw raw' held held'
  obtain ⟨state, choice, located, hasKey, rfl⟩ := (spelled key raw).mp held
  obtain ⟨state', choice', located', hasKey', rfl⟩ := (spelled key raw').mp held'
  rw [enumerated.eq_of_key_eq legible.separable located located' (hasKey.symm.trans hasKey')]

/-- What is read from a text that spells the states of a block. -/
theorem parse_of_spells (enumerated : Enumerated definitions registry)
    (legible : registry.Legible) (owner : registry.blocks[handle]? = some entry)
    {assigned : StateHandle → RawBinding} {binding : StateHandle → Binding}
    (binds : ∀ state ∈ registry.statesOf handle, (assigned state).bind id = .ok (binding state))
    {text : String} (spells : Spells registry (registry.statesOf handle) assigned text) :
    ∃ file, StateFile.parse id text = .ok file ∧ Lists registry handle entry binding file := by
  obtain ⟨variants, decoded, members⟩ := spells
  have table := mem_table_of_spells enumerated legible owner members
  have bindsLocated : ∀ {state choice}, Located registry state handle entry choice →
      (assigned state).bind id = .ok (binding state) :=
    fun located => binds _ ((enumerated.mem_statesOf_iff owner).mpr ⟨_, located⟩)
  have readable : ∀ entry ∈ (Table.ofPairs variants).toList, ∃ demands binding,
      parseKey? entry.1 = some demands ∧ entry.2.bind id = .ok binding := by
    rintro ⟨key, raw⟩ member
    obtain ⟨state, choice, located, rfl, rfl⟩ := (table key raw).mp member
    exact ⟨_, _, enumerated.parseKey?_eq legible located, bindsLocated located⟩
  obtain ⟨read, isRead, readMembers⟩ := readVariants_ok readable
  refine ⟨⟨read, []⟩, ?parsed, rfl, ?variants⟩
  case parsed =>
    have given : ((some variants).isNone && (none : Option (List RawPart)).isNone) = false := rfl
    rw [StateFile.parse, decoded]
    dsimp only
    rw [ofRaw]
    dsimp only
    rw [given, if_neg (by simp), Option.getD_some, isRead, Option.getD_none, readParts]
  case variants =>
    intro variant
    rw [readMembers]
    constructor
    · rintro ⟨⟨key, raw⟩, member, sameKey, sameDemands, sameBinding⟩
      obtain ⟨state, choice, located, rfl, rfl⟩ := (table key raw).mp member
      rw [enumerated.parseKey?_eq legible located, Option.some.injEq] at sameDemands
      rw [bindsLocated located, Except.ok.injEq] at sameBinding
      refine ⟨state, choice, located, ?_⟩
      cases variant
      simp_all
    · rintro ⟨state, choice, located, rfl⟩
      exact ⟨(_, assigned state), (table _ _).mpr ⟨state, choice, located, rfl, rfl⟩, rfl,
        enumerated.parseKey?_eq legible located, bindsLocated located⟩

/-! ## Binding the states of a block -/

namespace Lists

variable {binding : StateHandle → Binding} {file : StateFile}

/-- A state meets exactly the variant that is listed for it. -/
theorem meets_iff (enumerated : Enumerated definitions registry)
    (unambiguous : registry.Unambiguous) (legible : registry.Legible)
    (located : Located registry state handle entry choice)
    (located' : Located registry other handle entry choice') {key : String} {bound : Binding} :
    meets registry state ⟨key, assignment entry.definition choice', bound⟩ = true ↔
      other = state := by
  unfold meets
  rw [List.all_eq_true]
  have values := enumerated.assignment_eq_values unambiguous legible located
  have values' := enumerated.assignment_eq_values unambiguous legible located'
  constructor
  · intro met
    -- Each property has the value in the one state that the other one demands.
    have agree : ∀ property ∈ entry.definition.properties,
        registry.value? other property.name = registry.value? state property.name := by
      intro property member
      have demanded := List.mem_map_of_mem
        (f := fun property => (property.name, registry.value? other property.name)) member
      rw [← values'] at demanded
      obtain ⟨pair, demand, same⟩ := List.mem_map.mp demanded
      obtain ⟨sameName, sameValue⟩ := Prod.mk.inj same
      have has : registry.value? state pair.1 = some pair.2 := eq_of_beq (met pair demand)
      rw [← sameValue, ← sameName]
      exact has.symm
    have legibleBlock : ∀ property ∈ entry.definition.properties, property.Legible :=
      fun _ member => legible.property located.owner member
    exact enumerated.eq_of_values_eq (fun property member => (legibleBlock property member).few)
      (unambiguous.block located.owner)
      (fun property member => (legibleBlock property member).distinct) located' located agree
  · rintro rfl pair demand
    have said := List.mem_map_of_mem
      (f := fun pair : String × String => (pair.1, some pair.2)) demand
    rw [values'] at said
    obtain ⟨property, _, same⟩ := List.mem_map.mp said
    obtain ⟨sameName, sameValue⟩ := Prod.mk.inj same
    rw [beq_iff_eq, ← sameName]
    exact sameValue

/-- The block has every property that a listed variant asks for. -/
theorem usableVariant (lists : Lists registry handle entry binding file) :
    ∀ variant ∈ file.variants, UsableVariant entry.definition variant := by
  intro variant listed pair demand
  obtain ⟨state, choice, _, rfl⟩ := (lists.variants variant).mp listed
  obtain ⟨⟨property, position⟩, zipped, rfl⟩ := List.mem_map.mp demand
  exact ⟨property, (List.of_mem_zip zipped).1, rfl⟩

theorem usablePart (lists : Lists registry handle entry binding file) :
    ∀ part ∈ file.parts, UsablePart entry.definition part := by
  intro part listed
  rw [lists.parts] at listed
  cases listed

/-- A state takes the variant that is listed for it. -/
theorem bindState?_eq (enumerated : Enumerated definitions registry)
    (unambiguous : registry.Unambiguous) (legible : registry.Legible)
    (lists : Lists registry handle entry binding file)
    (located : Located registry state handle entry choice) :
    bindState? registry file.variants [] state = some (binding state) := by
  unfold bindState?
  cases found : file.variants.find? (meets registry state) with
  | none =>
      -- The variant of the state itself is met.
      have own := (lists.variants _).mpr ⟨state, choice, located, rfl⟩
      exact absurd ((meets_iff enumerated unambiguous legible located located).mpr rfl)
        (List.find?_eq_none.mp found _ own)
  | some variant =>
      obtain ⟨other, choice', located', rfl⟩ :=
        (lists.variants variant).mp (List.mem_of_find?_eq_some found)
      have same := (meets_iff enumerated unambiguous legible located located').mp
        (List.find?_some found)
      rw [same]

theorem bind_eq (enumerated : Enumerated definitions registry)
    (unambiguous : registry.Unambiguous) (legible : registry.Legible)
    (lists : Lists registry handle entry binding file)
    (owner : registry.blocks[handle]? = some entry) :
    file.bind registry entry.definition (registry.statesOf handle) =
      (registry.statesOf handle).map (fun state => (state, binding state)) := by
  unfold StateFile.bind
  dsimp only
  have noParts : file.usableParts entry.definition = [] := by
    rw [usableParts, lists.parts, List.filter_nil]
  rw [usableVariants_eq_self lists.usableVariant, noParts, ← List.filterMap_eq_map]
  apply List.filterMap_congr
  intro state member
  obtain ⟨choice, located⟩ := (enumerated.mem_statesOf_iff owner).mp member
  rw [bindState?_eq enumerated unambiguous legible lists located, Option.map_some,
    Function.comp_apply]

end Lists

end StateFile

namespace BindingTable

variable {definitions : List BlockDef} {registry : Registry} {binding : StateHandle → Binding}

/-! ## Loading files -/

/-- Bindings of states are found under the names of those states, and all other
bindings stay. -/
theorem getElem?_insertStates {states : List StateHandle}
    (apart : ∀ state ∈ states, ∀ other ∈ states,
      registry.stateId? state = registry.stateId? other → state = other)
    (table : BindingTable) (id : StateId) (bound : Binding) :
    (insertStates registry table (states.map (fun state => (state, binding state))))[id]? =
        some bound ↔
      (∃ state ∈ states, registry.stateId? state = some id ∧ binding state = bound) ∨
        ((∀ state ∈ states, registry.stateId? state ≠ some id) ∧ table[id]? = some bound) := by
  unfold insertStates
  induction states generalizing table with
  | nil => simp
  | cons state rest inductionHypothesis =>
      have apartRest : ∀ left ∈ rest, ∀ right ∈ rest,
          registry.stateId? left = registry.stateId? right → left = right :=
        fun left member right member' => apart left (List.mem_cons_of_mem _ member) right
          (List.mem_cons_of_mem _ member')
      rw [List.map_cons, List.foldl_cons, inductionHypothesis apartRest]
      simp only [List.mem_cons, or_and_right, exists_or, exists_eq_left, forall_eq_or_imp]
      by_cases here : registry.stateId? state = some id
      · rw [here]
        dsimp only
        rw [Std.ExtTreeMap.getElem?_insert_self, Option.some.injEq]
        constructor
        · rintro (later | ⟨_, same⟩)
          · exact .inl (.inr later)
          · exact .inl (.inl ⟨rfl, same⟩)
        · rintro ((⟨_, same⟩ | later) | ⟨⟨differs, _⟩, _⟩)
          · -- A later state of this name would be the same state.
            by_cases again : ∃ other ∈ rest, registry.stateId? other = some id
            · obtain ⟨other, member, named⟩ := again
              have sameState := apart state List.mem_cons_self other
                (List.mem_cons_of_mem _ member) (here.trans named.symm)
              exact .inl ⟨other, member, named, sameState ▸ same⟩
            · exact .inr ⟨fun other member named => again ⟨other, member, named⟩, same⟩
          · exact .inl later
          · exact absurd rfl differs
      · cases named : registry.stateId? state with
        | none => simp only [reduceCtorEq, false_and, false_or, ne_eq, not_false_eq_true, true_and]
        | some name =>
            have different : name ≠ id := fun same => here (named.trans (congrArg some same))
            dsimp only
            rw [Table.getElem?_insert_of_ne different.symm]
            simp only [Option.some.injEq, different, false_and, false_or, ne_eq,
              not_false_eq_true, true_and]

/-- What holds of bindings that are loaded from some files. -/
structure Loaded (registry : Registry) (binding : StateHandle → Binding)
    (done : List ResourceId) (loaded : BindingTable × List Warning) : Prop where
  bound : ∀ (id : StateId) (found : Binding), loaded.1[id]? = some found ↔
    id.block ∈ done ∧ ∃ state < registry.stateCount,
      registry.stateId? state = some id ∧ binding state = found
  quiet : loaded.2 = []

/-- The states of a block are those that have its id in their names. -/
theorem mem_statesOf_iff_stateId? (enumerated : Registry.Enumerated definitions registry)
    {block : ResourceId} {handle : BlockHandle} (owns : registry.blockOfId? block = some handle)
    (state : StateHandle) :
    state ∈ registry.statesOf handle ↔
      state < registry.stateCount ∧
        ∃ id, registry.stateId? state = some id ∧ id.block = block := by
  obtain ⟨entry, owner, named⟩ := (enumerated.named block handle).mp owns
  rw [enumerated.mem_statesOf_iff owner]
  constructor
  · rintro ⟨choice, located⟩
    obtain ⟨fluid, held⟩ := located.held
    obtain ⟨known, _⟩ := Array.getElem?_eq_some_iff.mp held
    exact ⟨known, _, located.stateId?_eq, named⟩
  · rintro ⟨known, id, isNamed, sameBlock⟩
    obtain ⟨handle', entry', choice, located⟩ := enumerated.exists_located known
    rw [located.stateId?_eq, Option.some.injEq] at isNamed
    have sameId : entry'.definition.id = entry.definition.id := by
      rw [named, ← sameBlock, ← isNamed]
    obtain rfl := enumerated.handle_unique located.owner owner sameId
    obtain rfl : entry' = entry := Option.some.inj (located.owner.symm.trans owner)
    exact ⟨choice, located⟩

/-- No state has the id of a block that is not registered in its name. -/
theorem stateId?_block_ne (enumerated : Registry.Enumerated definitions registry)
    {block : ResourceId} (unknown : registry.blockOfId? block = none) {state : StateHandle}
    (known : state < registry.stateCount) {id : StateId}
    (named : registry.stateId? state = some id) : id.block ≠ block := by
  rintro rfl
  obtain ⟨handle, entry, choice, located⟩ := enumerated.exists_located known
  rw [located.stateId?_eq, Option.some.injEq] at named
  have owns : registry.blockOfId? id.block = some handle :=
    (enumerated.named _ _).mpr ⟨entry, located.owner, by rw [← named]⟩
  rw [unknown] at owns
  cases owns

namespace Loaded

variable {done : List ResourceId} {loaded : BindingTable × List Warning}

/-- A file of a block that is not registered changes nothing. -/
theorem skip (enumerated : Registry.Enumerated definitions registry)
    (before : Loaded registry binding done loaded) {block : ResourceId}
    (unknown : registry.blockOfId? block = none) :
    Loaded registry binding (done ++ [block]) loaded where
  bound := by
    intro id found
    rw [before.bound, List.mem_append, List.mem_singleton]
    constructor
    · rintro ⟨listed, bound⟩
      exact ⟨.inl listed, bound⟩
    · rintro ⟨listed | last, state, known, named, same⟩
      · exact ⟨listed, state, known, named, same⟩
      · exact absurd last (stateId?_block_ne enumerated unknown known named)
  quiet := before.quiet

/-- A file that lists the states of its block binds them. -/
theorem insert (enumerated : Registry.Enumerated definitions registry)
    (legible : registry.Legible) (before : Loaded registry binding done loaded)
    {block : ResourceId} {handle : BlockHandle}
    (owns : registry.blockOfId? block = some handle) :
    Loaded registry binding (done ++ [block])
      (insertStates registry loaded.1
        ((registry.statesOf handle).map (fun state => (state, binding state))), loaded.2) where
  bound := by
    intro id found
    have mem := mem_statesOf_iff_stateId? enumerated owns
    have apart : ∀ state ∈ registry.statesOf handle, ∀ other ∈ registry.statesOf handle,
        registry.stateId? state = registry.stateId? other → state = other := by
      intro state member other member'
      exact enumerated.eq_of_stateId?_eq legible ((mem state).mp member).1
        ((mem other).mp member').1
    rw [getElem?_insertStates apart, before.bound, List.mem_append, List.mem_singleton]
    constructor
    · rintro (⟨state, member, named, same⟩ | ⟨_, listed, bound⟩)
      · obtain ⟨known, id', named', isBlock⟩ := (mem state).mp member
        obtain rfl : id = id' := Option.some.inj (named.symm.trans named')
        exact ⟨.inr isBlock, state, known, named, same⟩
      · exact ⟨.inl listed, bound⟩
    · rintro ⟨listed, state, known, named, same⟩
      by_cases isBlock : id.block = block
      · exact .inl ⟨state, (mem state).mpr ⟨known, id, named, isBlock⟩, named, same⟩
      · refine .inr ⟨?elsewhere, listed.resolve_right isBlock, state, known, named, same⟩
        case elsewhere =>
          intro other member named'
          obtain ⟨_, id', named'', isBlock'⟩ := (mem other).mp member
          obtain rfl : id = id' := Option.some.inj (named'.symm.trans named'')
          exact isBlock isBlock'
  quiet := before.quiet

end Loaded

/-- A file that spells the states of its block, if that is registered. -/
def SpellsBlock (registry : Registry) (assigned : StateHandle → StateFile.RawBinding)
    (file : ResourceId × String) : Prop :=
  ∀ handle, registry.blockOfId? file.1 = some handle →
    StateFile.Spells registry (registry.statesOf handle) assigned file.2

theorem Loaded.addFile {done : List ResourceId} {loaded : BindingTable × List Warning}
    (enumerated : Registry.Enumerated definitions registry)
    (unambiguous : registry.Unambiguous) (legible : registry.Legible)
    {assigned : StateHandle → StateFile.RawBinding} (before : Loaded registry binding done loaded)
    {file : ResourceId × String} (spells : SpellsBlock registry assigned file)
    (binds : ∀ state < registry.stateCount, ∀ id, registry.stateId? state = some id →
      (assigned state).bind id.block = .ok (binding state)) :
    Loaded registry binding (done ++ [file.1]) (BindingTable.addFile registry loaded file) := by
  unfold BindingTable.addFile
  cases owns : registry.blockOfId? file.1 with
  | none => exact before.skip enumerated owns
  | some handle =>
      obtain ⟨entry, owner, _⟩ := (enumerated.named file.1 handle).mp owns
      have bindsBlock : ∀ state ∈ registry.statesOf handle,
          (assigned state).bind file.1 = .ok (binding state) := by
        intro state member
        obtain ⟨known, id, named, isBlock⟩ :=
          (mem_statesOf_iff_stateId? enumerated owns state).mp member
        exact isBlock ▸ binds state known id named
      obtain ⟨read, parsed, lists⟩ := StateFile.parse_of_spells enumerated legible owner bindsBlock
        (spells handle owns)
      dsimp only
      rw [owner, parsed]
      dsimp only
      rw [lists.bind_eq enumerated unambiguous legible owner,
        StateFile.warnings_eq_nil_of_usable _ lists.usableVariant lists.usablePart,
        List.append_nil]
      exact before.insert enumerated legible owns

/-- Files that spell the states of their blocks bind exactly these states, each
to what it is assigned, and nothing is complained about. -/
theorem loaded_load (enumerated : Registry.Enumerated definitions registry)
    (unambiguous : registry.Unambiguous) (legible : registry.Legible)
    {assigned : StateHandle → StateFile.RawBinding} {files : Table ResourceId String}
    (spells : ∀ file ∈ files.toList, SpellsBlock registry assigned file)
    (binds : ∀ state < registry.stateCount, ∀ id, registry.stateId? state = some id →
      (assigned state).bind id.block = .ok (binding state)) :
    Loaded registry binding (files.toList.map Prod.fst) (load registry files) := by
  unfold load
  suffices run : ∀ (rest : List (ResourceId × String)) (done : List ResourceId)
      (loaded : BindingTable × List Warning),
      (∀ file ∈ rest, SpellsBlock registry assigned file) → Loaded registry binding done loaded →
        Loaded registry binding (done ++ rest.map Prod.fst)
          (rest.foldl (addFile registry) loaded) by
    refine run files.toList [] _ spells ⟨?_, rfl⟩
    intro id found
    simp
  intro rest
  induction rest with
  | nil =>
      intro done loaded _ before
      rw [List.map_nil, List.append_nil]
      exact before
  | cons file rest inductionHypothesis =>
      intro done loaded spells before
      have after := before.addFile enumerated unambiguous legible
        (spells file List.mem_cons_self) binds
      have rested := inductionHypothesis _ _
        (fun other member => spells other (List.mem_cons_of_mem _ member)) after
      rw [List.append_assoc, List.singleton_append] at rested
      exact rested

end BindingTable

end PackModels
