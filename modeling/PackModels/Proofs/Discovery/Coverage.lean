import PackModels.Proofs.Discovery.Walk

/-!
Contract: what discovery references, and what each referenced id stands for.

`Settled` is what holds between visits. A visit keeps it and adds one id to
those that were asked for, so after any number of visits exactly the ids that
can be reached from those asked for are referenced, besides the one of the
missing model. What an id stands for is decided by the pack alone, hence the
outcome depends neither on the order of the visits nor on repetitions.
-/

namespace PackModels.Discovery

open PackModels.Lineage

/-- What holds between visits. -/
structure Settled (asked : List ResourceId) (discovery : Discovery) : Prop where
  parentless : discovery.missing.value.parent = none
  missing_referenced : ModelDef.missingId ∈ discovery.referenced
  stands : ∀ id model, discovery.referenced[id]? = some model → StandsFor discovery id model
  closed : ReferencedClosed discovery
  reached : ∀ id ∈ discovery.referenced,
    id = ModelDef.missingId ∨ ∃ root ∈ asked, Reaches (parent? discovery.input) root id
  asked_referenced : ∀ root ∈ asked, root ∈ discovery.referenced

/-! ## One walk -/

namespace Walk

/-- One walk is another after a turn. -/
def Turned (walk next : Walk) : Prop :=
  walk.turn? = some next

theorem run_eq_self {walk : Walk} (ended : walk.turn? = none) : walk.run = walk := by
  rw [run]
  split
  · rfl
  · rename_i next turned
    rw [ended] at turned
    cases turned

theorem run_eq_run {walk next : Walk} (turned : walk.turn? = some next) :
    walk.run = next.run := by
  rw [run]
  split
  · rename_i ended
    rw [turned] at ended
    cases ended
  · rename_i other taken
    rw [turned] at taken
    rw [Option.some.inj taken]

/-- Every walk comes to an end turn by turn, and at its end the stack is empty. -/
theorem run_ends (walk : Walk) :
    Relation.ReflTransGen Turned walk walk.run ∧ walk.run.stack = [] := by
  induction walk using run.induct with
  | case1 walk ended =>
      rw [run_eq_self ended]
      exact ⟨.refl, turn?_eq_none_iff.mp ended⟩
  | case2 walk next turned inductionHypothesis =>
      rw [run_eq_run turned]
      exact ⟨.head turned inductionHypothesis.1, inductionHypothesis.2⟩

theorem Sound.of_turns {asked : List ResourceId} {walk last : Walk}
    (sound : Sound asked walk) (turns : Relation.ReflTransGen Turned walk last) :
    Sound asked last := by
  induction turns with
  | refl => exact sound
  | tail _ turned inductionHypothesis =>
      exact (turn_of_turn? turned).sound inductionHypothesis

theorem keeps_of_turns {walk last : Walk} (turns : Relation.ReflTransGen Turned walk last) :
    last.discovery.input = walk.discovery.input ∧
      last.discovery.missing = walk.discovery.missing ∧
      ∀ id, walk.Known id → last.Known id := by
  induction turns with
  | refl => exact ⟨rfl, rfl, fun _ known => known⟩
  | tail _ turned inductionHypothesis =>
      obtain ⟨input, missing, known⟩ := inductionHypothesis
      have step := (turn_of_turn? turned).keeps
      exact ⟨step.1.trans input, step.2.1.trans missing,
        fun id before => step.2.2 id (known id before)⟩

/-- A walk may start at any id that is not referenced yet. -/
theorem open_start {asked : List ResourceId} {discovery : Discovery} {id : ResourceId}
    (settled : Settled asked discovery) (unknown : id ∉ discovery.referenced) :
    Open (asked ++ [id]) (Walk.mk discovery [] ∅ []) id where
  base := {
    parentless := settled.parentless
    missing_referenced := settled.missing_referenced
    stands := settled.stands
    reached := by
      intro other known
      rcases known with referenced | stacked
      · rcases settled.reached other referenced with missing | ⟨root, member, reaches⟩
        · exact .inl missing
        · exact .inr ⟨root, List.mem_append_left _ member, reaches⟩
      · cases stacked
    fresh := by
      intro other stacked
      cases stacked
    members := by
      intro other
      simp [ids]
    distinct := List.nodup_nil
    ascends := List.isChain_nil
    own := by
      intro frame stacked
      cases stacked }
  closed := settled.closed
  finished := by
    intro frame stacked
    cases stacked
  unmarked := by
    intro frame stacked
    cases stacked
  linked := by
    intro lower head
    cases head
  unreferenced := unknown
  unstacked := List.not_mem_nil
  reached := ⟨id, by simp, .refl⟩

/-- A walk that is ended leaves everything it met referenced. -/
theorem Sound.settled {asked : List ResourceId} {walk : Walk} (sound : Sound asked walk)
    (ended : walk.stack = [])
    (asked_known : ∀ root ∈ asked, walk.Known root) : Settled asked walk.discovery := by
  have known_iff : ∀ id, walk.Known id ↔ id ∈ walk.discovery.referenced := by
    intro id
    simp [Known, ids, ended]
  have returning : Returning walk := by
    rcases sound.phase with ascending | returning
    · obtain ⟨top, below, parent, stack, _⟩ := ascending.top
      rw [ended] at stack
      cases stack
    · exact returning
  exact {
    parentless := sound.base.parentless
    missing_referenced := sound.base.missing_referenced
    stands := sound.base.stands
    closed := fun child parent referenced isParent =>
      (known_iff parent).mp
        (returning.closed child parent ((known_iff child).mpr referenced) isParent)
    reached := fun id referenced => sound.base.reached id ((known_iff id).mpr referenced)
    asked_referenced := fun root member => (known_iff root).mp (asked_known root member) }

end Walk

/-! ## One visit after another -/

theorem settled_start (input : Table ResourceId (Shared ModelDef)) {missing : Shared ModelDef}
    (parentless : missing.value.parent = none) : Settled [] (start input missing) := by
  have only : ∀ id, id ∈ (start input missing).referenced ↔ id = ModelDef.missingId := by
    intro id
    simp only [start, Table.ofPairs, List.foldl_cons, List.foldl_nil, Std.ExtTreeMap.mem_insert,
      Std.ExtTreeMap.not_mem_empty, or_false, Std.LawfulEqOrd.compare_eq_iff_eq]
    exact eq_comm
  have unparented : parent? input ModelDef.missingId = none := by
    unfold parent?
    rw [if_pos rfl]
  exact {
    parentless := parentless
    missing_referenced := (only _).mpr rfl
    stands := by
      intro id model held
      have same := (only id).mp (Std.ExtTreeMap.mem_iff_isSome_getElem?.mpr (by simp [held]))
      subst same
      have stood : some missing = some model := by
        simpa [start, Table.ofPairs] using held
      exact .inl ⟨.inl rfl, (Option.some.inj stood).symm⟩
    closed := by
      intro child parent referenced isParent
      rw [(only child).mp referenced] at isParent
      exact absurd (unparented.symm.trans isParent) (by simp)
    reached := fun id referenced => .inl ((only id).mp referenced)
    asked_referenced := by
      intro root member
      cases member }

section Visiting

variable {asked : List ResourceId} {discovery : Discovery}

theorem Settled.more (settled : Settled asked discovery) {id : ResourceId}
    (referenced : id ∈ discovery.referenced) : Settled (asked ++ [id]) discovery :=
  { settled with
    reached := by
      intro other member
      rcases settled.reached other member with missing | ⟨root, asked, reaches⟩
      · exact .inl missing
      · exact .inr ⟨root, List.mem_append_left _ asked, reaches⟩
    asked_referenced := by
      intro root member
      rcases List.mem_append.mp member with before | last
      · exact settled.asked_referenced root before
      · rw [List.mem_singleton.mp last]
        exact referenced }

theorem visit_eq_run {id : ResourceId} (unknown : id ∉ discovery.referenced) :
    discovery.visit id =
      ((Walk.start discovery id).run.discovery, (Walk.start discovery id).run.warnings) := by
  unfold visit
  rw [if_neg (by simpa using unknown)]

/-- A visit keeps the pack and the missing model, and adds an id to those asked
for. -/
theorem Settled.visit (settled : Settled asked discovery) (id : ResourceId) :
    Settled (asked ++ [id]) (discovery.visit id).1 ∧
      (discovery.visit id).1.input = discovery.input ∧
      (discovery.visit id).1.missing = discovery.missing := by
  by_cases known : id ∈ discovery.referenced
  · have unchanged : discovery.visit id = (discovery, []) := by
      unfold Discovery.visit
      rw [if_pos (by simpa using known)]
    rw [unchanged]
    exact ⟨settled.more known, rfl, rfl⟩
  · have sound := (Walk.open_start settled known).sound
    obtain ⟨turns, ended⟩ := (Walk.start discovery id).run_ends
    obtain ⟨input, missing, keeps⟩ := Walk.keeps_of_turns turns
    rw [visit_eq_run known]
    refine ⟨Walk.Sound.settled (sound.of_turns turns) ended ?_, input, missing⟩
    intro root member
    apply keeps root
    rcases List.mem_append.mp member with before | last
    · exact .inl (settled.asked_referenced root before)
    · exact .inr (by simp [Walk.start, Walk.enter, Walk.ids, frame, List.mem_singleton.mp last])

theorem Settled.visitAll (settled : Settled asked discovery) (ids : List ResourceId) :
    Settled (asked ++ ids) (discovery.visitAll ids).1 ∧
      (discovery.visitAll ids).1.input = discovery.input ∧
      (discovery.visitAll ids).1.missing = discovery.missing := by
  induction ids generalizing asked discovery with
  | nil =>
      rw [List.append_nil]
      exact ⟨settled, rfl, rfl⟩
  | cons id rest inductionHypothesis =>
      obtain ⟨first, input, missing⟩ := settled.visit id
      obtain ⟨all, inputAll, missingAll⟩ := inductionHypothesis first
      rw [List.append_assoc] at all
      exact ⟨all, inputAll.trans input, missingAll.trans missing⟩

/-! ## What has been discovered -/

theorem Settled.mem_referenced_iff (settled : Settled asked discovery) {id : ResourceId} :
    id ∈ discovery.referenced ↔
      id = ModelDef.missingId ∨ ∃ root ∈ asked, Reaches (parent? discovery.input) root id := by
  constructor
  · exact settled.reached id
  · rintro (missing | ⟨root, member, reaches⟩)
    · exact missing ▸ settled.missing_referenced
    · exact reaches.closed settled.closed (settled.asked_referenced root member)

theorem Settled.getElem?_of_unusable (settled : Settled asked discovery) {id : ResourceId}
    (referenced : id ∈ discovery.referenced) (unusable : Unusable discovery.input id) :
    discovery.referenced[id]? = some discovery.missing := by
  obtain ⟨model, held⟩ := Option.isSome_iff_exists.mp
    (Std.ExtTreeMap.mem_iff_isSome_getElem?.mp referenced)
  rcases settled.stands id model held with ⟨_, same⟩ | ⟨usable, _⟩
  · rw [held, same]
  · exact absurd unusable usable

theorem Settled.getElem?_of_usable (settled : Settled asked discovery) {id : ResourceId}
    (referenced : id ∈ discovery.referenced) (usable : ¬ Unusable discovery.input id) :
    discovery.referenced[id]? = discovery.input[id]? := by
  obtain ⟨model, held⟩ := Option.isSome_iff_exists.mp
    (Std.ExtTreeMap.mem_iff_isSome_getElem?.mp referenced)
  rcases settled.stands id model held with ⟨unusable, _⟩ | ⟨_, own⟩
  · exact absurd unusable usable
  · rw [held, own]

/-- Discoveries of one pack that were asked for the same ids are the same. -/
theorem Settled.unique {asked' : List ResourceId} {discovery' : Discovery}
    (settled : Settled asked discovery) (settled' : Settled asked' discovery')
    (input : discovery'.input = discovery.input)
    (missing : discovery'.missing = discovery.missing)
    (same : ∀ id, id ∈ asked' ↔ id ∈ asked) : discovery' = discovery := by
  have members : ∀ id, id ∈ discovery'.referenced ↔ id ∈ discovery.referenced := by
    intro id
    rw [settled.mem_referenced_iff, settled'.mem_referenced_iff, input]
    simp only [same]
  have referenced : discovery'.referenced = discovery.referenced := by
    apply Std.ExtTreeMap.ext_getElem?
    intro id
    by_cases member : id ∈ discovery.referenced
    · have member' := (members id).mpr member
      by_cases unusable : Unusable discovery.input id
      · rw [settled.getElem?_of_unusable member unusable,
          settled'.getElem?_of_unusable member' (input ▸ unusable), missing]
      · rw [settled.getElem?_of_usable member unusable,
          settled'.getElem?_of_usable member' (input ▸ unusable), input]
    · have absent := (members id).not.mpr member
      rw [Std.ExtTreeMap.getElem?_eq_none member, Std.ExtTreeMap.getElem?_eq_none absent]
  obtain ⟨_, _, _⟩ := discovery'
  obtain ⟨_, _, _⟩ := discovery
  simp only at input missing referenced
  rw [input, missing, referenced]

end Visiting

theorem mem_unreferenced_iff {discovery : Discovery} {id : ResourceId} :
    id ∈ discovery.unreferenced ↔ id ∈ discovery.input ∧ id ∉ discovery.referenced := by
  rw [unreferenced, List.mem_filter, Std.ExtTreeMap.mem_keys, Std.ExtTreeMap.mem_iff_contains,
    Std.ExtTreeMap.mem_iff_contains, Bool.not_eq_true, Bool.not_eq_true']

theorem unreferenced_sorted (discovery : Discovery) :
    discovery.unreferenced.Pairwise (fun left right => compare left right = .lt) :=
  Std.ExtTreeMap.ordered_keys.filter _

/-- The ids that some roots need: each root marks some ids, and they lead to
others. The id of the missing model is needed always. -/
def Needed (input : Table ResourceId (Shared ModelDef)) (roots : List (List ResourceId))
    (id : ResourceId) : Prop :=
  id = ModelDef.missingId ∨
    ∃ root ∈ roots, ∃ marked ∈ root, Reaches (parent? input) marked id

theorem needed_iff {input : Table ResourceId (Shared ModelDef)}
    {roots : List (List ResourceId)} {id : ResourceId} :
    Needed input roots id ↔
      id = ModelDef.missingId ∨ ∃ marked ∈ roots.flatten, Reaches (parent? input) marked id := by
  unfold Needed
  constructor
  · rintro (missing | ⟨root, member, marked, inRoot, reaches⟩)
    · exact .inl missing
    · exact .inr ⟨marked, List.mem_flatten.mpr ⟨root, member, inRoot⟩, reaches⟩
  · rintro (missing | ⟨marked, member, reaches⟩)
    · exact .inl missing
    · obtain ⟨root, member, inRoot⟩ := List.mem_flatten.mp member
      exact .inr ⟨root, member, marked, inRoot, reaches⟩

/-- Every visit ends; what the roots need is referenced and nothing else; each
referenced id stands for its own model unless it is unusable; what is left over
is listed in order; and only the set of ids that are marked matters. -/
theorem visitAll_exact (input : Table ResourceId (Shared ModelDef)) (missing : Shared ModelDef)
    (parentless : missing.value.parent = none) (roots : List (List ResourceId)) :
    let found := ((start input missing).visitAll roots.flatten).1
    (∀ (discovery : Discovery) (id : ResourceId), ∃ last : Walk,
      Relation.ReflTransGen Walk.Turned (Walk.start discovery id) last ∧ last.stack = [] ∧
        (id ∉ discovery.referenced →
          discovery.visit id = (last.discovery, last.warnings))) ∧
    (∀ id, id ∈ found.referenced ↔ Needed input roots id) ∧
    (∀ id, Needed input roots id → Unusable input id →
      found.referenced[id]? = some missing) ∧
    (∀ id, Needed input roots id → ¬ Unusable input id →
      found.referenced[id]? = input[id]? ∧ id ∈ input) ∧
    (∀ id, input[id]? ≠ some missing → Needed input roots id →
      (found.referenced[id]? = some missing ↔ Unusable input id)) ∧
    (∀ id, id ∈ found.unreferenced ↔ id ∈ input ∧ ¬ Needed input roots id) ∧
    found.unreferenced.Pairwise (fun left right => compare left right = .lt) ∧
    (∀ others : List (List ResourceId),
      (∀ id, id ∈ others.flatten ↔ id ∈ roots.flatten) →
        ((start input missing).visitAll others.flatten).1 = found) := by
  intro found
  obtain ⟨settled, sameInput, sameMissing⟩ :=
    (settled_start input parentless).visitAll roots.flatten
  rw [List.nil_append] at settled
  change Settled roots.flatten found at settled
  change found.input = input at sameInput
  change found.missing = missing at sameMissing
  have referenced_iff : ∀ id, id ∈ found.referenced ↔ Needed input roots id := by
    intro id
    rw [settled.mem_referenced_iff, needed_iff, sameInput]
  have unusable : ∀ id, Needed input roots id → Unusable input id →
      found.referenced[id]? = some missing := by
    intro id needed unusable
    rw [settled.getElem?_of_unusable ((referenced_iff id).mpr needed) (sameInput ▸ unusable),
      sameMissing]
  have usable : ∀ id, Needed input roots id → ¬ Unusable input id →
      found.referenced[id]? = input[id]? := by
    intro id needed usable
    rw [settled.getElem?_of_usable ((referenced_iff id).mpr needed) (sameInput ▸ usable),
      sameInput]
  refine ⟨?ends, referenced_iff, unusable, ?own, ?placeholder, ?leftOver, ?sorted, ?order⟩
  case ends =>
    intro discovery id
    obtain ⟨turns, ended⟩ := (Walk.start discovery id).run_ends
    exact ⟨_, turns, ended, visit_eq_run⟩
  case own =>
    intro id needed notUnusable
    refine ⟨usable id needed notUnusable, ?_⟩
    have held : input[id]? ≠ none := fun absent => notUnusable (.inr (.inl absent))
    exact Std.ExtTreeMap.mem_iff_isSome_getElem?.mpr (Option.isSome_iff_ne_none.mpr held)
  case placeholder =>
    intro id other needed
    constructor
    · intro stands
      by_contra notUnusable
      exact other ((usable id needed notUnusable).symm.trans stands)
    · exact unusable id needed
  case leftOver =>
    intro id
    rw [mem_unreferenced_iff, sameInput, referenced_iff]
  case sorted => exact unreferenced_sorted found
  case order =>
    intro others same
    obtain ⟨settledOthers, inputOthers, missingOthers⟩ :=
      (settled_start input parentless).visitAll others.flatten
    rw [List.nil_append] at settledOthers
    exact settled.unique settledOthers (inputOthers.trans sameInput.symm)
      (missingOthers.trans sameMissing.symm) same

/-- A model that is its own parent is replaced, and one that merely has it as
its parent is not. -/
theorem visitAll_exact_selfLoop :
    let missing : Shared ModelDef := ⟨0, ModelDef.missing⟩
    let loop : ResourceId := ⟨"pack", "loop"⟩
    let leaf : ResourceId := ⟨"pack", "leaf"⟩
    let own : Shared ModelDef := ⟨1, { ModelDef.missing with parent := some loop }⟩
    let found := ((start (Table.ofPairs [(loop, own), (leaf, own)]) missing).visitAll [leaf]).1
    missing.value.parent = none ∧ found.referenced[loop]? = some missing ∧
      found.referenced[leaf]? = some own := by
  intro missing loop leaf own found
  let pack : Table ResourceId (Shared ModelDef) := Table.ofPairs [(loop, own), (leaf, own)]
  obtain ⟨_, _, unusable, usable, _⟩ := visitAll_exact pack missing rfl [[leaf]]
  have held : pack[loop]? = some own ∧ pack[leaf]? = some own := by
    simp only [pack, Table.ofPairs, List.foldl_cons, List.foldl_nil,
      Std.ExtTreeMap.getElem?_insert]
    exact ⟨by simp, by simp⟩
  have loop_parent : IsParent (parent? pack) loop loop := by
    simp [IsParent, parent?, held.1, own, loop, ModelDef.missingId]
  have leaf_parent : IsParent (parent? pack) leaf loop := by
    simp [IsParent, parent?, held.2, own, leaf, ModelDef.missingId]
  have usable_leaf : ¬ Unusable pack leaf := by
    rintro (same | absent | onLoop)
    · simp [leaf, ModelDef.missingId] at same
    · rw [held.2] at absent
      cases absent
    · obtain ⟨parent, isParent, back⟩ := onLoop_iff.mp onLoop
      have closed : ∀ child next, child = loop → IsParent (parent? pack) child next →
          next = loop := by
        rintro child next rfl step
        exact step.unique loop_parent
      have stays : leaf = loop := back.closed closed (isParent.unique leaf_parent)
      simp [leaf, loop] at stays
  refine ⟨rfl, ?_, ?_⟩
  · exact unusable loop (.inr ⟨[leaf], by simp, leaf, by simp, .single leaf_parent⟩)
      (.inr (.inr (.single loop_parent)))
  · exact (usable leaf (.inr ⟨[leaf], by simp, leaf, by simp, .refl⟩) usable_leaf).1.trans held.2

end PackModels.Discovery
