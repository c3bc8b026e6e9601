import PackModels.Proofs.Discovery.Coverage

/-!
Contract: discovery complains once about each hole and once about each loop.

An id is complained about when it is entered and the pack does not hold it. It
is entered only while it is not known, so that happens once, however many ids
and visits lead to it. A loop is complained about when the way up comes back to
the stack. Its ids are marked then, and they stay marked on the stack until they
are referenced, so no way up goes round the loop again. An id on a loop that is
not marked cannot be left: on the way back the marks are exact.

Owns: `Told`, which complaints are due for what is known, and that every turn of
a walk keeps it.

Does not own: the wording of the complaints (`Warning.message`).
-/

namespace PackModels

/-- Whether a complaint is about the loop that an id lies on. -/
def Warning.isLoopOf (id : ResourceId) : Warning → Bool
  | .modelLoop path => path.contains id
  | _ => false

namespace Discovery

open PackModels.Lineage

/-- The complaints that may be made while some ids are known and some have been
marked as those of loops. The path of a loop begins and ends at one id. -/
inductive Due (input : Table ResourceId (Shared ModelDef)) (known looped : ResourceId → Prop) :
    Warning → Prop where
  | hole (id : ResourceId) (isKnown : known id) (other : id ≠ ModelDef.missingId)
      (absent : input[id]? = none) : Due input known looped (.modelMissing id)
  | loop (first : ResourceId) (others : List ResourceId)
      (circuit : Circuit (parent? input) first others)
      (marked : ∀ id ∈ first :: others, looped id) :
      Due input known looped (.modelLoop (first :: (others ++ [first])))

/-- Some complaints are those that are due: none is made in vain, each hole that
is known is complained about once, and so is each loop that was marked. -/
structure Told (input : Table ResourceId (Shared ModelDef)) (known looped : ResourceId → Prop)
    (warnings : List Warning) : Prop where
  due : ∀ warning ∈ warnings, Due input known looped warning
  holes : ∀ id, known id → id ≠ ModelDef.missingId → input[id]? = none →
    warnings.count (.modelMissing id) = 1
  loops : ∀ id, looped id → OnLoop (parent? input) id →
    warnings.countP (Warning.isLoopOf id) = 1

/-! ## One more complaint -/

section Telling

variable {input : Table ResourceId (Shared ModelDef)} {known looped : ResourceId → Prop}
  {known' looped' : ResourceId → Prop} {warnings : List Warning} {id : ResourceId}

theorem Due.mono {warning : Warning} (due : Due input known looped warning)
    (knows : ∀ id, known id → known' id) (marks : ∀ id, looped id → looped' id) :
    Due input known' looped' warning := by
  cases due with
  | hole id isKnown other absent => exact .hole id (knows id isKnown) other absent
  | loop first others circuit marked =>
      exact .loop first others circuit fun id member => marks id (marked id member)

/-- Ids that are on no loop may be taken for marked ones. -/
theorem Told.congr (told : Told input known looped warnings)
    (same : ∀ id, known' id ↔ known id) (marks : ∀ id, looped id → looped' id)
    (onLoop : ∀ id, looped' id → OnLoop (parent? input) id → looped id) :
    Told input known' looped' warnings where
  due := fun warning member =>
    (told.due warning member).mono (fun id => (same id).mpr) marks
  holes := fun id isKnown => told.holes id ((same id).mp isKnown)
  loops := fun id marked loop => told.loops id (onLoop id marked loop) loop

theorem Told.count_of_unknown (told : Told input known looped warnings) (unknown : ¬ known id) :
    warnings.count (.modelMissing id) = 0 := by
  rw [List.count_eq_zero]
  intro member
  cases told.due _ member with
  | hole _ isKnown => exact unknown isKnown

theorem isLoopOf_modelLoop {first : ResourceId} {others : List ResourceId} :
    Warning.isLoopOf id (.modelLoop (first :: (others ++ [first]))) = true ↔
      id ∈ first :: others := by
  simp [Warning.isLoopOf, or_comm]

theorem Told.countP_of_unmarked (told : Told input known looped warnings)
    (unmarked : ¬ looped id) : warnings.countP (Warning.isLoopOf id) = 0 := by
  rw [List.countP_eq_zero]
  intro warning member isLoop
  cases told.due warning member with
  | hole => cases isLoop
  | loop first others circuit marked =>
      exact unmarked (marked id (isLoopOf_modelLoop.mp isLoop))

/-- An id that the pack holds becomes known without a complaint. -/
theorem Told.addHeld (told : Told input known looped warnings) (held : input[id]? ≠ none) :
    Told input (fun next => next = id ∨ known next) looped warnings where
  due := fun warning member =>
    (told.due warning member).mono (fun _ => .inr) fun _ marked => marked
  holes := by
    intro next isKnown notMissing absent
    rcases isKnown with same | before
    · exact absurd (same ▸ absent) held
    · exact told.holes next before notMissing absent
  loops := told.loops

/-- Any other id is complained about as it becomes known, and it was not before. -/
theorem Told.addHole (told : Told input known looped warnings) (unknown : ¬ known id)
    (other : id ≠ ModelDef.missingId) (hole : input[id]? = none) :
    Told input (fun next => next = id ∨ known next) looped
      (warnings ++ [.modelMissing id]) where
  due := by
    intro warning member
    rcases List.mem_append.mp member with earlier | new
    · exact (told.due warning earlier).mono (fun _ => .inr) fun _ marked => marked
    · rw [List.mem_singleton.mp new]
      exact .hole id (.inl rfl) other hole
  holes := by
    intro next isKnown notMissing absent
    rw [List.count_append]
    by_cases same : next = id
    · rw [same, told.count_of_unknown unknown, List.count_singleton_self]
    · have apart : Warning.modelMissing next ∉ [Warning.modelMissing id] := by
        simpa using same
      rw [told.holes next (isKnown.resolve_left same) notMissing absent,
        List.count_eq_zero_of_not_mem apart]
  loops := by
    intro next marked loop
    rw [List.countP_append, told.loops next marked loop]
    rfl

/-- An id that becomes known is complained about if the pack does not hold it. -/
theorem Told.enter {discovery : Discovery}
    (told : Told discovery.input known looped warnings) (unknown : ¬ known id)
    (other : id ≠ ModelDef.missingId) :
    Told discovery.input (fun next => next = id ∨ known next) looped
      (warnings ++ discovery.fetchWarnings id) := by
  unfold fetchWarnings
  by_cases held : id ∈ discovery.input
  · rw [if_pos (by simpa using held), List.append_nil]
    apply told.addHeld
    rw [Std.ExtTreeMap.mem_iff_isSome_getElem?] at held
    exact Option.isSome_iff_ne_none.mp held
  · rw [if_neg (by simpa using held)]
    exact told.addHole unknown other (Std.ExtTreeMap.getElem?_eq_none held)

/-- A loop that is marked is complained about. -/
theorem Told.addLoop (told : Told input known looped warnings) {first : ResourceId}
    {others : List ResourceId} (circuit : Circuit (parent? input) first others)
    (unmarked : ∀ id ∈ first :: others, ¬ looped id) :
    Told input known (fun id => id ∈ first :: others ∨ looped id)
      (warnings ++ [.modelLoop (first :: (others ++ [first]))]) where
  due := by
    intro warning member
    rcases List.mem_append.mp member with earlier | new
    · exact (told.due warning earlier).mono (fun _ isKnown => isKnown) fun _ => .inr
    · rw [List.mem_singleton.mp new]
      exact .loop first others circuit fun _ => .inl
  holes := by
    intro id isKnown notMissing absent
    have apart : Warning.modelMissing id ∉ [Warning.modelLoop (first :: (others ++ [first]))] := by
      simp
    rw [List.count_append, told.holes id isKnown notMissing absent,
      List.count_eq_zero_of_not_mem apart]
  loops := by
    intro id marked loop
    rw [List.countP_append, List.countP_singleton]
    by_cases named : id ∈ first :: others
    · rw [told.countP_of_unmarked (unmarked id named), if_pos (isLoopOf_modelLoop.mpr named)]
    · rw [told.loops id (marked.resolve_left named) loop,
        if_neg (isLoopOf_modelLoop.not.mpr named)]

end Telling

/-! ## One walk -/

namespace Walk

/-- An id that is referenced or marked on the stack. -/
def Marked (walk : Walk) (id : ResourceId) : Prop :=
  id ∈ walk.discovery.referenced ∨ ∃ frame ∈ walk.stack, frame.id = id ∧ frame.onLoop = true

/-- With the complaints of earlier walks, a walk has made those that are due. -/
def HasTold (before : List Warning) (walk : Walk) : Prop :=
  Told walk.discovery.input walk.Known walk.Marked (before ++ walk.warnings)

section Turning

variable {asked : List ResourceId} {before : List Warning} {walk : Walk} {top : Frame}
  {below : List Frame} {id : ResourceId} {others : List ResourceId}

theorem HasTold.leave (told : walk.HasTold before) (returning : Returning walk)
    (stack : walk.stack = top :: below) : (walk.leave top below).HasTold before := by
  have member : top ∈ walk.stack := by simp [stack]
  refine Told.congr told (known_leave stack) ?_ ?_
  · rintro id (referenced | ⟨frame, stacked, same, marked⟩)
    · left
      simp [Walk.leave, refer, referenced]
    · rw [stack] at stacked
      rcases List.mem_cons.mp stacked with isTop | lower
      · left
        simp [Walk.leave, refer, ← same, isTop]
      · exact .inr ⟨frame, lower, same, marked⟩
  · rintro id (referenced | ⟨frame, lower, same, marked⟩) loop
    · simp only [Walk.leave, refer, Std.ExtTreeMap.mem_insert,
        Std.LawfulEqOrd.compare_eq_iff_eq] at referenced
      rcases referenced with same | referenced
      · -- An id on a loop is marked by the time it is left.
        exact .inr ⟨top, member, same, (returning.marked top member).mpr (same ▸ loop)⟩
      · exact .inl referenced
    · exact .inr ⟨frame, stack ▸ List.mem_cons_of_mem _ lower, same, marked⟩

theorem HasTold.skip (told : walk.HasTold before) (stack : walk.stack = top :: below)
    (pending : List ResourceId) :
    (walk.skip ({ top with pending := pending } :: below)).HasTold before := by
  have marked_iff : ∀ id, (walk.skip ({ top with pending := pending } :: below)).Marked id ↔
      walk.Marked id := by
    intro id
    unfold Marked
    rw [stack]
    simp [Walk.skip]
  refine Told.congr told ?_ (fun id => (marked_iff id).mpr)
    fun id marked _ => (marked_iff id).mp marked
  intro id
  unfold Known
  rw [ids_of_stack stack]
  rfl

theorem HasTold.enter (told : walk.HasTold before) (unknown : ¬ walk.Known id)
    (other : id ≠ ModelDef.missingId) : (walk.enter id).HasTold before := by
  have entered := Told.enter told unknown other
  rw [List.append_assoc] at entered
  refine entered.congr known_enter ?_ ?_
  · rintro next (referenced | ⟨frame, stacked, same, marked⟩)
    · exact .inl referenced
    · exact .inr ⟨frame, List.mem_cons_of_mem _ stacked, same, marked⟩
  · rintro next (referenced | ⟨frame, stacked, same, marked⟩) _
    · exact .inl referenced
    · rcases List.mem_cons.mp stacked with isTop | lower
      · rw [isTop] at marked
        cases marked
      · exact .inr ⟨frame, lower, same, marked⟩

theorem pathFrom_split {front back : List Frame} {frame : Frame}
    (before : ∀ upper ∈ front, upper.id ≠ frame.id) :
    Frame.pathFrom frame.id (front ++ frame :: back) =
      frame.id :: (front.map Frame.id).reverse := by
  induction front with
  | nil => simp [Frame.pathFrom]
  | cons top front inductionHypothesis =>
      have other := before top (by simp)
      have rest := inductionHypothesis fun upper member =>
        before upper (List.mem_cons_of_mem _ member)
      simp only [List.cons_append, Frame.pathFrom, if_neg other, rest, List.map_cons,
        List.reverse_cons]

/-- The ids of a stack, from the parent of the top up to the top, go once around
a loop. -/
theorem Base.circuit (base : Base asked walk) (stack : walk.stack = top :: below)
    {entry : ResourceId} (isParent : IsParent (parent? walk.discovery.input) top.id entry)
    {front back : List ResourceId} (split : walk.ids = front ++ entry :: back) :
    Circuit (parent? walk.discovery.input) entry front.reverse := by
  have regroup : walk.ids = (front ++ [entry]) ++ back := by simp [split]
  refine Ascends.circuit ?ascends ?first isParent ?distinct
  case ascends => exact List.IsChain.left_of_append (regroup ▸ base.ascends)
  case first =>
    have first := congrArg List.head? (ids_of_stack stack)
    rw [split] at first
    simpa [List.head?_append] using first
  case distinct => exact (List.nodup_append.mp (regroup ▸ base.distinct)).1

theorem Ascending.marked_iff (ascending : Ascending walk) :
    walk.Marked id ↔ id ∈ walk.discovery.referenced := by
  constructor
  · rintro (referenced | ⟨frame, stacked, _, marked⟩)
    · exact referenced
    · rw [ascending.unmarked frame stacked] at marked
      cases marked
  · exact .inl

/-- Closing a loop marks its ids and no others. -/
theorem Ascending.marked_closeLoop_iff (ascending : Ascending walk)
    (stack : walk.stack = top :: below) {front back : List Frame} {entry : Frame}
    (split : settledStack top below = front ++ entry :: back)
    (apart : ∀ upper ∈ front, upper.id ≠ entry.id) :
    (walk.closeLoop entry.id (settledStack top below)).Marked id ↔
      id ∈ entry.id :: (front.map Frame.id).reverse ∨ walk.Marked id := by
  have marks : (walk.closeLoop entry.id (settledStack top below)).stack =
      front.map Frame.mark ++ entry.mark :: back := by
    show Frame.markDownTo entry.id (settledStack top below) = _
    rw [split]
    exact markDownTo_split apart
  rw [ascending.marked_iff, Marked, marks]
  constructor
  · rintro (referenced | ⟨frame, stacked, rfl, marked⟩)
    · exact .inr referenced
    · rw [List.mem_append, List.mem_cons, List.mem_map] at stacked
      rcases stacked with ⟨upper, member, rfl⟩ | rfl | lower
      · have above : upper.id ∈ front.map Frame.id := List.mem_map_of_mem member
        exact .inl (List.mem_cons_of_mem _ (List.mem_reverse.mpr above))
      · exact .inl List.mem_cons_self
      · rw [unmarked_settledStack ascending stack frame (by simp [split, lower])] at marked
        cases marked
  · rintro (named | referenced)
    · right
      rcases List.mem_cons.mp named with isEntry | above
      · exact ⟨entry.mark, by simp, isEntry.symm, rfl⟩
      · obtain ⟨upper, member, same⟩ := List.mem_map.mp (List.mem_reverse.mp above)
        exact ⟨upper.mark, List.mem_append_left _ (List.mem_map_of_mem member), same, rfl⟩
    · exact .inl referenced

theorem HasTold.closeLoop (told : walk.HasTold before) (sound : Sound asked walk)
    (stack : walk.stack = top :: below) (pending : top.pending = id :: others)
    (stacked : id ∈ walk.onStack) :
    (walk.closeLoop id ({ top with pending := others } :: below)).HasTold before := by
  obtain ⟨ascending, rfl, isParent, _⟩ := sound.ascending stack pending
  obtain ⟨front, entry, back, split, rfl, idsSplit, apart⟩ := sound.exists_split stack stacked
  show (walk.closeLoop entry.id (settledStack top below)).HasTold before
  have circuit := sound.base.circuit stack isParent idsSplit
  have unmarked : ∀ id ∈ entry.id :: (front.map Frame.id).reverse, ¬ walk.Marked id := by
    intro id member
    have stacked : id ∈ walk.ids := by
      rw [idsSplit]
      simp only [List.mem_cons, List.mem_reverse, List.mem_append] at member ⊢
      tauto
    rw [ascending.marked_iff]
    exact sound.base.fresh id stacked
  have warned : (walk.closeLoop entry.id (settledStack top below)).warnings = walk.warnings ++
      [.modelLoop (entry.id :: ((front.map Frame.id).reverse ++ [entry.id]))] := by
    show walk.warnings ++ [.modelLoop (Frame.pathFrom entry.id (settledStack top below) ++ _)] = _
    rw [split, pathFrom_split apart, List.cons_append]
  have known : ∀ id, (walk.closeLoop entry.id (settledStack top below)).Known id ↔
      walk.Known id := by
    intro id
    unfold Known
    rw [ids_closeLoop, ids_of_stack stack]
    rfl
  unfold HasTold
  rw [warned, ← List.append_assoc]
  exact (Told.addLoop told circuit unmarked).congr known
    (fun id => (ascending.marked_closeLoop_iff stack split apart).mpr)
    fun id marked _ => (ascending.marked_closeLoop_iff stack split apart).mp marked

/-- Every turn keeps the complaints to those that are due. -/
theorem Turn.hasTold {next : Walk} (turn : Turn walk next) (sound : Sound asked walk)
    (told : walk.HasTold before) : next.HasTold before := by
  cases turn with
  | leave top below stack finished =>
      exact told.leave (sound.returning stack finished) stack
  | skip top below id others stack pending known =>
      exact told.skip stack others
  | closeLoop top below id others stack pending unknown stacked =>
      exact told.closeLoop sound stack pending stacked
  | enter top below id others stack pending unknown unstacked =>
      have ready := open_parent sound stack pending unknown unstacked
      refine (told.skip stack others).enter ?_ ?_
      · rintro (referenced | met)
        · exact ready.unreferenced referenced
        · exact ready.unstacked met
      · intro same
        exact unknown (same ▸ sound.base.missing_referenced)

theorem HasTold.of_turns {last : Walk} (told : walk.HasTold before) (sound : Sound asked walk)
    (turns : Relation.ReflTransGen Turned walk last) : last.HasTold before := by
  induction turns with
  | refl => exact told
  | tail turns turned inductionHypothesis =>
      exact (turn_of_turn? turned).hasTold (sound.of_turns turns) inductionHypothesis

end Turning

end Walk

/-! ## One visit after another -/

/-- Some complaints are those that are due for what a discovery has referenced. -/
def HasTold (discovery : Discovery) (warnings : List Warning) : Prop :=
  Told discovery.input (· ∈ discovery.referenced) (· ∈ discovery.referenced) warnings

section Visiting

variable {asked : List ResourceId} {discovery : Discovery} {before : List Warning}

/-- With an empty stack, what is known or marked is what is referenced. -/
theorem hasTold_iff_of_ended {walk : Walk} (ended : walk.stack = []) :
    walk.HasTold before ↔ walk.discovery.HasTold (before ++ walk.warnings) := by
  have known : walk.Known = (· ∈ walk.discovery.referenced) := by
    funext id
    simp [Walk.Known, Walk.ids, ended]
  have marked : walk.Marked = (· ∈ walk.discovery.referenced) := by
    funext id
    simp [Walk.Marked, ended]
  unfold Walk.HasTold HasTold
  rw [known, marked]

theorem HasTold.visit (told : discovery.HasTold before) (settled : Settled asked discovery)
    (id : ResourceId) :
    (discovery.visit id).1.HasTold (before ++ (discovery.visit id).2) := by
  by_cases known : id ∈ discovery.referenced
  · have unchanged : discovery.visit id = (discovery, []) := by
      unfold Discovery.visit
      rw [if_pos (by simpa using known)]
    rw [unchanged, List.append_nil]
    exact told
  · have ready := Walk.open_start settled known
    have start : (Walk.mk discovery [] ∅ []).HasTold before :=
      (hasTold_iff_of_ended rfl).mpr (by rwa [List.append_nil])
    have entered : (Walk.start discovery id).HasTold before := by
      refine start.enter ?_ ?_
      · rintro (referenced | met)
        · exact known referenced
        · cases met
      · intro same
        exact known (same ▸ settled.missing_referenced)
    obtain ⟨turns, ended⟩ := (Walk.start discovery id).run_ends
    rw [visit_eq_run known]
    exact (hasTold_iff_of_ended ended).mp (entered.of_turns ready.sound turns)

theorem HasTold.visitAll (told : discovery.HasTold before) (settled : Settled asked discovery)
    (ids : List ResourceId) :
    (discovery.visitAll ids).1.HasTold (before ++ (discovery.visitAll ids).2) := by
  induction ids generalizing asked discovery before with
  | nil =>
      show discovery.HasTold (before ++ [])
      rw [List.append_nil]
      exact told
  | cons id rest inductionHypothesis =>
      have all := inductionHypothesis (told.visit settled id) (settled.visit id).1
      rw [List.append_assoc] at all
      exact all

end Visiting

/-- Before any visit nothing is due: the id of the missing model is no hole and
on no loop. -/
theorem hasTold_start (input : Table ResourceId (Shared ModelDef)) {missing : Shared ModelDef}
    (parentless : missing.value.parent = none) : (start input missing).HasTold [] := by
  have only : ∀ id ∈ (start input missing).referenced, id = ModelDef.missingId := by
    intro id referenced
    rcases (settled_start input parentless).reached id referenced with same | ⟨root, member, _⟩
    · exact same
    · cases member
  refine ⟨?_, ?_, ?_⟩
  · intro warning member
    cases member
  · intro id referenced other
    exact absurd (only id referenced) other
  · intro id referenced loop
    rw [only id referenced] at loop
    exact absurd loop (not_onLoop_of_parent?_eq_none (if_pos rfl))

/-- Discovery complains exactly once about each needed id that the pack does not
hold and exactly once about each loop of parents that is needed. It names the
whole loop and nothing else, from child to parent and back to where it began,
and it complains about nothing else. -/
theorem visitAll_warnings_exact (input : Table ResourceId (Shared ModelDef))
    (missing : Shared ModelDef) (parentless : missing.value.parent = none)
    (roots : List (List ResourceId)) :
    let warnings := ((start input missing).visitAll roots.flatten).2
    (∀ id, Needed input roots id → id ≠ ModelDef.missingId → input[id]? = none →
      warnings.count (.modelMissing id) = 1) ∧
    (∀ id, Needed input roots id → OnLoop (parent? input) id →
      warnings.countP (Warning.isLoopOf id) = 1) ∧
    (∀ warning ∈ warnings,
      (∃ id, warning = .modelMissing id ∧ Needed input roots id ∧ id ≠ ModelDef.missingId ∧
        input[id]? = none) ∨
      (∃ first others, warning = .modelLoop (first :: (others ++ [first])) ∧
        Circuit (parent? input) first others ∧
        (∀ id, id ∈ first :: others ↔ Reaches (parent? input) first id) ∧
        ∀ id ∈ first :: others, Needed input roots id)) := by
  intro warnings
  have start_settled := settled_start input parentless
  obtain ⟨settled, sameInput, _⟩ := start_settled.visitAll roots.flatten
  have told := (hasTold_start input parentless).visitAll start_settled roots.flatten
  rw [List.nil_append] at settled told
  have referenced_iff : ∀ id,
      id ∈ ((start input missing).visitAll roots.flatten).1.referenced ↔ Needed input roots id := by
    intro id
    rw [settled.mem_referenced_iff, needed_iff, sameInput]
    rfl
  unfold HasTold at told
  rw [sameInput] at told
  change Told input _ _ warnings at told
  refine ⟨?_, ?_, ?_⟩
  · intro id needed
    exact told.holes id ((referenced_iff id).mpr needed)
  · intro id needed
    exact told.loops id ((referenced_iff id).mpr needed)
  · intro warning member
    cases told.due warning member with
    | hole id isKnown other absent =>
        exact .inl ⟨id, rfl, (referenced_iff id).mp isKnown, other, absent⟩
    | loop first others circuit marked =>
        exact .inr ⟨first, others, rfl, circuit, fun _ => circuit.mem_iff,
          fun id named => (referenced_iff id).mp (marked id named)⟩

/-- Two models that are each other's parent and are asked for by two roots, one
of which asks for an absent model as well. -/
theorem visitAll_warnings_exact_twoLoop :
    let missing : Shared ModelDef := ⟨0, ModelDef.missing⟩
    let left : ResourceId := ⟨"pack", "left"⟩
    let right : ResourceId := ⟨"pack", "right"⟩
    let hole : ResourceId := ⟨"pack", "hole"⟩
    let child (parent : ResourceId) : ModelDef := { ModelDef.blank with parent := some parent }
    let pack : Table ResourceId (Shared ModelDef) :=
      Table.ofPairs [(left, ⟨1, child right⟩), (right, ⟨2, child left⟩)]
    let warnings := ((start pack missing).visitAll [left, hole, right]).2
    missing.value.parent = none ∧ warnings.count (.modelMissing hole) = 1 ∧
      warnings.countP (Warning.isLoopOf left) = 1 := by
  intro missing left right hole child pack warnings
  obtain ⟨holes, loops, _⟩ := visitAll_warnings_exact pack missing rfl [[left, hole], [right]]
  have absent : pack[hole]? = none := by
    simp [pack, Table.ofPairs, left, right, hole]
  have held : pack[left]? = some ⟨1, child right⟩ ∧ pack[right]? = some ⟨2, child left⟩ := by
    simp only [pack, Table.ofPairs, List.foldl_cons, List.foldl_nil,
      Std.ExtTreeMap.getElem?_insert]
    exact ⟨by simp [left, right], by simp⟩
  have up : IsParent (parent? pack) left right := by
    simp [IsParent, parent?, held.1, child, left, ModelDef.missingId]
  have back : IsParent (parent? pack) right left := by
    simp [IsParent, parent?, held.2, child, right, ModelDef.missingId]
  refine ⟨rfl, ?_, ?_⟩
  · exact holes hole (.inr ⟨[left, hole], by simp, hole, by simp, .refl⟩) (by decide) absent
  · exact loops left (.inr ⟨[right], by simp, right, by simp, .single back⟩)
      (.tail (.single up) back)

end Discovery

end PackModels
