import PackModels.Discovery
import PackModels.Proofs.Lineage

/-!
Contract: what a walk of discovery keeps true, and what it leaves behind.

A walk first goes up from its id, entering ids none of which is known to be on
a loop, and then takes them off the stack again. `Sound` says of both phases
what holds between any two turns: the stack ascends, what is referenced stands
for the right model, and everything met can be reached from an id that was
asked for. On the way up what is referenced is closed under parents; on the way
back what is referenced or stacked is, and the marks on the stack are exact.
`Turn.sound` shows that every turn keeps this, so a walk with an empty stack
has referenced a closed set of ids.
-/

namespace PackModels.Discovery

open PackModels.Lineage

/-- The parent that a pack gives to an id. Neither the id of the missing model
nor one that the pack does not hold has any. -/
def parent? (input : Table ResourceId (Shared ModelDef)) (id : ResourceId) :
    Option ResourceId :=
  if id = ModelDef.missingId then
    none
  else
    input[id]?.bind (fun model => model.value.parent)

/-- The pack has no model that can be used for an id. -/
def Unusable (input : Table ResourceId (Shared ModelDef)) (id : ResourceId) : Prop :=
  id = ModelDef.missingId ∨ input[id]? = none ∨ OnLoop (parent? input) id

/-- The model that an id comes to: its own, or the missing one. -/
def StandsFor (discovery : Discovery) (id : ResourceId) (model : Shared ModelDef) : Prop :=
  (Unusable discovery.input id ∧ model = discovery.missing) ∨
    (¬ Unusable discovery.input id ∧ discovery.input[id]? = some model)

/-- What is referenced holds the parents of its members. -/
def ReferencedClosed (discovery : Discovery) : Prop :=
  ∀ child parent, child ∈ discovery.referenced → IsParent (parent? discovery.input) child parent →
    parent ∈ discovery.referenced

theorem references_fetch {discovery : Discovery}
    (parentless : discovery.missing.value.parent = none)
    {id : ResourceId} (own : id ≠ ModelDef.missingId) :
    (discovery.fetch id).value.references = (parent? discovery.input id).toList := by
  unfold fetch ModelDef.references parent?
  rw [if_neg own]
  cases discovery.input[id]? with
  | none => simp [parentless]
  | some model => rfl

namespace Walk

/-- The ids on the stack, the last one entered first. -/
def ids (walk : Walk) : List ResourceId :=
  walk.stack.map Frame.id

/-- An id that is referenced or on the stack. -/
def Known (walk : Walk) (id : ResourceId) : Prop :=
  id ∈ walk.discovery.referenced ∨ id ∈ walk.ids

/-- What holds in both phases of a walk. -/
structure Base (asked : List ResourceId) (walk : Walk) : Prop where
  parentless : walk.discovery.missing.value.parent = none
  missing_referenced : ModelDef.missingId ∈ walk.discovery.referenced
  stands : ∀ id model, walk.discovery.referenced[id]? = some model →
    StandsFor walk.discovery id model
  reached : ∀ id, walk.Known id →
    id = ModelDef.missingId ∨ ∃ root ∈ asked, Reaches (parent? walk.discovery.input) root id
  fresh : ∀ id ∈ walk.ids, id ∉ walk.discovery.referenced
  members : ∀ id, id ∈ walk.onStack ↔ id ∈ walk.ids
  distinct : walk.ids.Nodup
  ascends : Ascends (parent? walk.discovery.input) walk.ids
  own : ∀ frame ∈ walk.stack, frame.model = walk.discovery.fetch frame.id

/-- On the way up: the parent of the top is still to be looked at. -/
structure Ascending (walk : Walk) : Prop where
  closed : ReferencedClosed walk.discovery
  top : ∃ top below parent, walk.stack = top :: below ∧ top.pending = [parent] ∧
    parent? walk.discovery.input top.id = some parent ∧ ∀ frame ∈ below, frame.pending = []
  unmarked : ∀ frame ∈ walk.stack, frame.onLoop = false

/-- On the way back: nothing is left to look at, and the marks say which ids
are on a loop. -/
structure Returning (walk : Walk) : Prop where
  closed : ∀ child parent, walk.Known child → IsParent (parent? walk.discovery.input) child parent →
    walk.Known parent
  finished : ∀ frame ∈ walk.stack, frame.pending = []
  marked : ∀ frame ∈ walk.stack,
    frame.onLoop = true ↔ OnLoop (parent? walk.discovery.input) frame.id

/-- What holds between any two turns of a walk. -/
structure Sound (asked : List ResourceId) (walk : Walk) : Prop where
  base : Base asked walk
  phase : Ascending walk ∨ Returning walk

/-! ## Taking an id off the stack -/

section Leave

variable {asked : List ResourceId} {walk : Walk} {top : Frame} {below : List Frame}

theorem ids_of_stack (stack : walk.stack = top :: below) :
    walk.ids = top.id :: below.map Frame.id := by
  rw [ids, stack, List.map_cons]

theorem known_leave (stack : walk.stack = top :: below) (id : ResourceId) :
    (walk.leave top below).Known id ↔ walk.Known id := by
  unfold Known
  rw [ids_of_stack stack, List.mem_cons]
  simp only [leave, refer, ids, Std.ExtTreeMap.mem_insert, Std.LawfulEqOrd.compare_eq_iff_eq]
  tauto

theorem leave_stands (base : Base asked walk) (returning : Returning walk)
    (stack : walk.stack = top :: below) (id : ResourceId) (model : Shared ModelDef)
    (held : (walk.leave top below).discovery.referenced[id]? = some model) :
    StandsFor walk.discovery id model := by
  simp only [leave, refer, Std.ExtTreeMap.getElem?_insert,
    Std.LawfulEqOrd.compare_eq_iff_eq] at held
  split at held
  · rename_i same
    subst same
    have member : top ∈ walk.stack := by simp [stack]
    have loop_iff := returning.marked top member
    have unmissing : top.id ≠ ModelDef.missingId := by
      intro same
      exact base.fresh top.id (by simp [ids_of_stack stack]) (same ▸ base.missing_referenced)
    -- The mark decides which model is kept, and on the way back it is exact.
    cases mark : top.onLoop with
    | true =>
        rw [mark, if_pos rfl] at held
        exact .inl ⟨.inr (.inr (loop_iff.mp mark)), (Option.some.inj held).symm⟩
    | false =>
        rw [mark, if_neg (by simp), base.own top member] at held
        have offLoop : ¬ OnLoop (parent? walk.discovery.input) top.id := by
          rw [← loop_iff, mark]
          simp
        unfold fetch at held
        cases input : walk.discovery.input[top.id]? with
        | none =>
            rw [input] at held
            exact .inl ⟨.inr (.inl input), (Option.some.inj held).symm⟩
        | some own =>
            rw [input] at held
            refine .inr ⟨?_, input.trans held⟩
            rintro (missing | absent | loop)
            · exact unmissing missing
            · rw [input] at absent
              cases absent
            · exact offLoop loop
  · exact base.stands id model held

theorem Base.leave (base : Base asked walk) (returning : Returning walk)
    (stack : walk.stack = top :: below) : Base asked (walk.leave top below) where
  parentless := base.parentless
  missing_referenced := by
    simp only [Walk.leave, refer, Std.ExtTreeMap.mem_insert]
    exact .inr base.missing_referenced
  stands := leave_stands base returning stack
  reached := fun id known => base.reached id ((known_leave stack id).mp known)
  fresh := by
    intro id member referenced
    have ids := ids_of_stack stack
    have distinct := ids ▸ base.distinct
    simp only [Walk.leave, refer, Std.ExtTreeMap.mem_insert,
      Std.LawfulEqOrd.compare_eq_iff_eq] at referenced
    rcases referenced with same | before
    · exact (List.nodup_cons.mp distinct).1 (same ▸ member)
    · exact base.fresh id (ids ▸ List.mem_cons_of_mem _ member) before
  members := by
    intro id
    have ids := ids_of_stack stack
    have distinct := List.nodup_cons.mp (ids ▸ base.distinct)
    have before := base.members id
    rw [ids, List.mem_cons] at before
    simp only [Walk.leave, Walk.ids, Std.ExtTreeSet.mem_erase, ne_eq,
      Std.LawfulEqOrd.compare_eq_iff_eq, before]
    constructor
    · rintro ⟨other, same | lower⟩
      · exact absurd same.symm other
      · exact lower
    · intro lower
      exact ⟨fun same => distinct.1 (same ▸ lower), .inr lower⟩
  distinct := (List.nodup_cons.mp (ids_of_stack stack ▸ base.distinct)).2
  ascends := Ascends.tail (ids_of_stack stack ▸ base.ascends)
  own := fun frame member => base.own frame (stack ▸ List.mem_cons_of_mem _ member)

theorem Returning.leave (returning : Returning walk) (stack : walk.stack = top :: below) :
    Returning (walk.leave top below) where
  closed := fun child parent known isParent =>
    (known_leave stack parent).mpr
      (returning.closed child parent ((known_leave stack child).mp known) isParent)
  finished := fun frame member =>
    returning.finished frame (stack ▸ List.mem_cons_of_mem _ member)
  marked := fun frame member =>
    returning.marked frame (stack ▸ List.mem_cons_of_mem _ member)

end Leave

/-! ## Putting an id on the stack -/

section Enter

variable {asked : List ResourceId} {walk : Walk} {id : ResourceId}

/-- An id may be entered: it is the parent of the id on top and not yet met, and
nothing else is left to look at. -/
structure Open (asked : List ResourceId) (walk : Walk) (id : ResourceId) : Prop where
  base : Base asked walk
  closed : ReferencedClosed walk.discovery
  finished : ∀ frame ∈ walk.stack, frame.pending = []
  unmarked : ∀ frame ∈ walk.stack, frame.onLoop = false
  linked : ∀ lower ∈ walk.ids.head?, IsParent (parent? walk.discovery.input) lower id
  unreferenced : id ∉ walk.discovery.referenced
  unstacked : id ∉ walk.ids
  reached : ∃ root ∈ asked, Reaches (parent? walk.discovery.input) root id

/-- What is known is closed under parents as soon as the parent of the top is
known. -/
theorem known_closed {top : ResourceId} {below : List ResourceId}
    (closed : ReferencedClosed walk.discovery)
    (ascends : Ascends (parent? walk.discovery.input) walk.ids) (ids : walk.ids = top :: below)
    (last : ∀ parent, IsParent (parent? walk.discovery.input) top parent → walk.Known parent)
    (child parent : ResourceId) (known : walk.Known child)
    (isParent : IsParent (parent? walk.discovery.input) child parent) : walk.Known parent := by
  rcases known with referenced | stacked
  · exact .inl (closed child parent referenced isParent)
  · rw [ids] at stacked ascends
    rcases List.mem_cons.mp stacked with same | lower
    · exact last parent (same ▸ isParent)
    · exact .inr (ids ▸ ascends.parent_mem lower isParent)

theorem known_enter (other : ResourceId) :
    (walk.enter id).Known other ↔ other = id ∨ walk.Known other := by
  unfold Known
  simp only [enter, ids, frame, List.map_cons, List.mem_cons]
  tauto

theorem Open.base_enter (ready : Open asked walk id) : Base asked (walk.enter id) where
  parentless := ready.base.parentless
  missing_referenced := ready.base.missing_referenced
  stands := ready.base.stands
  reached := by
    intro other known
    rcases (known_enter other).mp known with same | before
    · exact .inr (same ▸ ready.reached)
    · exact ready.base.reached other before
  fresh := by
    intro other member
    rcases List.mem_cons.mp member with same | lower
    · exact same ▸ ready.unreferenced
    · exact ready.base.fresh other lower
  members := by
    intro other
    have before := ready.base.members other
    simp only [enter, ids, frame, List.map_cons, List.mem_cons, Std.ExtTreeSet.mem_insert,
      Std.LawfulEqOrd.compare_eq_iff_eq, before]
    exact or_congr_left eq_comm
  distinct := List.nodup_cons.mpr ⟨ready.unstacked, ready.base.distinct⟩
  ascends := ready.base.ascends.cons ready.linked
  own := by
    intro frame member
    rcases List.mem_cons.mp member with same | lower
    · rw [same]
      rfl
    · exact ready.base.own frame lower

/-- Entering an id keeps a walk sound: it goes on up, or has come to the end of
the way. -/
theorem Open.sound (ready : Open asked walk id) : Sound asked (walk.enter id) := by
  have base := ready.base_enter
  have own : id ≠ ModelDef.missingId := by
    intro same
    exact ready.unreferenced (same ▸ ready.base.missing_referenced)
  have references := references_fetch ready.base.parentless own
  refine ⟨base, ?_⟩
  cases above : parent? walk.discovery.input id with
  | some parent =>
      rw [above] at references
      refine .inl ⟨ready.closed, ⟨_, _, parent, rfl, references, above, ready.finished⟩, ?_⟩
      intro frame member
      rcases List.mem_cons.mp member with same | lower
      · rw [same]
        rfl
      · exact ready.unmarked frame lower
  | none =>
      rw [above] at references
      refine .inr ⟨?_, ?_, ?_⟩
      · refine known_closed ready.closed base.ascends rfl ?_
        intro parent isParent
        exact absurd (above.symm.trans isParent) (by simp)
      · intro frame member
        rcases List.mem_cons.mp member with same | lower
        · rw [same]
          exact references
        · exact ready.finished frame lower
      · intro frame member
        have unmarked : frame.onLoop = false := by
          rcases List.mem_cons.mp member with same | lower
          · rw [same]
            rfl
          · exact ready.unmarked frame lower
        have reaches := Ascends.reaches_head base.ascends frame.id
          (List.mem_map_of_mem member)
        rw [unmarked]
        simp only [Bool.false_eq_true, false_iff]
        -- A loop would go on from the new top, which has no parent.
        intro loop
        exact not_onLoop_of_parent?_eq_none above (loop.of_reaches reaches)

end Enter

/-! ## Not following a reference -/

section Turning

variable {asked : List ResourceId} {walk : Walk} {top : Frame} {below : List Frame}
  {id : ResourceId} {others : List ResourceId}

theorem Sound.returning (sound : Sound asked walk) (stack : walk.stack = top :: below)
    (finished : top.pending = []) : Returning walk := by
  rcases sound.phase with ascending | returning
  · obtain ⟨top', below', parent, stack', pending, _⟩ := ascending.top
    obtain ⟨rfl, rfl⟩ := List.cons.inj (stack.symm.trans stack')
    rw [finished] at pending
    cases pending
  · exact returning

/-- A reference that is still to be looked at is the parent of the top, and the
only one. -/
theorem Sound.ascending (sound : Sound asked walk) (stack : walk.stack = top :: below)
    (pending : top.pending = id :: others) :
    Ascending walk ∧ others = [] ∧ IsParent (parent? walk.discovery.input) top.id id ∧
      ∀ frame ∈ below, frame.pending = [] := by
  rcases sound.phase with ascending | returning
  · obtain ⟨top', below', parent, stack', only, isParent, finished⟩ := ascending.top
    obtain ⟨rfl, rfl⟩ := List.cons.inj (stack.symm.trans stack')
    obtain ⟨rfl, rfl⟩ := List.cons.inj (pending.symm.trans only)
    exact ⟨ascending, rfl, isParent, finished⟩
  · have finished := returning.finished top (by simp [stack])
    rw [finished] at pending
    cases pending

/-- Changing only what the frames of a stack have left to do keeps the base. -/
theorem Base.restack (base : Base asked walk) (next : Walk)
    (discovery : next.discovery = walk.discovery)
    (onStack : next.onStack = walk.onStack) (ids : next.ids = walk.ids)
    (own : ∀ frame ∈ next.stack, frame.model = walk.discovery.fetch frame.id) :
    Base asked next where
  parentless := discovery ▸ base.parentless
  missing_referenced := discovery ▸ base.missing_referenced
  stands := discovery ▸ base.stands
  reached := by
    intro other known
    unfold Known at known
    rw [discovery, ids] at known
    exact discovery ▸ base.reached other known
  fresh := by
    rw [discovery, ids]
    exact base.fresh
  members := by
    rw [onStack, ids]
    exact base.members
  distinct := ids ▸ base.distinct
  ascends := by
    rw [discovery, ids]
    exact base.ascends
  own := discovery ▸ own

/-- The stack of a walk whose top has nothing left to look at. -/
def settledStack (top : Frame) (below : List Frame) : List Frame :=
  { top with pending := [] } :: below

theorem own_settledStack (base : Base asked walk) (stack : walk.stack = top :: below) :
    ∀ frame ∈ settledStack top below, frame.model = walk.discovery.fetch frame.id := by
  intro frame member
  rcases List.mem_cons.mp member with same | lower
  · rw [same]
    exact base.own top (by simp [stack])
  · exact base.own frame (stack ▸ List.mem_cons_of_mem _ lower)

theorem finished_settledStack (finished : ∀ frame ∈ below, frame.pending = []) :
    ∀ frame ∈ settledStack top below, frame.pending = [] := by
  intro frame member
  rcases List.mem_cons.mp member with same | lower
  · rw [same]
  · exact finished frame lower

theorem unmarked_settledStack (ascending : Ascending walk) (stack : walk.stack = top :: below) :
    ∀ frame ∈ settledStack top below, frame.onLoop = false := by
  intro frame member
  rcases List.mem_cons.mp member with same | lower
  · rw [same]
    exact ascending.unmarked top (by simp [stack])
  · exact ascending.unmarked frame (stack ▸ List.mem_cons_of_mem _ lower)

/-- Where the way up meets what is referenced, no id on the stack is on a loop:
the loop would be referenced too. -/
theorem sound_skip (sound : Sound asked walk) (stack : walk.stack = top :: below)
    (pending : top.pending = id :: others) (known : id ∈ walk.discovery.referenced) :
    Sound asked (walk.skip ({ top with pending := others } :: below)) := by
  obtain ⟨ascending, rfl, isParent, finished⟩ := sound.ascending stack pending
  have ids := ids_of_stack stack
  have base := sound.base.restack (walk.skip (settledStack top below)) rfl rfl
    ids.symm (own_settledStack sound.base stack)
  refine ⟨base, .inr ⟨?_, finished_settledStack finished, ?_⟩⟩
  · refine known_closed ascending.closed base.ascends rfl ?_
    intro parent other
    rw [other.unique isParent]
    exact .inl known
  · intro frame member
    have reaches : Reaches (parent? walk.discovery.input) frame.id id :=
      .tail (Ascends.reaches_head base.ascends frame.id (List.mem_map_of_mem member)) isParent
    rw [unmarked_settledStack ascending stack frame member]
    simp only [Bool.false_eq_true, false_iff]
    intro loop
    exact base.fresh frame.id (List.mem_map_of_mem member)
      ((loop.reaches_back reaches).closed ascending.closed known)

theorem markDownTo_split {front back : List Frame} {frame : Frame}
    (before : ∀ upper ∈ front, upper.id ≠ frame.id) :
    Frame.markDownTo frame.id (front ++ frame :: back) =
      front.map Frame.mark ++ frame.mark :: back := by
  induction front with
  | nil => simp [Frame.markDownTo]
  | cons top front inductionHypothesis =>
      have other := before top (by simp)
      have rest := inductionHypothesis fun upper member =>
        before upper (List.mem_cons_of_mem _ member)
      simp only [List.cons_append, Frame.markDownTo, if_neg other, rest, List.map_cons]

theorem markDownTo_map_id (entry : ResourceId) (stack : List Frame) :
    (Frame.markDownTo entry stack).map Frame.id = stack.map Frame.id := by
  induction stack with
  | nil => rfl
  | cons top below inductionHypothesis =>
      unfold Frame.markDownTo
      split
      · rfl
      · simp only [List.map_cons, inductionHypothesis]
        rfl

/-- A marked frame differs from the one before in its mark only. -/
theorem mem_markDownTo {entry : ResourceId} {stack : List Frame} {frame : Frame}
    (member : frame ∈ Frame.markDownTo entry stack) :
    ∃ old ∈ stack,
      frame.id = old.id ∧ frame.model = old.model ∧ frame.pending = old.pending := by
  induction stack with
  | nil => cases member
  | cons top below inductionHypothesis =>
      unfold Frame.markDownTo at member
      split at member
      · rcases List.mem_cons.mp member with isTop | lower
        · exact ⟨top, by simp, by simp [isTop, Frame.mark]⟩
        · exact ⟨frame, List.mem_cons_of_mem _ lower, rfl, rfl, rfl⟩
      · rcases List.mem_cons.mp member with isTop | lower
        · exact ⟨top, by simp, by simp [isTop, Frame.mark]⟩
        · obtain ⟨old, inBelow, same⟩ := inductionHypothesis lower
          exact ⟨old, List.mem_cons_of_mem _ inBelow, same⟩

theorem ids_closeLoop (walk : Walk) (entry : ResourceId) (stack : List Frame) :
    (walk.closeLoop entry stack).ids = stack.map Frame.id :=
  markDownTo_map_id entry stack

/-- Where the way up meets the stack, it meets one frame, and those above it
have other ids. -/
theorem Sound.exists_split (sound : Sound asked walk) (stack : walk.stack = top :: below)
    (stacked : id ∈ walk.onStack) :
    ∃ front entry back, settledStack top below = front ++ entry :: back ∧ entry.id = id ∧
      walk.ids = front.map Frame.id ++ entry.id :: back.map Frame.id ∧
      ∀ upper ∈ front, upper.id ≠ entry.id := by
  have ids : (settledStack top below).map Frame.id = walk.ids := (ids_of_stack stack).symm
  obtain ⟨entry, entryMember, rfl⟩ : ∃ entry ∈ settledStack top below, entry.id = id := by
    rw [sound.base.members, ← ids] at stacked
    exact List.mem_map.mp stacked
  obtain ⟨front, back, split⟩ := List.append_of_mem entryMember
  have idsSplit : walk.ids = front.map Frame.id ++ entry.id :: back.map Frame.id := by
    rw [← ids, split, List.map_append, List.map_cons]
  refine ⟨front, entry, back, split, rfl, idsSplit, fun upper member same => ?_⟩
  have apart := List.nodup_append.mp (idsSplit ▸ sound.base.distinct)
  exact apart.2.2 upper.id (List.mem_map_of_mem member) entry.id (by simp) same

/-- Where the way up meets the stack, the marks it leaves are exact. -/
theorem sound_closeLoop (sound : Sound asked walk) (stack : walk.stack = top :: below)
    (pending : top.pending = id :: others) (stacked : id ∈ walk.onStack) :
    Sound asked (walk.closeLoop id ({ top with pending := others } :: below)) := by
  obtain ⟨ascending, rfl, isParent, finished⟩ := sound.ascending stack pending
  have ids : (settledStack top below).map Frame.id = walk.ids := (ids_of_stack stack).symm
  -- No two frames have one id, so the marks reach `front` and the entry and end there.
  obtain ⟨front, entry, back, split, rfl, idsSplit, upperApart⟩ := sound.exists_split stack stacked
  have apart := List.nodup_append.mp (idsSplit ▸ sound.base.distinct)
  have marks : Frame.markDownTo entry.id (settledStack top below) =
      front.map Frame.mark ++ entry.mark :: back := by
    rw [split]
    exact markDownTo_split upperApart
  have marked_ids : (walk.closeLoop entry.id (settledStack top below)).ids = walk.ids :=
    (ids_closeLoop _ _ _).trans ids
  have base := sound.base.restack (walk.closeLoop entry.id (settledStack top below))
    rfl rfl marked_ids (by
      intro frame member
      obtain ⟨old, old_mem, same, model, _⟩ := mem_markDownTo member
      rw [model, same]
      exact own_settledStack sound.base stack old old_mem)
  have first : (front.map Frame.id ++ entry.id :: back.map Frame.id).head? = some top.id := by
    rw [← idsSplit, ids_of_stack stack]
    rfl
  have loop_iff := Ascends.onLoop_iff (idsSplit ▸ sound.base.ascends) first isParent
  refine ⟨base, .inr ⟨?_, ?_, ?_⟩⟩
  · refine known_closed ascending.closed base.ascends
      (marked_ids.trans (ids_of_stack stack)) ?_
    intro parent other
    rw [other.unique isParent]
    refine .inr (marked_ids ▸ ?_)
    rw [idsSplit]
    simp
  · intro frame member
    obtain ⟨old, old_mem, _, _, same⟩ := mem_markDownTo member
    rw [same]
    exact finished_settledStack finished old old_mem
  · intro frame member
    change frame ∈ Frame.markDownTo entry.id (settledStack top below) at member
    rw [marks, List.mem_append, List.mem_cons, List.mem_map] at member
    rcases member with ⟨old, old_mem, rfl⟩ | rfl | member
    · have upper : old.id ∈ front.map Frame.id := List.mem_map_of_mem old_mem
      exact iff_of_true rfl ((loop_iff old.id (by simp [upper])).mpr (by simp [upper]))
    · exact iff_of_true rfl ((loop_iff entry.id (by simp)).mpr (by simp))
    · have lower : frame.id ∈ back.map Frame.id := List.mem_map_of_mem member
      have unmarked := unmarked_settledStack ascending stack frame (by simp [split, member])
      change _ ↔ OnLoop (parent? walk.discovery.input) frame.id
      rw [unmarked, loop_iff frame.id (by simp [lower])]
      simp only [Bool.false_eq_true, false_iff, List.mem_append, List.mem_singleton, not_or]
      constructor
      · intro upper
        exact apart.2.2 frame.id upper frame.id (by simp [lower]) rfl
      · intro same
        exact (List.nodup_cons.mp apart.2.1).1 (same ▸ lower)

theorem open_parent (sound : Sound asked walk) (stack : walk.stack = top :: below)
    (pending : top.pending = id :: others) (unknown : id ∉ walk.discovery.referenced)
    (unstacked : id ∉ walk.onStack) :
    Open asked (walk.skip ({ top with pending := others } :: below)) id := by
  obtain ⟨ascending, rfl, isParent, finished⟩ := sound.ascending stack pending
  have ids := ids_of_stack stack
  have reached : ∃ root ∈ asked, Reaches (parent? walk.discovery.input) root id := by
    rcases sound.base.reached top.id (.inr (by simp [ids])) with missing | ⟨root, member, reaches⟩
    · exact absurd (missing ▸ sound.base.missing_referenced)
        (sound.base.fresh top.id (by simp [ids]))
    · exact ⟨root, member, .tail reaches isParent⟩
  exact {
    base := sound.base.restack (walk.skip (settledStack top below)) rfl rfl
      ids.symm (own_settledStack sound.base stack)
    closed := ascending.closed
    finished := finished_settledStack finished
    unmarked := unmarked_settledStack ascending stack
    linked := by
      intro lower member
      obtain rfl : top.id = lower := by simpa [Walk.ids, skip] using member
      exact isParent
    unreferenced := unknown
    unstacked := by
      have absent := (sound.base.members id).not.mp unstacked
      rw [ids] at absent
      exact absent
    reached := reached }

end Turning

/-! ## Whole walks -/

/-- Every turn keeps a walk sound. -/
theorem Turn.sound {asked : List ResourceId} {walk next : Walk} (turn : Turn walk next)
    (sound : Sound asked walk) : Sound asked next := by
  cases turn with
  | leave top below stack finished =>
      have returning := sound.returning stack finished
      exact ⟨sound.base.leave returning stack, .inr (returning.leave stack)⟩
  | skip top below id others stack pending known =>
      exact sound_skip sound stack pending known
  | closeLoop top below id others stack pending unknown stacked =>
      exact sound_closeLoop sound stack pending stacked
  | enter top below id others stack pending unknown unstacked =>
      exact (open_parent sound stack pending unknown unstacked).sound

/-- Turns change neither the pack nor the missing model, and forget no id. -/
theorem Turn.keeps {walk next : Walk} (turn : Turn walk next) :
    next.discovery.input = walk.discovery.input ∧
      next.discovery.missing = walk.discovery.missing ∧
      ∀ id, walk.Known id → next.Known id := by
  cases turn with
  | leave top below stack finished =>
      exact ⟨rfl, rfl, fun id known => (known_leave stack id).mpr known⟩
  | skip top below id others stack pending known =>
      refine ⟨rfl, rfl, fun other known => known.imp_right fun stacked => ?_⟩
      rw [ids_of_stack stack] at stacked
      exact stacked
  | closeLoop top below id others stack pending unknown stacked =>
      refine ⟨rfl, rfl, fun other known => known.imp_right fun stacked => ?_⟩
      rw [ids_of_stack stack] at stacked
      exact (ids_closeLoop walk id _).symm ▸ stacked
  | enter top below id others stack pending unknown unstacked =>
      refine ⟨rfl, rfl, fun other known => (known_enter other).mpr (.inr ?_)⟩
      refine known.imp_right fun stacked => ?_
      rw [ids_of_stack stack] at stacked
      exact stacked

end Walk

end PackModels.Discovery
