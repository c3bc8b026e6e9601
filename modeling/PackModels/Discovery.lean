import PackModels.Model.Definition
import PackModels.Shared
import PackModels.Warning

/-!
Contract: which models a pack needs, and what each of their ids stands for.

Visiting an id walks from it along everything that models refer to, depth first
over a stack of frames. A reference to an id that is referenced already is not
followed. A reference to an id that is still on the stack closes a loop: it is
complained about with its whole path and not followed either, and every id from
there to the top of the stack lies on the loop. An id leaves the stack when
nothing is left to follow from it. From then on it is referenced, and stands
for its own model, or for the missing model when the pack does not hold it or
when it lies on a loop. The id of the missing model is referenced from the
start and cannot be overridden.
-/

namespace PackModels

/-- The models of a pack and what has been visited so far. -/
structure Discovery where
  input : Table ResourceId (Shared ModelDef)
  missing : Shared ModelDef
  referenced : Table ResourceId (Shared ModelDef)

namespace Discovery

def start (input : Table ResourceId (Shared ModelDef)) (missing : Shared ModelDef) :
    Discovery :=
  ⟨input, missing, Table.ofPairs [(ModelDef.missingId, missing)]⟩

variable (discovery : Discovery)

def fetch (id : ResourceId) : Shared ModelDef :=
  discovery.input[id]?.getD discovery.missing

def fetchWarnings (id : ResourceId) : List Warning :=
  if discovery.input.contains id then [] else [.modelMissing id]

def refer (id : ResourceId) (model : Shared ModelDef) : Discovery :=
  { discovery with referenced := discovery.referenced.insert id model }

/-- An id from which references are being followed. -/
structure Frame where
  id : ResourceId
  model : Shared ModelDef
  /-- The ids that the model refers to and that are still to be followed, the
  next one first. -/
  pending : List ResourceId
  /-- Whether the id is known to lie on a loop. -/
  onLoop : Bool

/-- The frame of an id from which nothing has been followed yet. -/
def frame (id : ResourceId) : Frame :=
  ⟨id, discovery.fetch id, (discovery.fetch id).value.references, false⟩

namespace Frame

def mark (frame : Frame) : Frame :=
  { frame with onLoop := true }

/-- Marks every frame from the top of a stack down to the one of an id. -/
def markDownTo (entry : ResourceId) : List Frame → List Frame
  | [] => []
  | top :: below =>
      if top.id = entry then
        top.mark :: below
      else
        top.mark :: markDownTo entry below

/-- The ids from the one given, on a stack, up to the top of the stack. -/
def pathFrom (entry : ResourceId) : List Frame → List ResourceId
  | [] => []
  | top :: below =>
      if top.id = entry then
        [entry]
      else
        pathFrom entry below ++ [top.id]

end Frame

structure Walk where
  discovery : Discovery
  /-- The ids being followed, the last one entered first. -/
  stack : List Frame
  onStack : Roster ResourceId
  warnings : List Warning

namespace Walk

variable (walk : Walk)

def enter (id : ResourceId) : Walk :=
  { walk with
    stack := walk.discovery.frame id :: walk.stack
    onStack := walk.onStack.insert id
    warnings := walk.warnings ++ walk.discovery.fetchWarnings id }

def leave (top : Frame) (below : List Frame) : Walk :=
  { walk with
    discovery :=
      walk.discovery.refer top.id (if top.onLoop then walk.discovery.missing else top.model)
    stack := below
    onStack := walk.onStack.erase top.id }

def skip (stack : List Frame) : Walk :=
  { walk with stack := stack }

def closeLoop (entry : ResourceId) (stack : List Frame) : Walk :=
  { walk with
    stack := Frame.markDownTo entry stack
    warnings := walk.warnings ++ [.modelLoop (Frame.pathFrom entry stack ++ [entry])] }

/-- One turn of a walk, until the stack is empty: the top is left, or its next
reference is dealt with. -/
def turn? : Option Walk :=
  match walk.stack with
  | [] => none
  | top :: below =>
      match top.pending with
      | [] => some (walk.leave top below)
      | next :: others =>
          let stack := { top with pending := others } :: below
          if walk.discovery.referenced.contains next then
            some (walk.skip stack)
          else if walk.onStack.contains next then
            some (walk.closeLoop next stack)
          else
            some ((walk.skip stack).enter next)

/-! ## Every walk ends

An id that some model of the pack refers to can be entered only while it is
neither referenced nor on the stack, and both last. Other ids are entered at
most as often as the stack held them to begin with.
-/

def links : List ResourceId :=
  walk.discovery.missing.value.references
    ++ walk.discovery.input.toList.flatMap (fun entry => entry.2.value.references)

/-- The references that are still to be followed. -/
def pending : List ResourceId :=
  walk.stack.flatMap Frame.pending

def hasMet (id : ResourceId) : Bool :=
  walk.onStack.contains id || walk.discovery.referenced.contains id

/-- The references still to be followed that no model of the pack makes. -/
def strays : Nat :=
  walk.pending.countP (fun id => !walk.links.contains id)

/-- The references of the pack to ids that have not been entered. -/
def unmet : Nat :=
  walk.links.countP (fun id => !walk.hasMet id)

def load : Nat :=
  walk.pending.length + walk.stack.length

theorem mem_links_of_mem_references {id other : ResourceId}
    (refers : other ∈ (walk.discovery.fetch id).value.references) :
    other ∈ walk.links := by
  unfold fetch at refers
  unfold links
  cases held : walk.discovery.input[id]? with
  | none =>
      rw [held] at refers
      exact List.mem_append_left _ refers
  | some model =>
      rw [held] at refers
      refine List.mem_append_right _ (List.mem_flatMap.mpr ⟨(id, model), ?_, refers⟩)
      exact Std.ExtTreeMap.mem_toList_iff_getElem?_eq_some.mpr held

theorem markDownTo_flatMap_pending (entry : ResourceId) (stack : List Frame) :
    (Frame.markDownTo entry stack).flatMap Frame.pending = stack.flatMap Frame.pending := by
  induction stack with
  | nil => rfl
  | cons top below inductionHypothesis =>
      unfold Frame.markDownTo
      split
      · rfl
      · simp only [List.flatMap_cons, inductionHypothesis]
        rfl

theorem markDownTo_length (entry : ResourceId) (stack : List Frame) :
    (Frame.markDownTo entry stack).length = stack.length := by
  induction stack with
  | nil => rfl
  | cons top below inductionHypothesis =>
      unfold Frame.markDownTo
      split <;> simp [inductionHypothesis]

/-- The turns of a walk, each with what it takes. -/
inductive Turn (walk : Walk) : Walk → Prop where
  | leave (top : Frame) (below : List Frame)
      (stack : walk.stack = top :: below) (finished : top.pending = []) :
      Turn walk (walk.leave top below)
  | skip (top : Frame) (below : List Frame) (id : ResourceId) (others : List ResourceId)
      (stack : walk.stack = top :: below) (pending : top.pending = id :: others)
      (known : id ∈ walk.discovery.referenced) :
      Turn walk (walk.skip ({ top with pending := others } :: below))
  | closeLoop (top : Frame) (below : List Frame) (id : ResourceId) (others : List ResourceId)
      (stack : walk.stack = top :: below) (pending : top.pending = id :: others)
      (unknown : id ∉ walk.discovery.referenced) (stacked : id ∈ walk.onStack) :
      Turn walk (walk.closeLoop id ({ top with pending := others } :: below))
  | enter (top : Frame) (below : List Frame) (id : ResourceId) (others : List ResourceId)
      (stack : walk.stack = top :: below) (pending : top.pending = id :: others)
      (unknown : id ∉ walk.discovery.referenced) (unstacked : id ∉ walk.onStack) :
      Turn walk ((walk.skip ({ top with pending := others } :: below)).enter id)

theorem turn_of_turn? {walk next : Walk} (turned : walk.turn? = some next) :
    Turn walk next := by
  unfold turn? at turned
  split at turned
  · cases turned
  · rename_i top below stack
    split at turned
    · rename_i finished
      cases turned
      exact .leave top below stack finished
    · rename_i id others pending
      dsimp only at turned
      split at turned
      · rename_i known
        cases turned
        exact .skip top below id others stack pending known
      · rename_i unknown
        split at turned
        · rename_i stacked
          cases turned
          exact .closeLoop top below id others stack pending unknown stacked
        · rename_i unstacked
          cases turned
          exact .enter top below id others stack pending unknown unstacked

/-- A walk has no turn left only when its stack is empty. -/
theorem turn?_eq_none_iff {walk : Walk} : walk.turn? = none ↔ walk.stack = [] := by
  unfold turn?
  split
  · simp [*]
  · rename_i top below stack
    simp only [stack, reduceCtorEq, iff_false]
    split
    · simp
    · split
      · simp
      · split <;> simp

theorem hasMet_iff {id : ResourceId} :
    walk.hasMet id = true ↔ id ∈ walk.onStack ∨ id ∈ walk.discovery.referenced := by
  simp [hasMet]

/-- A walk that has met more leaves fewer of some ids unmet. -/
theorem countP_unmet_le {walk next : Walk}
    (met : ∀ id, walk.hasMet id = true → next.hasMet id = true) (ids : List ResourceId) :
    ids.countP (fun id => !next.hasMet id) ≤ ids.countP (fun id => !walk.hasMet id) := by
  refine List.countP_mono_left fun id _ unmet => ?_
  cases known : walk.hasMet id with
  | true => simp [met id known] at unmet
  | false => rfl

theorem unmet_lt {walk next : Walk} (links : next.links = walk.links)
    (met : ∀ id, walk.hasMet id = true → next.hasMet id = true)
    {entered : ResourceId} (linked : entered ∈ walk.links)
    (before : walk.hasMet entered = false) (after : next.hasMet entered = true) :
    next.unmet < walk.unmet := by
  obtain ⟨front, back, split⟩ := List.append_of_mem linked
  have front_le := countP_unmet_le met front
  have back_le := countP_unmet_le met back
  unfold unmet
  rw [links, split, List.countP_append, List.countP_append, List.countP_cons, List.countP_cons]
  simp only [before, after, Bool.not_false, Bool.not_true, if_true, Bool.false_eq_true, if_false]
  omega

/-- Leaving an id does not make it unmet: it is referenced from then on. -/
theorem hasMet_leave {top : Frame} {below : List Frame} {id : ResourceId}
    (met : walk.hasMet id = true) : (walk.leave top below).hasMet id = true := by
  rw [hasMet_iff] at met ⊢
  simp only [leave, refer, Std.ExtTreeSet.mem_erase, Std.ExtTreeMap.mem_insert]
  by_cases same : compare top.id id = .eq
  · exact .inr (.inl same)
  · exact met.imp (fun stacked => ⟨same, stacked⟩) .inr

theorem hasMet_enter {entered id : ResourceId} (met : walk.hasMet id = true) :
    (walk.enter entered).hasMet id = true := by
  rw [hasMet_iff] at met ⊢
  simp only [enter, Std.ExtTreeSet.mem_insert]
  exact met.imp_left .inr

theorem pending_of_stack {top : Frame} {below : List Frame}
    (stack : walk.stack = top :: below) :
    walk.pending = top.pending ++ below.flatMap Frame.pending := by
  rw [pending, stack, List.flatMap_cons]

/-- A reference that is not followed leaves no more strays. -/
theorem strays_le_of_pending {walk next : Walk} {id : ResourceId}
    (links : next.links = walk.links) (dropped : walk.pending = id :: next.pending) :
    next.strays ≤ walk.strays := by
  unfold strays
  rw [links, dropped]
  exact (List.sublist_cons_self _ _).countP_le

/-- The references of an id that is entered are no strays. -/
theorem strays_enter {walk : Walk} {id : ResourceId} :
    (walk.enter id).strays = walk.strays := by
  have after : (walk.enter id).pending =
      (walk.discovery.fetch id).value.references ++ walk.pending :=
    rfl
  have linked : (walk.discovery.fetch id).value.references.countP
      (fun other => !walk.links.contains other) = 0 := by
    rw [List.countP_eq_zero]
    intro other refers
    simpa using walk.mem_links_of_mem_references refers
  have links : (walk.enter id).links = walk.links := rfl
  unfold strays
  rw [after, links, List.countP_append, linked, Nat.zero_add]

/-- Every turn brings a walk nearer to its end: it follows a reference that the
pack does not make, or meets an id, or leaves less to do. -/
theorem Turn.decreases {walk next : Walk} (turn : Turn walk next) :
    Prod.Lex Nat.lt (Prod.Lex Nat.lt Nat.lt)
      (next.strays, next.unmet, next.load) (walk.strays, walk.unmet, walk.load) := by
  cases turn with
  | leave top below stack finished =>
      have before : walk.pending = (walk.leave top below).pending := by
        rw [walk.pending_of_stack stack, finished]
        rfl
      have strays : (walk.leave top below).strays ≤ walk.strays := by
        unfold Walk.strays
        rw [before]
        exact Nat.le_refl _
      refine Prod.Lex.right' _ strays (Prod.Lex.right' _ ?_ ?_)
      · exact countP_unmet_le (fun id met => walk.hasMet_leave met) walk.links
      · unfold load
        rw [before, stack]
        exact Nat.lt_succ_self _
  | skip top below id others stack pending known =>
      have before : walk.pending =
          id :: (walk.skip ({ top with pending := others } :: below)).pending := by
        rw [walk.pending_of_stack stack, pending]
        rfl
      refine Prod.Lex.right' _ (strays_le_of_pending rfl before)
        (Prod.Lex.right' _ (Nat.le_refl _) ?_)
      unfold load
      rw [before, stack]
      simp [Walk.skip]
  | closeLoop top below id others stack pending unknown stacked =>
      have before : walk.pending =
          id :: (walk.closeLoop id ({ top with pending := others } :: below)).pending := by
        rw [walk.pending_of_stack stack, pending]
        exact congrArg (id :: ·)
          (markDownTo_flatMap_pending id ({ top with pending := others } :: below)).symm
      refine Prod.Lex.right' _ (strays_le_of_pending rfl before)
        (Prod.Lex.right' _ (Nat.le_refl _) ?_)
      unfold load
      rw [before, stack]
      simp [Walk.closeLoop, markDownTo_length]
  | enter top below id others stack pending unknown unstacked =>
      have before : walk.pending =
          id :: (walk.skip ({ top with pending := others } :: below)).pending := by
        rw [walk.pending_of_stack stack, pending]
        rfl
      have strays_eq : walk.strays =
          ((walk.skip ({ top with pending := others } :: below)).enter id).strays
            + if !walk.links.contains id then 1 else 0 := by
        rw [strays_enter, strays, before, List.countP_cons]
        rfl
      by_cases linked : id ∈ walk.links
      · refine Prod.Lex.right' _ (by omega) (Prod.Lex.left _ _ ?_)
        refine unmet_lt rfl (fun other met => ?_) linked ?_ ?_
        · exact hasMet_enter _ met
        · rw [Bool.eq_false_iff, ne_eq, hasMet_iff]
          exact not_or.mpr ⟨unstacked, unknown⟩
        · rw [hasMet_iff]
          simp [Walk.enter]
      · have stray : (!walk.links.contains id) = true := by
          simpa using linked
        rw [stray, if_pos rfl] at strays_eq
        exact Prod.Lex.left _ _ (Nat.lt_of_lt_of_eq (Nat.lt_succ_self _) strays_eq.symm)

def run (walk : Walk) : Walk :=
  match _taken : walk.turn? with
  | none => walk
  | some next => next.run
termination_by (walk.strays, walk.unmet, walk.load)
decreasing_by exact (turn_of_turn? _taken).decreases

def start (discovery : Discovery) (id : ResourceId) : Walk :=
  (Walk.mk discovery [] ∅ []).enter id

end Walk

/-- Makes an id and everything that can be reached from it referenced. -/
def visit (id : ResourceId) : Discovery × List Warning :=
  if discovery.referenced.contains id then
    (discovery, [])
  else
    let last := (Walk.start discovery id).run
    (last.discovery, last.warnings)

def visitAll : Discovery → List ResourceId → Discovery × List Warning
  | discovery, [] => (discovery, [])
  | discovery, id :: rest =>
      let first := discovery.visit id
      let others := visitAll first.1 rest
      (others.1, first.2 ++ others.2)

def unreferenced : List ResourceId :=
  discovery.input.keys.filter (fun id => !discovery.referenced.contains id)

end Discovery

/-- What every id stands for once discovery is over. -/
structure ModelSet where
  models : Table ResourceId (Shared ModelDef)
  missing : Shared ModelDef

namespace ModelSet

def ofDiscovery (discovery : Discovery) : ModelSet :=
  ⟨discovery.referenced, discovery.missing⟩

def missingOnly (missing : Shared ModelDef) : ModelSet :=
  ofDiscovery (Discovery.start ∅ missing)

variable (set : ModelSet)

def get (id : ResourceId) : Shared ModelDef :=
  set.models[id]?.getD set.missing

def isMissing (id : ResourceId) : Bool :=
  (set.get id).same set.missing

def size : Nat :=
  set.models.size

/-- Follows parents from a model while no instance comes twice. The number
counts down the instances that can still be met. -/
def follow : Nat → List Nat → Shared ModelDef → List (Shared ModelDef)
  | 0, _, _ => []
  | steps + 1, seen, model =>
      if seen.contains model.tag then
        []
      else
        match model.value.parent with
        | none => [model]
        | some parent => model :: follow steps (model.tag :: seen) (set.get parent)

/-- The models from an id to its last parent, the most derived one first. -/
def chainOf (id : ResourceId) : List (Shared ModelDef) :=
  set.follow (set.models.size + 2) [] (set.get id)

def chain (id : ResourceId) : List ModelDef :=
  (set.chainOf id).map Shared.value

end ModelSet

end PackModels
