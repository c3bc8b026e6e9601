import PackModels.Proofs.Baking.Assemble
import PackModels.Proofs.Discovery.Coverage
import PackModels.Proofs.Orders.Arrange

/-!
Contract: discovery does not look at instances.

The turns of a walk depend on ids and on what models refer to. Which instance
holds a model matters to none of them, so packs that hold equal models under
the same ids are discovered alike, with the same complaints, whichever
instances hold their models.

Owns: `untagged` discoveries and walks, in which one tag is that of every
instance.
-/

namespace PackModels

/-- Models that are all held by the instance of tag zero. -/
def untaggedModels (models : Table ResourceId (Shared ModelDef)) :
    Table ResourceId (Shared ModelDef) :=
  models.map (fun _ model => model.untagged)

theorem getElem?_untaggedModels (models : Table ResourceId (Shared ModelDef)) (id : ResourceId) :
    (untaggedModels models)[id]? = (models[id]?).map Shared.untagged :=
  Std.ExtTreeMap.getElem?_map

theorem contains_untaggedModels (models : Table ResourceId (Shared ModelDef)) (id : ResourceId) :
    (untaggedModels models).contains id = models.contains id :=
  Std.ExtTreeMap.contains_map

theorem size_untaggedModels (models : Table ResourceId (Shared ModelDef)) :
    (untaggedModels models).size = models.size :=
  Std.ExtTreeMap.size_map

namespace Discovery

variable (discovery : Discovery)

def untagged : Discovery :=
  ⟨untaggedModels discovery.input, discovery.missing.untagged,
    untaggedModels discovery.referenced⟩

theorem fetch_untagged (id : ResourceId) :
    discovery.untagged.fetch id = (discovery.fetch id).untagged := by
  simp only [fetch, untagged, getElem?_untaggedModels]
  cases discovery.input[id]? with
  | none => rfl
  | some model => rfl

theorem fetchWarnings_untagged (id : ResourceId) :
    discovery.untagged.fetchWarnings id = discovery.fetchWarnings id := by
  simp only [fetchWarnings, untagged, contains_untaggedModels]

theorem refer_untagged (id : ResourceId) (model : Shared ModelDef) :
    discovery.untagged.refer id model.untagged = (discovery.refer id model).untagged := by
  simp only [refer, untagged, untaggedModels, Table.map_insert]

theorem isReferenced_untagged (id : ResourceId) :
    discovery.untagged.referenced.contains id = discovery.referenced.contains id :=
  contains_untaggedModels discovery.referenced id

theorem unreferenced_untagged : discovery.untagged.unreferenced = discovery.unreferenced := by
  have keys : discovery.untagged.input.keys = discovery.input.keys :=
    Std.ExtTreeMap.keys_map
  simp only [unreferenced, keys, isReferenced_untagged]

namespace Frame

def untagged (frame : Frame) : Frame :=
  { frame with model := frame.model.untagged }

theorem markDownTo_untagged (entry : ResourceId) (stack : List Frame) :
    markDownTo entry (stack.map untagged) = (markDownTo entry stack).map untagged := by
  induction stack with
  | nil => rfl
  | cons top below inductionHypothesis =>
      rw [List.map_cons, markDownTo, markDownTo, inductionHypothesis, apply_ite (List.map untagged)]
      rfl

theorem pathFrom_untagged (entry : ResourceId) (stack : List Frame) :
    pathFrom entry (stack.map untagged) = pathFrom entry stack := by
  induction stack with
  | nil => rfl
  | cons top below inductionHypothesis =>
      rw [List.map_cons, pathFrom, pathFrom, inductionHypothesis]
      rfl

end Frame

theorem frame_untagged (id : ResourceId) :
    discovery.untagged.frame id = (discovery.frame id).untagged := by
  simp only [frame, fetch_untagged]
  rfl

namespace Walk

variable (walk : Walk)

def untagged : Walk :=
  ⟨walk.discovery.untagged, walk.stack.map Frame.untagged, walk.onStack, walk.warnings⟩

theorem enter_untagged (id : ResourceId) :
    walk.untagged.enter id = (walk.enter id).untagged := by
  simp only [enter, untagged, frame_untagged, fetchWarnings_untagged, List.map_cons]

theorem leave_untagged (top : Frame) (below : List Frame) :
    walk.untagged.leave top.untagged (below.map Frame.untagged) =
      (walk.leave top below).untagged := by
  have stands : (if top.onLoop then walk.discovery.missing.untagged else top.model.untagged) =
      (if top.onLoop then walk.discovery.missing else top.model).untagged := by
    cases top.onLoop <;> rfl
  have left : walk.untagged.leave top.untagged (below.map Frame.untagged) =
      ⟨walk.discovery.untagged.refer top.id
          (if top.onLoop then walk.discovery.missing.untagged else top.model.untagged),
        below.map Frame.untagged, walk.onStack.erase top.id, walk.warnings⟩ :=
    rfl
  rw [left, stands, refer_untagged]
  rfl

theorem closeLoop_untagged (entry : ResourceId) (stack : List Frame) :
    walk.untagged.closeLoop entry (stack.map Frame.untagged) =
      (walk.closeLoop entry stack).untagged := by
  simp only [closeLoop, untagged, Frame.markDownTo_untagged, Frame.pathFrom_untagged]

section Turning

variable {walk : Walk} {top : Frame} {below : List Frame}

theorem turn?_of_finished (stack : walk.stack = top :: below) (finished : top.pending = []) :
    walk.turn? = some (walk.leave top below) := by
  simp only [turn?, stack, finished]

theorem turn?_of_pending {next : ResourceId} {others : List ResourceId}
    (stack : walk.stack = top :: below) (pending : top.pending = next :: others) :
    walk.turn? =
      let onward := { top with pending := others } :: below
      if walk.discovery.referenced.contains next then
        some (walk.skip onward)
      else if walk.onStack.contains next then
        some (walk.closeLoop next onward)
      else
        some ((walk.skip onward).enter next) := by
  simp only [turn?, stack, pending]

end Turning

/-- The same turn is taken whichever instances hold the models. -/
theorem turn?_untagged : walk.untagged.turn? = walk.turn?.map untagged := by
  cases stack : walk.stack with
  | nil =>
      have stack' : walk.untagged.stack = [] := congrArg (List.map Frame.untagged) stack
      rw [turn?_eq_none_iff.mpr stack, turn?_eq_none_iff.mpr stack', Option.map_none]
  | cons top below =>
      have stack' : walk.untagged.stack = top.untagged :: below.map Frame.untagged :=
        congrArg (List.map Frame.untagged) stack
      cases pending : top.pending with
      | nil =>
          rw [turn?_of_finished stack pending, turn?_of_finished stack' pending, leave_untagged,
            Option.map_some]
      | cons next others =>
          let onward : List Frame := { top with pending := others } :: below
          have known := walk.discovery.isReferenced_untagged next
          rw [turn?_of_pending stack pending, turn?_of_pending stack' pending]
          change (if walk.discovery.untagged.referenced.contains next then _
            else if walk.onStack.contains next then _ else _) = _
          rw [known]
          cases walk.discovery.referenced.contains next with
          | true => rfl
          | false =>
              cases walk.onStack.contains next with
              | true => exact congrArg some (walk.closeLoop_untagged next onward)
              | false => exact congrArg some ((walk.skip onward).enter_untagged next)

theorem run_untagged : walk.untagged.run = walk.run.untagged := by
  induction walk using run.induct with
  | case1 walk ended =>
      have still : walk.untagged.turn? = none := by
        rw [turn?_untagged, ended, Option.map_none]
      rw [run_eq_self ended, run_eq_self still]
  | case2 walk next turned inductionHypothesis =>
      have onward : walk.untagged.turn? = some next.untagged := by
        rw [turn?_untagged, turned, Option.map_some]
      rw [run_eq_run turned, run_eq_run onward, inductionHypothesis]

theorem start_untagged (discovery : Discovery) (id : ResourceId) :
    start discovery.untagged id = (start discovery id).untagged :=
  enter_untagged (Walk.mk discovery [] ∅ []) id

end Walk

theorem visit_untagged (id : ResourceId) :
    discovery.untagged.visit id =
      ((discovery.visit id).1.untagged, (discovery.visit id).2) := by
  unfold visit
  rw [isReferenced_untagged, Walk.start_untagged, Walk.run_untagged]
  cases discovery.referenced.contains id with
  | false => rfl
  | true => rfl

/-- What is found and what is complained about does not depend on instances. -/
theorem visitAll_untagged (ids : List ResourceId) :
    discovery.untagged.visitAll ids =
      ((discovery.visitAll ids).1.untagged, (discovery.visitAll ids).2) := by
  induction ids generalizing discovery with
  | nil => rfl
  | cons id rest inductionHypothesis =>
      simp only [visitAll, visit_untagged, inductionHypothesis]

end Discovery

end PackModels
