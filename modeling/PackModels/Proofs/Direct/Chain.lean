import PackModels.Proofs.Lineage
import PackModels.Reload.Inputs

/-!
Contract: the chain of a model worked out from the files alone.

The lineage of an id goes up from it along the parents that the files give,
until it would come to an id for the second time. An id lies on a loop when it
is the parent of an id of its own lineage. The chain of an id consists of the
definitions along its lineage; at the first id that has no usable definition
of its own it ends with the missing model. Nothing that was found for one id is
used for another.
-/

namespace PackModels.Direct

open PackModels.Lineage

/-- The definitions of the files that can be read. -/
def files (texts : Table ResourceId String) : Table ResourceId ModelDef :=
  texts.filterMap (fun id text => (ModelDef.parse id text).toOption)

variable (files : Table ResourceId ModelDef)

/-- The definition of an id by its own file. The id of the missing model is
never defined by a file. -/
def own? (id : ResourceId) : Option ModelDef :=
  if id = ModelDef.missingId then none else files[id]?

def parent? (id : ResourceId) : Option ResourceId :=
  (own? files id).bind ModelDef.parent

theorem mem_keys_of_parent? {id parent : ResourceId} (isParent : parent? files id = some parent) :
    id ∈ files.keys := by
  obtain ⟨definition, own, _⟩ := Option.bind_eq_some_iff.mp isParent
  unfold own? at own
  split at own
  · cases own
  · rw [Std.ExtTreeMap.mem_keys, Std.ExtTreeMap.mem_iff_isSome_getElem?, own]
    rfl

/-- The number of files that are not behind yet. -/
def ahead (behind : List ResourceId) : Nat :=
  files.keys.countP (fun id => !behind.contains id)

theorem ahead_cons_lt {behind : List ResourceId} {id : ResourceId} (new : id ∉ behind)
    (held : id ∈ files.keys) : ahead files (id :: behind) < ahead files behind := by
  obtain ⟨front, back, split⟩ := List.append_of_mem held
  have fewer : ∀ ids : List ResourceId,
      ids.countP (fun other => !(id :: behind).contains other) ≤
        ids.countP (fun other => !behind.contains other) := by
    intro ids
    apply List.countP_mono_left
    intro other _ ahead
    simp only [List.contains_cons, Bool.not_or, Bool.and_eq_true] at ahead
    exact ahead.2
  have front_le := fewer front
  have back_le := fewer back
  have before : (!behind.contains id) = true := by simpa using new
  have after : (!(id :: behind).contains id) = false := by simp
  unfold ahead
  rw [split, List.countP_append, List.countP_append, List.countP_cons, List.countP_cons,
    before, after]
  simp only [if_true, Bool.false_eq_true, if_false]
  omega

/-- The ids from one up along the parents, short of those behind. -/
def lineage (behind : List ResourceId) (id : ResourceId) : List ResourceId :=
  if id ∈ behind then
    []
  else
    match _above : parent? files id with
    | none => [id]
    | some parent => id :: lineage (id :: behind) parent
termination_by ahead files behind
decreasing_by
  rename_i new
  exact ahead_cons_lt files new (mem_keys_of_parent? files _above)

/-- Whether an id is reached again from its own parent. -/
def isOnLoop (id : ResourceId) : Bool :=
  (lineage files [] id).any (fun lower => parent? files lower == some id)

/-- The definition that stands for an id, unless the missing model does. -/
def usable? (id : ResourceId) : Option ModelDef :=
  if isOnLoop files id then none else own? files id

/-- The definitions along some ids, up to the first one without any. -/
def along : List ResourceId → List ModelDef
  | [] => []
  | id :: above =>
      match usable? files id with
      | none => [ModelDef.missing]
      | some definition => definition :: along above

/-- The definitions from an id to its last parent. -/
def chain (id : ResourceId) : List ModelDef :=
  along files (lineage files [] id)

/-! ## Lineages -/

variable {files}

theorem lineage_of_mem {behind : List ResourceId} {id : ResourceId} (met : id ∈ behind) :
    lineage files behind id = [] := by
  rw [lineage, if_pos met]

theorem lineage_of_none {behind : List ResourceId} {id : ResourceId} (new : id ∉ behind)
    (last : parent? files id = none) : lineage files behind id = [id] := by
  rw [lineage, if_neg new]
  split
  · rfl
  · rename_i parent isParent
    rw [last] at isParent
    cases isParent

theorem lineage_of_some {behind : List ResourceId} {id parent : ResourceId} (new : id ∉ behind)
    (isParent : parent? files id = some parent) :
    lineage files behind id = id :: lineage files (id :: behind) parent := by
  rw [lineage, if_neg new]
  split
  · rename_i last
    rw [last] at isParent
    cases isParent
  · rename_i other isOther
    rw [isParent] at isOther
    rw [Option.some.inj isOther]

theorem mem_lineage_self {behind : List ResourceId} {id : ResourceId} (new : id ∉ behind) :
    id ∈ lineage files behind id := by
  cases above : parent? files id with
  | none => simp [lineage_of_none new above]
  | some parent => simp [lineage_of_some new above]

theorem reaches_of_mem_lineage {behind : List ResourceId} {id upper : ResourceId}
    (member : upper ∈ lineage files behind id) : Reaches (parent? files) id upper := by
  induction behind, id using lineage.induct files with
  | case1 behind id met =>
      rw [lineage_of_mem met] at member
      cases member
  | case2 behind id new last =>
      rw [lineage_of_none new last, List.mem_singleton] at member
      rw [member]
      exact .refl
  | case3 behind id new parent isParent inductionHypothesis =>
      rw [lineage_of_some new isParent, List.mem_cons] at member
      rcases member with same | above
      · rw [same]
        exact .refl
      · exact .head isParent (inductionHypothesis above)

/-- A lineage ends only where there is no parent or the parent is behind. -/
theorem parent_mem_lineage {behind : List ResourceId} {id child parent : ResourceId}
    (member : child ∈ lineage files behind id) (step : parent? files child = some parent) :
    parent ∈ lineage files behind id ∨ parent ∈ behind := by
  induction behind, id using lineage.induct files with
  | case1 behind id met =>
      rw [lineage_of_mem met] at member
      cases member
  | case2 behind id new last =>
      rw [lineage_of_none new last, List.mem_singleton] at member
      rw [member, last] at step
      cases step
  | case3 behind id new up isParent inductionHypothesis =>
      rw [lineage_of_some new isParent, List.mem_cons] at member ⊢
      rcases member with same | above
      · rw [same, isParent] at step
        rw [← Option.some.inj step]
        by_cases met : up ∈ id :: behind
        · rcases List.mem_cons.mp met with again | before
          · exact .inl (.inl again)
          · exact .inr before
        · exact .inl (.inr (mem_lineage_self met))
      · rcases inductionHypothesis above with higher | met
        · exact .inl (.inr higher)
        · rcases List.mem_cons.mp met with again | before
          · exact .inl (.inl again)
          · exact .inr before

theorem mem_lineage_iff {id upper : ResourceId} :
    upper ∈ lineage files [] id ↔ Reaches (parent? files) id upper := by
  constructor
  · exact reaches_of_mem_lineage
  · intro reaches
    apply reaches.closed
    · intro child parent member step
      rcases parent_mem_lineage member step with above | behind
      · exact above
      · cases behind
    · exact mem_lineage_self List.not_mem_nil

theorem isOnLoop_iff {id : ResourceId} : isOnLoop files id = true ↔ OnLoop (parent? files) id := by
  unfold isOnLoop
  rw [List.any_eq_true]
  constructor
  · rintro ⟨lower, member, closes⟩
    exact .tail' (mem_lineage_iff.mp member) (beq_iff_eq.mp closes)
  · intro loop
    obtain ⟨lower, reaches, closes⟩ := Relation.TransGen.tail'_iff.mp loop
    exact ⟨lower, mem_lineage_iff.mpr reaches, beq_iff_eq.mpr closes⟩

end PackModels.Direct
