import PackModels.Proofs.Baking.Attempts
import PackModels.Proofs.Text

/-!
Contract: the written form of an id stands for one id.

An id that is read from a text has a namespace, and no colon in it. So the first
colon of its written form ends the namespace, however many colons the path has:
reading the written form gives the id back, and no two ids that are read from
texts have one written form. Missing textures are listed under written forms;
therefore what is listed under that of an id is what the model of this id lacks,
unless ids are baked that no text stands for.

Owns: `Legible`, the ids that are read from texts, and `ListsApart`, what is
listed under their written forms.

Does not own: what a model lacks.
-/

namespace PackModels

namespace ResourceId

/-- Whether an id has a namespace, and no colon in it. -/
structure Legible (id : ResourceId) : Prop where
  named : id.space ≠ ""
  unmarked : ':' ∉ id.space.toList

theorem legible_inDefaultSpace (path : String) : (inDefaultSpace path).Legible :=
  ⟨(by decide : defaultSpace ≠ ""), (by decide : ':' ∉ defaultSpace.toList)⟩

theorem legible_parse (text : String) : (parse text).Legible := by
  unfold parse
  split
  · exact legible_inDefaultSpace text
  · exact legible_inDefaultSpace _
  · rename_i space path notEmpty cut
    refine ⟨?named, ?unmarked⟩
    case named =>
      intro empty
      exact notEmpty (String.ofList_eq_empty_iff.mp empty)
    case unmarked =>
      rw [String.toList_ofList]
      exact (Text.cutAt_eq_some_iff.mp cut).1

/-- The first colon of the written form ends the namespace. -/
theorem Legible.parse_render {id : ResourceId} (legible : id.Legible) : parse id.render = id := by
  have characters : id.render.toList = id.space.toList ++ ':' :: id.path.toList := by
    rw [render, String.toList_append, String.toList_append, List.append_assoc]
    rfl
  unfold parse
  rw [characters, Text.cutAt_append legible.unmarked]
  cases spaced : id.space.toList with
  | nil => exact absurd (String.toList_eq_nil_iff.mp spaced) legible.named
  | cons first rest =>
      dsimp only
      rw [← spaced, String.ofList_toList, String.ofList_toList]

/-- The ids with a namespace without a colon are those that are read from texts. -/
theorem legible_iff {id : ResourceId} : id.Legible ↔ ∃ text, parse text = id := by
  constructor
  · exact fun legible => ⟨id.render, legible.parse_render⟩
  · rintro ⟨text, rfl⟩
    exact legible_parse text

theorem Legible.render_inj {id other : ResourceId} (legible : id.Legible)
    (legible' : other.Legible) : id.render = other.render ↔ id = other := by
  constructor
  · intro same
    rw [← legible.parse_render, same, legible'.parse_render]
  · exact congrArg render

end ResourceId

namespace Bakery

/-- Whether misses list under the written form of any id that is read from a text
what the model of this id lacks, if some key bakes it. Besides, only what ids lack
that no text stands for may be listed there. -/
def ListsApart (bakery : Bakery) (keys : List BakeKey) (misses : Misses) : Prop :=
  ∀ name text, misses.Reports (ResourceId.parse name).render text ↔
    ((∃ key ∈ keys, key.id = ResourceId.parse name) ∧
        bakery.Lacks (ResourceId.parse name) text) ∨
      ∃ key ∈ keys, (∀ other, ResourceId.parse other ≠ key.id) ∧
        key.id.render = (ResourceId.parse name).render ∧ bakery.Lacks key.id text

/-- Bakes of two ids that are read from texts are listed apart. -/
theorem listsApart_bakeEach (bakery : Bakery) (keys : List BakeKey) :
    bakery.ListsApart keys (bakery.bakeEach keys .start).2.missed := by
  intro name text
  have legible := ResourceId.legible_parse name
  rw [((bakeEach_adds (informed_start bakery) keys).1).reports]
  constructor
  · rintro (before | ⟨key, listed, written, lacks⟩)
    · exact absurd before (Misses.not_reports_empty _ _)
    · by_cases isRead : ∃ other, ResourceId.parse other = key.id
      · have same := ((ResourceId.legible_iff.mpr isRead).render_inj legible).mp written
        exact .inl ⟨⟨key, listed, same⟩, same ▸ lacks⟩
      · exact .inr ⟨key, listed, not_exists.mp isRead, written, lacks⟩
  · rintro (⟨⟨key, listed, same⟩, lacks⟩ | ⟨key, listed, _, written, lacks⟩)
    · exact .inr ⟨key, listed, congrArg ResourceId.render same, same ▸ lacks⟩
    · exact .inr ⟨key, listed, written, lacks⟩

end Bakery

namespace ResourceId

/-- An id that is read from a text is read back from its written form, and two of
them have one written form only if they are the same. So no sequence of bakes, and
no batch, lists the missing textures of two such ids together. -/
theorem parse_render_exact :
    (∀ text, parse (parse text).render = parse text) ∧
    (∀ text other, (parse text).render = (parse other).render ↔ parse text = parse other) ∧
    (∀ (bakery : Bakery) (keys : List BakeKey),
      bakery.ListsApart keys (bakery.bakeEach keys .start).2.missed) ∧
    ∀ (bakery : Bakery) (bindings : BindingTable) (items : Table ResourceId ItemBinding),
      bakery.ListsApart (Batch.attempts bakery bindings items)
        (Batch.bakeAll bakery bindings items).1.missingTextures := by
  refine ⟨fun text => (legible_parse text).parse_render,
    fun text other => (legible_parse text).render_inj (legible_parse other),
    Bakery.listsApart_bakeEach, fun bakery bindings items => ?_⟩
  rw [Batch.bakeAll_missed]
  exact bakery.listsApart_bakeEach (Batch.attempts bakery bindings items)

/-- Ids with a colon in the namespace may share a written form. -/
example : (⟨"a:b", "c"⟩ : ResourceId).render = (⟨"a", "b:c"⟩ : ResourceId).render := by decide

end ResourceId

end PackModels
