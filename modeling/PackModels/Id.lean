import PackModels.Table
import PackModels.Text

/-!
Contract: the names of resources and of block states.

A resource id is a namespace and a path, written with the first colon between
them; an id without a namespace belongs to the default one. A state id names
one state of one block: the block's id and the state's variant key. Both kinds
are ordered by the code points of their parts, the namespace first.
-/

namespace PackModels

/-- The name of a model, block, item, texture or atlas. -/
structure ResourceId where
  space : String
  path : String
deriving DecidableEq, Hashable, Repr, Inhabited

namespace ResourceId

/-- The namespace of every id that names none. -/
def defaultSpace : String :=
  "minecraft"

def inDefaultSpace (path : String) : ResourceId :=
  ⟨defaultSpace, path⟩

/-- Reads an id. The first colon ends the namespace, and an empty namespace
stands for the default one. -/
def parse (text : String) : ResourceId :=
  match Text.cutAt ':' text.toList with
  | none => inDefaultSpace text
  | some ([], path) => inDefaultSpace (String.ofList path)
  | some (space, path) => ⟨String.ofList space, String.ofList path⟩

def render (id : ResourceId) : String :=
  id.space ++ ":" ++ id.path

def withLeadingPath (id : ResourceId) (leading : String) : ResourceId :=
  ⟨id.space, leading ++ id.path⟩

instance : Ord ResourceId :=
  ⟨fun left right =>
    (compare left.space right.space).then (compare left.path right.path)⟩

instance : Std.TransOrd ResourceId :=
  inferInstanceAs
    (Std.TransCmp (compareLex (compareOn ResourceId.space) (compareOn ResourceId.path)))

instance : Std.LawfulEqOrd ResourceId where
  eq_of_compare {left right} equal := by
    have parts := Ordering.then_eq_eq.mp equal
    cases left
    cases right
    simp_all

instance : ToString ResourceId :=
  ⟨render⟩

end ResourceId

structure StateId where
  block : ResourceId
  variant : String
deriving DecidableEq, Repr, Inhabited

namespace StateId

def render (id : StateId) : String :=
  id.block.render ++ "#" ++ id.variant

instance : Ord StateId :=
  ⟨fun left right =>
    (compare left.block right.block).then (compare left.variant right.variant)⟩

instance : Std.TransOrd StateId :=
  inferInstanceAs
    (Std.TransCmp (compareLex (compareOn StateId.block) (compareOn StateId.variant)))

instance : Std.LawfulEqOrd StateId where
  eq_of_compare {left right} equal := by
    have parts := Ordering.then_eq_eq.mp equal
    cases left
    cases right
    simp_all

instance : ToString StateId :=
  ⟨render⟩

end StateId

end PackModels
