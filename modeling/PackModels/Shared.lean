/-!
Contract: values that several holders share.

Some answers depend on whether two holders share one instance and not only on
whether their values agree: a walk that must not visit one instance twice, a
cache that must hand out the same instance again. A `Shared` value carries the
tag of its instance; holders share an instance exactly when the tags agree.
-/

namespace PackModels

/-- A value together with the tag of the instance that holds it. -/
structure Shared (α : Type) where
  tag : Nat
  value : α

namespace Shared

def same {α : Type} (left right : Shared α) : Bool :=
  left.tag == right.tag

end Shared

end PackModels
