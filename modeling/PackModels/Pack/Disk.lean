import PackModels.Text

/-!
Contract: what a program asks of a disk.

A disk answers three questions about a path: whether it is a folder, what the
text of the file there is, and which files lie below it. The questions can be
answered by a real disk or by one held in memory, and what is read is the same
either way.
-/

namespace PackModels

/-- What a file holds, as far as anything depends on it. -/
inductive FileContent where
  /-- A text, which is no image. -/
  | text (characters : String)
  /-- An image. -/
  | image (width height : Nat)
  /-- Neither. -/
  | other
deriving DecidableEq, Repr, Inhabited

namespace FileContent

def text? : FileContent → Option String
  | text characters => some characters
  | _ => none

end FileContent

structure PlacedFile where
  /-- The names of the folders on the way and then that of the file. -/
  path : List String
  content : FileContent
deriving DecidableEq, Repr, Inhabited

structure Disk (m : Type → Type) where
  isFolder : String → m Bool
  /-- The text of the file at a path, if there is one that can be read. -/
  readText : String → m (Option String)
  /-- Every file below a folder, in any order; none if there is no such folder. -/
  filesBelow : String → m (List PlacedFile)

namespace Disk

/-- A path that goes on from another one. A rooted path starts anew. -/
def extend (base step : String) : String :=
  if step.startsWith "/" then
    step
  else if base.isEmpty || base.endsWith "/" then
    base ++ step
  else
    base ++ "/" ++ step

end Disk

end PackModels
