import PackModels.Id
import PackModels.Pack.Disk
import PackModels.Table

/-!
Contract: the files of one namespace of a pack.

Models, state files and items are texts in folders of their own, and textures
are images. A file belongs to its folder by its extension, and its id is the
way to it without that extension. An extension is what follows the last dot of
a name, unless that dot is the first character. The dot goes with the extension,
unless nothing but another dot is in front of it. A pack cannot be read if one
of its texts cannot be.
-/

namespace PackModels

/-- The texts and the textures of one namespace of a pack. -/
structure PackFiles where
  models : Table ResourceId String
  states : Table ResourceId String
  items : Table ResourceId String
  textures : List (ResourceId × FileContent)

namespace PackFiles

def splitName? (name : String) : Option (String × String) :=
  match Text.cutAt '.' name.toList.reverse with
  | some (extension, stem) =>
      if stem.isEmpty then
        none
      else
        some (String.ofList stem.reverse, String.ofList extension.reverse)
  | none => none

/-- The path of an id: the way to a file with an extension, without it. -/
def idPath? (extension : String) (path : List String) : Option String := do
  let name ← path.getLast?
  let (stem, found) ← splitName? name
  if found = extension then
    some (Text.join "/" (path.dropLast ++ [if stem = "." then ".." else stem]))
  else
    none

/-- A file of a folder with the path of its id. -/
structure Found where
  idPath : String
  file : PlacedFile
deriving DecidableEq, Repr, Inhabited

/-- The order of files: by the path of the id, then by the way to the file. -/
def foundOrder (left right : Found) : Bool :=
  ((compare left.idPath right.idPath).then
    (compare left.file.path right.file.path)).isLE

def withExtension (extension : String) (files : List PlacedFile) : List Found :=
  (files.filterMap
    (fun file => (idPath? extension file.path).map (fun path => ⟨path, file⟩))).mergeSort
    foundOrder

def texts? (space : String) (files : List PlacedFile) : Option (Table ResourceId String) :=
  ((withExtension "json" files).mapM
    (fun (found : Found) => found.file.content.text?.map
      (fun text => (ResourceId.mk space found.idPath, text)))).map Table.ofPairs

def texturesOf (space : String) (files : List PlacedFile) : List (ResourceId × FileContent) :=
  (withExtension "png" files).map
    (fun found => (⟨space, found.idPath⟩, found.file.content))

def read {m : Type → Type} [Monad m] (disk : Disk m) (folder space : String) :
    m (Option PackFiles) := do
  let models ← disk.filesBelow (Disk.extend folder "models")
  let states ← disk.filesBelow (Disk.extend folder "blockstates")
  let items ← disk.filesBelow (Disk.extend folder "items")
  let textures ← disk.filesBelow (Disk.extend folder "textures")
  return do
    let models ← texts? space models
    let states ← texts? space states
    let items ← texts? space items
    return ⟨models, states, items, texturesOf space textures⟩

end PackFiles

end PackModels
