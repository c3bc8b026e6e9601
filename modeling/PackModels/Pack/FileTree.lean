import PackModels.Pack.Disk
import PackModels.Table

/-!
Contract: a disk held in memory.

A tree has files and folders under one top folder. A path is followed name by
name: an empty name and a single dot stay, two dots go back, and every name
but the last has to be that of a folder. A rooted path and one that leaves the
top folder lead nowhere.
-/

namespace PackModels

/-- Files and folders under one top folder. -/
structure FileTree where
  files : Table (List String) FileContent
  /-- Every folder but the top one. -/
  folders : Roster (List String)

namespace FileTree

def empty : FileTree :=
  ⟨∅, ∅⟩

variable (tree : FileTree)

def hasFolder (path : List String) : Bool :=
  path.isEmpty || tree.folders.contains path

def follow? (place : List String) (name : String) : Option (List String) :=
  if !tree.hasFolder place then
    none
  else if name = "" ∨ name = "." then
    some place
  else if name = ".." then
    if place.isEmpty then none else some place.dropLast
  else
    some (place ++ [name])

def locate? (path : String) : Option (List String) :=
  if path.startsWith "/" then
    none
  else
    (Text.split '/' path).foldlM tree.follow? []

/-- The tree with every folder that some names go through from a place, and the
place to which they lead. Two dots at the top stay there. -/
def makeWay : FileTree → List String → List String → FileTree × List String
  | tree, place, [] => (tree, place)
  | tree, place, name :: rest =>
      if name = "" ∨ name = "." then
        makeWay tree place rest
      else if name = ".." then
        makeWay tree place.dropLast rest
      else
        makeWay { tree with folders := tree.folders.insert (place ++ [name]) }
          (place ++ [name]) rest

def addFolder (path : String) : FileTree :=
  (tree.makeWay [] (Text.split '/' path)).1

/-- The tree with a file and the folders that the path to it goes through. -/
def addFile (path : String) (content : FileContent) : FileTree :=
  let names := Text.split '/' path
  let way := tree.makeWay [] names.dropLast
  { way.1 with files := way.1.files.insert (way.2 ++ names.getLast?.toList) content }

def filesUnder (folder : List String) : List PlacedFile :=
  tree.files.toList.filterMap
    (fun entry =>
      if folder.isPrefixOf entry.1 && folder.length < entry.1.length then
        some ⟨entry.1.drop folder.length, entry.2⟩
      else
        none)

def disk : Disk Id where
  isFolder path := (tree.locate? path).any tree.hasFolder
  readText path := ((tree.locate? path).bind (fun place => tree.files[place]?)).bind
    FileContent.text?
  filesBelow path :=
    match (tree.locate? path).filter tree.hasFolder with
    | some place => tree.filesUnder place
    | none => []

end FileTree

end PackModels
