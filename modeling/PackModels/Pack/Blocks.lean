import PackModels.Binding.StateFile
import PackModels.Settings

/-!
Contract: the blocks of a pack that does not list them.

There is one block for each state file, with the properties and values that
the file mentions, and one for each block that the settings name as invisible
or as fluid. A fluid has all sixteen levels, after those that its file
mentions. A state file that cannot be read gives a block without properties,
with a warning.
-/

namespace PackModels.InferredBlocks

def levels : List String :=
  (List.range 16).map toString

def withLevels (block : BlockDef) (kind : FluidKind) : BlockDef :=
  (block.withProperty "level" levels).makeFluid kind

def adjust (settings : Settings) (block : BlockDef) : BlockDef :=
  let shown := if settings.isInvisible block.id then block.makeInvisible else block
  match settings.fluidKind? block.id with
  | some kind => withLevels shown kind
  | none => shown

/-- The block of a state file before the settings are looked at. -/
def mentioned (id : ResourceId) (text : String) : BlockDef × List Warning :=
  match StateFile.parse id text with
  | .ok file => (file.inferBlock id, [])
  | .error error => (BlockDef.new id, [.propertiesUnreadable error])

def named (settings : Settings) : List BlockDef :=
  settings.invisibleBlocks.map (fun name => (BlockDef.new (ResourceId.parse name)).makeInvisible)
    ++ settings.fluidBlocks.toList.map
      (fun entry => withLevels (BlockDef.new (ResourceId.parse entry.1)) entry.2)

/-- The registry of a pack. The blocks with a state file come first, so they
are kept where the settings name them again. -/
def registry (settings : Settings) (files : Table ResourceId String) :
    Registry × List Warning :=
  let read := files.toList.map (fun entry => mentioned entry.1 entry.2)
  let built := Registry.ofDefinitions
    (read.map (fun found => adjust settings found.1) ++ named settings)
  (built.1, read.flatMap Prod.snd ++ built.2)

end PackModels.InferredBlocks
