import PackModels.Block.Definition
import PackModels.Toml.Reader

/-!
Contract: the settings of a load.

Every setting has a default, so an empty file is a whole configuration, and an
unknown setting is ignored. The lists and tables of blocks are kept as they
are written; a question about a block compares the ids that the written names
denote, and where several names of a table denote one id the first in key
order answers.
-/

namespace PackModels

structure Settings where
  /-- The directory that holds one directory for each namespace. -/
  assetsRoot : Option String
  space : String
  reportUnreferenced : Bool
  /-- How many workers share the load, if that is limited. -/
  workerThreads : Option Nat
  invisibleBlocks : List String
  fluidBlocks : Table String FluidKind
  /-- The properties that the tint of a block depends on. -/
  tintProperties : Table String (List String)
deriving DecidableEq

namespace Settings

def default : Settings where
  assetsRoot := none
  space := ResourceId.defaultSpace
  reportUnreferenced := true
  workerThreads := none
  invisibleBlocks :=
    ["minecraft:air", "minecraft:cave_air", "minecraft:void_air", "minecraft:barrier",
      "minecraft:structure_void", "minecraft:light", "minecraft:moving_piston"]
  fluidBlocks := Table.ofPairs [("minecraft:water", .water), ("minecraft:lava", .lava)]
  tintProperties :=
    Table.ofPairs
      [("minecraft:redstone_wire", ["power"]), ("minecraft:melon_stem", ["age"]),
        ("minecraft:pumpkin_stem", ["age"])]

instance : Inhabited Settings :=
  ⟨default⟩

/-- The value of the first name of a table, in key order, that denotes an id. -/
def firstNamed? {α : Type} (table : Table String α) (id : ResourceId) : Option α :=
  (table.toList.find? (fun entry => ResourceId.parse entry.1 == id)).map Prod.snd

def isInvisible (settings : Settings) (block : ResourceId) : Bool :=
  settings.invisibleBlocks.any (fun name => ResourceId.parse name == block)

/-- The kind of fluid of a block, if it is listed as one. -/
def fluidKind? (settings : Settings) (block : ResourceId) : Option FluidKind :=
  firstNamed? settings.fluidBlocks block

/-- The properties that the tint of a block depends on. -/
def tintPropertiesOf (settings : Settings) (block : ResourceId) : List String :=
  (firstNamed? settings.tintProperties block).getD []

namespace Reader

def text? : Toml.Node → Option String
  | .text characters => some characters
  | _ => none

def boolean? : Toml.Node → Option Bool
  | .boolean value => some value
  | _ => none

def natural? : Toml.Node → Option Nat
  | .integer value => if 0 ≤ value then some value.toNat else none
  | _ => none

def texts? : Toml.Node → Option (List String)
  | .list items => items.mapM text?
  | _ => none

/-- The entries of a table, however it is written. -/
def entries? : Toml.Node → Option Toml.Entries
  | .table _ entries => some entries
  | .inlineTable _ entries => some entries
  | _ => none

def isHollow : Toml.Node → Bool
  | .list items => items.isEmpty
  | node =>
      match entries? node with
      | some entries => entries.isEmpty
      | none => false

/-- A kind of fluid: its name, or a table with that name as its only key and an
empty table or list under it. -/
def fluid? (node : Toml.Node) : Option FluidKind :=
  match node with
  | .text characters => FluidKind.ofName? characters
  | other =>
      match entries? other with
      | some [(key, inner)] => if isHollow inner then FluidKind.ofName? key else none
      | _ => none

def tableOf? {α : Type} (read? : Toml.Node → Option α) (node : Toml.Node) :
    Option (Table String α) := do
  let entries ← entries? node
  let pairs ← entries.mapM (fun entry => (read? entry.2).map (fun value => (entry.1, value)))
  return Table.ofPairs pairs

def setting {α : Type} (entries : Toml.Entries) (key : String) (default : α)
    (read? : Toml.Node → Option α) : Option α :=
  match Toml.Entries.value? key entries with
  | none => some default
  | some node => read? node

end Reader

def parse? (text : String) : Option Settings := do
  let entries ← Toml.parse text
  let assetsRoot ← Reader.setting entries "assets_root" default.assetsRoot
    (fun node => (Reader.text? node).map some)
  let space ← Reader.setting entries "namespace" default.space Reader.text?
  let reportUnreferenced ←
    Reader.setting entries "report_unreferenced" default.reportUnreferenced Reader.boolean?
  let workerThreads ← Reader.setting entries "worker_threads" default.workerThreads
    (fun node => (Reader.natural? node).map some)
  let invisibleBlocks ←
    Reader.setting entries "invisible_blocks" default.invisibleBlocks Reader.texts?
  let fluidBlocks ←
    Reader.setting entries "fluid_blocks" default.fluidBlocks (Reader.tableOf? Reader.fluid?)
  let tintProperties ←
    Reader.setting entries "coloring_properties" default.tintProperties
      (Reader.tableOf? Reader.texts?)
  return {
    assetsRoot := assetsRoot
    space := space
    reportUnreferenced := reportUnreferenced
    workerThreads := workerThreads
    invisibleBlocks := invisibleBlocks
    fluidBlocks := fluidBlocks
    tintProperties := tintProperties }

end Settings

end PackModels
