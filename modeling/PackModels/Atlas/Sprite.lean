import PackModels.Id

/-!
Contract: textures, the sprites they become, and atlases.

A material names a texture inside an atlas. An atlas holds sprites on a grid
of 64 by 64 tiles; tile zero belongs to the missing texture, which every atlas
answers with for its name. A set of atlases always holds the atlas of blocks,
whose missing sprite stands in for everything that cannot be found.
-/

namespace PackModels

structure Material where
  atlas : ResourceId
  texture : ResourceId
deriving DecidableEq, Repr, Inhabited

namespace Material

def blockAtlas : ResourceId :=
  ⟨"minecraft", "textures/atlas/blocks.png"⟩

def missingTexture : ResourceId :=
  ⟨"minecraft", "missingno"⟩

def ofBlock (texture : ResourceId) : Material :=
  ⟨blockAtlas, texture⟩

def missing : Material :=
  ofBlock missingTexture

end Material

/-- A texture with its place in an atlas. -/
structure Sprite where
  name : ResourceId
  atlas : ResourceId
  tile : Nat
  u0 : Float32
  v0 : Float32
  u1 : Float32
  v1 : Float32
deriving Inhabited

namespace Sprite

def columns : Nat :=
  64

def rows : Nat :=
  64

def capacity : Nat :=
  columns * rows

def cell (tile : Nat) : Nat × Nat :=
  (tile % columns, tile / columns)

/-- The sprite of a texture on a tile. The numbers of tiles have sixteen bits. -/
def onTile (atlas name : ResourceId) (number : UInt16) : Sprite :=
  let tile := number.toNat
  let place := cell tile
  let u0 := Float32.ofNat place.1 / Float32.ofNat columns
  let v0 := Float32.ofNat place.2 / Float32.ofNat rows
  ⟨name, atlas, tile, u0, v0, u0 + 1 / Float32.ofNat columns, v0 + 1 / Float32.ofNat rows⟩

def missingOf (atlas : ResourceId) : Sprite :=
  onTile atlas Material.missingTexture 0

def isMissing (sprite : Sprite) : Bool :=
  sprite.name == Material.missingTexture

/-- The place in the atlas of a coordinate from zero to sixteen. -/
def u (sprite : Sprite) (coordinate : Float32) : Float32 :=
  sprite.u0 + (sprite.u1 - sprite.u0) * coordinate / 16

/-- The place in the atlas of a coordinate from zero to sixteen. -/
def v (sprite : Sprite) (coordinate : Float32) : Float32 :=
  sprite.v0 + (sprite.v1 - sprite.v0) * coordinate / 16

end Sprite

structure Atlas where
  id : ResourceId
  sprites : Table ResourceId Sprite

namespace Atlas

def missingOnly (id : ResourceId) : Atlas :=
  ⟨id, ∅⟩

def missing (atlas : Atlas) : Sprite :=
  Sprite.missingOf atlas.id

def sprite? (atlas : Atlas) (texture : ResourceId) : Option Sprite :=
  if texture = Material.missingTexture then
    some atlas.missing
  else
    atlas.sprites[texture]?

end Atlas

structure AtlasSet where
  atlases : Table ResourceId Atlas
  /-- The sprite that stands in for everything that cannot be found. -/
  missing : Sprite

namespace AtlasSet

def missingOnly : AtlasSet :=
  let atlas := Atlas.missingOnly Material.blockAtlas
  ⟨Table.ofPairs [(atlas.id, atlas)], atlas.missing⟩

instance : Inhabited AtlasSet :=
  ⟨missingOnly⟩

def insert (set : AtlasSet) (atlas : Atlas) : AtlasSet :=
  ⟨set.atlases.insert atlas.id atlas,
    if atlas.id = Material.blockAtlas then atlas.missing else set.missing⟩

def sprite? (set : AtlasSet) (material : Material) : Option Sprite :=
  set.atlases[material.atlas]?.bind (fun atlas => atlas.sprite? material.texture)

/-- The number of sprites of all atlases, missing ones apart. -/
def spriteCount (set : AtlasSet) : Nat :=
  (set.atlases.toList.flatMap (fun entry => entry.2.sprites.toList)).length

end AtlasSet

end PackModels
