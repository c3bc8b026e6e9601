import PackModels.Atlas.Sprite
import PackModels.Warning

/-!
Contract: laying textures out on the tiles of an atlas.

The textures, each once and without the missing one, take the tiles from one
on in the order of their ids. Those that find no tile left are dropped, with a
warning for each. So an atlas depends only on the set of its textures.
-/

namespace PackModels.Grid

/-- The textures that ask for a tile, in the order in which they get one. -/
def order (textures : List ResourceId) : List ResourceId :=
  ((textures.foldl (fun names texture => names.insert texture)
    (∅ : Roster ResourceId)).erase Material.missingTexture).toList

/-- The textures laid out so far, and the tile of the next one. -/
structure Layout where
  nextTile : Nat
  sprites : Table ResourceId Sprite
  warnings : List Warning

namespace Layout

/-- Tile zero is taken from the start. -/
def start : Layout :=
  ⟨1, ∅, []⟩

/-- Lays out one more texture, or drops it where the atlas is full. -/
def place (atlas : ResourceId) (layout : Layout) (texture : ResourceId) : Layout :=
  if Sprite.capacity ≤ layout.nextTile then
    { layout with warnings := layout.warnings ++ [.atlasFull atlas texture] }
  else
    { layout with
      nextTile := layout.nextTile + 1
      sprites := layout.sprites.insert texture
        (Sprite.onTile atlas texture layout.nextTile.toUInt16) }

end Layout

def build (atlas : ResourceId) (textures : List ResourceId) : Atlas × List Warning :=
  let layout := (order textures).foldl (Layout.place atlas) .start
  (⟨atlas, layout.sprites⟩, layout.warnings)

/-- The set of atlases with some textures in one of them, besides the atlas of
blocks. -/
def stitchInto (atlas : ResourceId) (textures : List ResourceId) : AtlasSet × List Warning :=
  let built := build atlas textures
  (AtlasSet.missingOnly.insert built.1, built.2)

/-- The set of atlases with some textures in the atlas of blocks. -/
def stitch (textures : List ResourceId) : AtlasSet × List Warning :=
  stitchInto Material.blockAtlas textures

end PackModels.Grid
