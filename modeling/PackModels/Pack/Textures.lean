import PackModels.Atlas.Grid
import PackModels.Pack.Disk

/-!
Contract: which image files of a pack become textures.

An image counts if it is a strip of square frames, one below the other. An
image of another size and a file that is no image are passed over with a
warning, and the others are stitched into one atlas.
-/

namespace PackModels.PackTextures

def isStrip (width height : Nat) : Bool :=
  0 < width && height % width == 0

def warning? (texture : ResourceId × FileContent) : Option Warning :=
  match texture.2 with
  | .image width height =>
      if isStrip width height then none else some (.textureSize texture.1 width height)
  | _ => some (.textureUnreadable texture.1)

/-- The atlas of the textures that count, with the warnings about the others
and about those that do not fit. -/
def stitch (textures : List (ResourceId × FileContent)) : AtlasSet × List Warning :=
  let usable := textures.filter (fun texture => (warning? texture).isNone)
  let stitched := Grid.stitch (usable.map Prod.fst)
  (stitched.1, textures.filterMap warning? ++ stitched.2)

end PackModels.PackTextures
