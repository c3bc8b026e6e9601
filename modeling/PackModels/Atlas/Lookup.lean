import PackModels.Atlas.Sprite
import PackModels.Warning

/-!
Contract: finding sprites while models are baked, and recording misses.

A look-up always answers with a sprite. Where a texture is not found, or a
slot of a model is bound to nothing, the answer is the missing sprite and the
miss is recorded once under the name of the model: the id of the texture, or
the name of the slot after a hash sign. Asking for the missing texture itself
is no miss.
-/

namespace PackModels

/-- What was not found: for the name of each model, the missing texts. -/
abbrev Misses : Type :=
  Table String (Roster String)

namespace Misses

def record (misses : Misses) (model text : String) : Misses :=
  misses.insert model ((misses[model]?.getD ∅).insert text)

/-- One warning for each model, with its missing texts in order. -/
def warnings (misses : Misses) : List Warning :=
  misses.toList.map (fun entry => .texturesMissing entry.1 entry.2.toList)

end Misses

namespace AtlasSet

/-- The sprite of a material for a model, and the misses after the look-up. -/
def lookUp (set : AtlasSet) (model : String) (material : Material) (misses : Misses) :
    Sprite × Misses :=
  match (set.sprite? material).filter (fun sprite => !sprite.isMissing) with
  | some sprite => (sprite, misses)
  | none =>
      (set.missing,
        if material.texture = Material.missingTexture then
          misses
        else
          misses.record model material.texture.render)

/-- The sprite of a slot that is bound to nothing, and the misses after it. -/
def lookUpUnbound (set : AtlasSet) (model slot : String) (misses : Misses) :
    Sprite × Misses :=
  (set.missing, misses.record model ("#" ++ slot))

end AtlasSet

end PackModels
