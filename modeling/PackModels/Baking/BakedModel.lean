import PackModels.Baking.Quad
import PackModels.Model.Display
import PackModels.Shared

/-!
Contract: models that are ready to be drawn, and what a state draws.

A baked model files each of its quads either under no side, always drawn, or
under the side of the neighbour that hides it. A state draws one model, or one
of several by weight, or several parts together. Weights are numbers of 32
bits and their total is one of 64 bits. A choice is only made where at least
two weights are positive: without one there is no choice, and a single one is
taken as it is.
-/

namespace PackModels

structure BakedModel where
  quads : Option Direction → List Quad
  ambientOcclusion : Bool
  gui3d : Bool
  usesBlockLight : Bool
  particle : Sprite
  transforms : Transforms

namespace BakedModel

def sides : List (Option Direction) :=
  none :: Direction.all.map some

def quadCount (model : BakedModel) : Nat :=
  (sides.flatMap model.quads).length

/-- The quads of a list that are filed under a side, in order. -/
def filedUnder (filed : List (Option Direction × Quad)) (side : Option Direction) :
    List Quad :=
  (filed.filter (fun entry => entry.1 == side)).map Prod.snd

end BakedModel

/-- A baked model with its weight in a choice. -/
structure WeightedModel where
  weight : UInt32
  model : Shared BakedModel

inductive StateModel where
  | single (model : Shared BakedModel)
  | weighted (entries : List WeightedModel) (total : UInt64)
  | composite (parts : List StateModel)

namespace StateModel

def totalWeight : List WeightedModel → UInt64
  | [] => 0
  | entry :: rest => entry.weight.toUInt64 + totalWeight rest

/-- The choice among some models, if any of them has a weight. -/
def ofWeighted? (entries : List WeightedModel) : Option StateModel :=
  match entries.filter (fun entry => 0 < entry.weight) with
  | [] => none
  | [only] => some (single only.model)
  | kept => some (weighted kept (totalWeight kept))

/-- The model that a draw picks: each takes as many draws as it weighs, one
model after the other. -/
def select? : List WeightedModel → UInt64 → Option (Shared BakedModel)
  | [], _ => none
  | entry :: rest, draw =>
      if draw < entry.weight.toUInt64 then
        some entry.model
      else
        select? rest (draw - entry.weight.toUInt64)

variable {Source : Type}

mutual

/-- The models that are drawn together, from left to right. `draw` takes a
number below a bound from a source of random numbers. -/
def collect (draw : UInt64 → Source → UInt64 × Source) :
    StateModel → Source → List (Shared BakedModel) × Source
  | .single model, source => ([model], source)
  | .weighted entries total, source =>
      let drawn := draw total source
      ((select? entries drawn.1).toList, drawn.2)
  | .composite parts, source => collectAll draw parts source

def collectAll (draw : UInt64 → Source → UInt64 × Source) :
    List StateModel → Source → List (Shared BakedModel) × Source
  | [], source => ([], source)
  | part :: rest, source =>
      let first := collect draw part source
      let others := collectAll draw rest first.2
      (first.1 ++ others.1, others.2)

end

def drawQuads (draw : UInt64 → Source → UInt64 × Source) (model : StateModel)
    (side : Option Direction) (source : Source) : List Quad × Source :=
  let drawn := model.collect draw source
  (drawn.1.flatMap (fun part => part.value.quads side), drawn.2)

mutual

/-- The model that stands for a whole state: the first one met. -/
def primary? : StateModel → Option (Shared BakedModel)
  | .single model => some model
  | .weighted entries _ => entries.head?.map WeightedModel.model
  | .composite parts => primaryOfParts? parts

def primaryOfParts? : List StateModel → Option (Shared BakedModel)
  | [] => none
  | part :: rest =>
      match part.primary? with
      | some model => some model
      | none => primaryOfParts? rest

end

def particle? (model : StateModel) : Option Sprite :=
  model.primary?.map (fun found => found.value.particle)

end StateModel

inductive ItemModel where
  | model (model : Shared BakedModel)
  | empty

end PackModels
