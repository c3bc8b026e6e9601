import PackModels.Binding.Binding
import PackModels.Binding.Condition

/-!
Contract: the file that binds the states of a block.

A state file has variants, each under a key that lists the properties it asks
for, and parts, each with a condition. A state takes the first variant in key
order that asks for nothing else than what the state has; a state without one
takes all parts whose condition holds, if the file has parts at all. Variants
and parts that ask for a property the block does not have are left out, with a
warning for each.
-/

namespace PackModels

structure StateVariant where
  key : String
  /-- The properties that the key asks for, with their values. -/
  demands : List (String × String)
  binding : Binding
deriving Inhabited

structure StatePart where
  condition : Condition
  binding : Binding
deriving Inhabited

/-- The file that binds the states of a block. -/
structure StateFile where
  variants : List StateVariant
  parts : List StatePart
deriving Inhabited

namespace StateFile

/-- A variant as it is written in a file. -/
structure RawVariant where
  model : ResourceId
  x : Int
  y : Int
  uvLock : Bool
  weight : UInt32
deriving DecidableEq, Repr

/-- Either one variant or a list of them. -/
inductive RawBinding where
  | one (variant : RawVariant)
  | many (variants : List RawVariant)
deriving DecidableEq, Repr

structure RawPart where
  condition : Option Json.Value
  binding : RawBinding

def decodeVariant : Json.Decoder RawVariant :=
  fun depth node =>
    match Json.Decoder.fields ["model", "x", "y", "uvlock", "weight"] depth node with
    | some (inner, [model, x, y, uvLock, weight]) => do
        let model ←
          Json.Decoder.required (Json.Decoder.textAs ResourceId.parse) inner model
        let x ← Json.Decoder.withDefault 0 Json.Decoder.integer32 inner x
        let y ← Json.Decoder.withDefault 0 Json.Decoder.integer32 inner y
        let uvLock ← Json.Decoder.withDefault false Json.Decoder.boolean inner uvLock
        let weight ← Json.Decoder.withDefault 1 Json.Decoder.natural32 inner weight
        return ⟨model, x, y, uvLock, weight⟩
    | _ => none

/-- Reads one variant or a list of them. Both readings need all of what is
written to have a value, and one variant is tried first. -/
def decodeBinding : Json.Decoder RawBinding :=
  fun depth node =>
    if (node.value? depth).isNone then
      none
    else
      match decodeVariant depth node with
      | some variant => some (.one variant)
      | none => (Json.Decoder.list decodeVariant depth node).map .many

/-- Reads any value but `null`. -/
def decodeCondition : Json.Decoder (Option Json.Value)
  | _, .null => some none
  | depth, node => (node.value? depth).map some

def decodePart : Json.Decoder RawPart :=
  fun depth node =>
    match Json.Decoder.fields ["when", "apply"] depth node with
    | some (inner, [condition, binding]) => do
        let condition ← Json.Decoder.withDefault none decodeCondition inner condition
        let binding ← Json.Decoder.required decodeBinding inner binding
        return ⟨condition, binding⟩
    | _ => none

structure RawFile where
  variants : Option (List (String × RawBinding))
  parts : Option (List RawPart)

def decodeFile : Json.Decoder RawFile :=
  fun depth node =>
    match Json.Decoder.fields ["variants", "multipart"] depth node with
    | some (inner, [variants, parts]) => do
        let variants ← Json.Decoder.withDefault none
          (Json.Decoder.optional (Json.Decoder.entries some decodeBinding)) inner variants
        let parts ← Json.Decoder.withDefault none
          (Json.Decoder.optional (Json.Decoder.list decodePart)) inner parts
        return ⟨variants, parts⟩
    | _ => none

def RawVariant.place (id : ResourceId) (raw : RawVariant) : Except DefinitionError Variant :=
  match QuarterTurns.ofDegrees? raw.x raw.y with
  | some turns => .ok ⟨raw.model, ⟨turns, raw.uvLock⟩⟩
  | none => .error (.rotation id raw.x raw.y)

/-- The placed models of written variants with their weights. -/
def placeAll (id : ResourceId) :
    List RawVariant → Except DefinitionError (List WeightedVariant)
  | [] => .ok []
  | raw :: rest =>
      match raw.place id with
      | .error error => .error error
      | .ok variant =>
          match placeAll id rest with
          | .error error => .error error
          | .ok entries => .ok (⟨raw.weight, variant⟩ :: entries)

/-- The binding of written variants. A list of one is that variant alone,
whatever its weight. -/
def RawBinding.bind (id : ResourceId) : RawBinding → Except DefinitionError Binding
  | .one raw => (raw.place id).map .single
  | .many [raw] => (raw.place id).map .single
  | .many raws => (placeAll id raws).map .weighted

def parseDemand? (text : String) : Option (String × String) :=
  (Text.cut? '=' text).filter (fun pair => !pair.1.isEmpty && !pair.2.isEmpty)

/-- The demands of a variant key. The empty key and the key `normal` demand
nothing. -/
def parseKey? (key : String) : Option (List (String × String)) :=
  if key = "" ∨ key = "normal" then
    some []
  else
    Json.Decoder.each parseDemand? (Text.split ',' key)

/-- The variants of a file in order; the first fault ends the reading. -/
def readVariants (id : ResourceId) :
    List (String × RawBinding) → Except DefinitionError (List StateVariant)
  | [] => .ok []
  | (key, raw) :: rest =>
      match parseKey? key with
      | none => .error (.condition id ("malformed variant key " ++ key))
      | some demands =>
          match raw.bind id with
          | .error error => .error error
          | .ok binding =>
              match readVariants id rest with
              | .error error => .error error
              | .ok variants => .ok (⟨key, demands, binding⟩ :: variants)

/-- The parts of a file in order; the first fault ends the reading. -/
def readParts (id : ResourceId) : List RawPart → Except DefinitionError (List StatePart)
  | [] => .ok []
  | raw :: rest =>
      match (match raw.condition with
        | some value => Condition.parse id value
        | none => .ok .always) with
      | .error error => .error error
      | .ok condition =>
          match raw.binding.bind id with
          | .error error => .error error
          | .ok binding =>
              match readParts id rest with
              | .error error => .error error
              | .ok parts => .ok (⟨condition, binding⟩ :: parts)

/-- The state file of what is written. Of equal keys the last one stays. -/
def ofRaw (id : ResourceId) (raw : RawFile) : Except DefinitionError StateFile :=
  if raw.variants.isNone && raw.parts.isNone then
    .error (.emptyStates id)
  else
    match readVariants id (Table.ofPairs (raw.variants.getD [])).toList with
    | .error error => .error error
    | .ok variants =>
        match readParts id (raw.parts.getD []) with
        | .error error => .error error
        | .ok parts => .ok ⟨variants, parts⟩

def parse (id : ResourceId) (text : String) : Except DefinitionError StateFile :=
  match Json.decode? decodeFile text with
  | some raw => ofRaw id raw
  | none => .error (.malformed id)

variable (file : StateFile)

def unknownDemand? (block : BlockDef) (variant : StateVariant) : Option String :=
  (variant.demands.find? (fun demand => (block.propertyIndex? demand.1).isNone)).map Prod.fst

def usableVariants (block : BlockDef) : List StateVariant :=
  file.variants.filter (fun variant => (unknownDemand? block variant).isNone)

def usableParts (block : BlockDef) : List StatePart :=
  file.parts.filter (fun part => (part.condition.unknownProperty? block).isNone)

/-- One complaint about each variant, and then about each part, that a block
cannot use. -/
def warnings (id : ResourceId) (block : BlockDef) : List Warning :=
  file.variants.filterMap
      (fun variant => (unknownDemand? block variant).map
        (fun property => .unknownVariantProperty property variant.key id))
    ++ file.parts.filterMap
        (fun part => (part.condition.unknownProperty? block).map
          (fun property => .unknownConditionProperty property id))

def meets (registry : Registry) (state : StateHandle) (variant : StateVariant) : Bool :=
  variant.demands.all (fun demand => registry.value? state demand.1 == some demand.2)

/-- The binding of a state, given the variants and parts that can be used. -/
def bindState? (registry : Registry) (variants : List StateVariant)
    (parts : List StatePart) (state : StateHandle) : Option Binding :=
  match variants.find? (meets registry state) with
  | some variant => some variant.binding
  | none =>
      if parts.isEmpty then
        none
      else
        some (.composite
          ((parts.filter (fun part => part.condition.test registry state)).map
            StatePart.binding))

/-- The bound states of a block with their bindings, in the order given. -/
def bind (registry : Registry) (block : BlockDef) (states : List StateHandle) :
    List (StateHandle × Binding) :=
  let variants := file.usableVariants block
  let parts := file.usableParts block
  states.filterMap
    (fun state => (bindState? registry variants parts state).map
      (fun binding => (state, binding)))

/-- Every property and value that the file mentions: names in order, and the
values of each in order and once. -/
def mentioned : Table String (Roster String) :=
  let mentions :=
    file.variants.flatMap (fun variant => variant.demands.map (fun d => (d.1, [d.2])))
      ++ file.parts.flatMap (fun part => part.condition.mentions)
  mentions.foldl
    (fun table mention =>
      table.insert mention.1
        (mention.2.foldl (fun values value => values.insert value)
          (table[mention.1]?.getD ∅)))
    ∅

/-- The block that has exactly the properties and values that the file
mentions. -/
def inferBlock (id : ResourceId) : BlockDef :=
  file.mentioned.toList.foldl
    (fun block entry => block.withProperty entry.1 entry.2.toList)
    (BlockDef.new id)

end StateFile

/-- The bindings of the states of a pack. -/
abbrev BindingTable : Type :=
  Table StateId Binding

namespace BindingTable

def insertStates (registry : Registry) (table : BindingTable)
    (bound : List (StateHandle × Binding)) : BindingTable :=
  bound.foldl
    (fun table entry =>
      match registry.stateId? entry.1 with
      | some id => table.insert id entry.2
      | none => table)
    table

/-- Adds the bindings of one state file, or complains about it. A file of a
block that is not registered is not read. -/
def addFile (registry : Registry) (loaded : BindingTable × List Warning)
    (entry : ResourceId × String) : BindingTable × List Warning :=
  match registry.blockOfId? entry.1 with
  | none => loaded
  | some handle =>
      match registry.blocks[handle]? with
      | none => loaded
      | some block =>
          match StateFile.parse entry.1 entry.2 with
          | .error error => (loaded.1, loaded.2 ++ [.statesUnreadable error])
          | .ok file =>
              (insertStates registry loaded.1
                  (file.bind registry block.definition (registry.statesOf handle)),
                loaded.2 ++ file.warnings entry.1 block.definition)

/-- The bindings of some state files, read in id order, with their warnings. -/
def load (registry : Registry) (files : Table ResourceId String) :
    BindingTable × List Warning :=
  files.toList.foldl (addFile registry) (∅, [])

end BindingTable

end PackModels
