import PackModels.Json.Decode
import PackModels.Warning

/-!
Contract: which model an item is shown with.

An item file asks for a model by id or for nothing at all. Any other kind of
item model is refused, and so is a request for a model that names none.
-/

namespace PackModels

inductive ItemBinding where
  | model (model : ResourceId)
  | empty
deriving DecidableEq, Repr, Inhabited

namespace ItemBinding

def models : ItemBinding → List ResourceId
  | model id => [id]
  | empty => []

def decodeModel : Json.Decoder (ResourceId × Option ResourceId) :=
  fun depth node =>
    match Json.Decoder.fields ["type", "model"] depth node with
    | some (inner, [kindField, modelField]) => do
        let kind ← Json.Decoder.required (Json.Decoder.textAs ResourceId.parse) inner kindField
        let shown ← Json.Decoder.withDefault none
          (Json.Decoder.optional (Json.Decoder.textAs ResourceId.parse)) inner modelField
        return (kind, shown)
    | _ => none

def decodeFile : Json.Decoder (ResourceId × Option ResourceId) :=
  fun depth node =>
    match Json.Decoder.fields ["model"] depth node with
    | some (inner, [modelField]) => Json.Decoder.required decodeModel inner modelField
    | _ => none

def ofKind (id kind : ResourceId) (shown : Option ResourceId) :
    Except DefinitionError ItemBinding :=
  if kind = ⟨ResourceId.defaultSpace, "model"⟩ then
    match shown with
    | some found => .ok (model found)
    | none => .error (.itemModelMissing id)
  else if kind = ⟨ResourceId.defaultSpace, "empty"⟩ then
    .ok empty
  else
    .error (.itemKind id kind)

def parse (id : ResourceId) (text : String) : Except DefinitionError ItemBinding :=
  match Json.decode? decodeFile text with
  | some (kind, shown) => ofKind id kind shown
  | none => .error (.malformed id)

/-- Adds the binding of one item file, or complains about it. -/
def addFile (loaded : Table ResourceId ItemBinding × List Warning)
    (entry : ResourceId × String) : Table ResourceId ItemBinding × List Warning :=
  match parse entry.1 entry.2 with
  | .ok binding => (loaded.1.insert entry.1 binding, loaded.2)
  | .error error => (loaded.1, loaded.2 ++ [.itemUnreadable error])

def load (files : Table ResourceId String) :
    Table ResourceId ItemBinding × List Warning :=
  files.toList.foldl addFile (∅, [])

end ItemBinding

end PackModels
