import PackModels.Block.Registry
import PackModels.Json.Decode
import PackModels.Warning

/-!
Contract: which states a part of a block is drawn for.

A condition is an object of a definition file: a list of conditions under the
only key `OR` or `AND`, or any number of properties, all of which must hold.
The text of a property lists alternatives between bars, and an exclamation
mark in front of it excludes them instead. A state of a block without the
property satisfies neither form.
-/

namespace PackModels

inductive Condition where
  | always
  | any (terms : List Condition)
  | every (terms : List Condition)
  | property (name : String) (values : List String) (negate : Bool)
deriving Inhabited, Repr

namespace Condition

/-- The text of a property's value, if it can be one. -/
def valueText? : Json.Value → Option String
  | .text characters => some characters
  | .boolean value => some (if value then "true" else "false")
  | .number value => some value.text
  | _ => none

def ofText (id : ResourceId) (name text : String) : Except DefinitionError Condition :=
  let negated := Text.dropLeading? '!' text
  let values := Text.split '|' (negated.getD text)
  if values.any String.isEmpty then
    .error (.condition id ("property " ++ name ++ " has an empty value in " ++ text))
  else
    .ok (.property name values negated.isSome)

def ofProperty (id : ResourceId) (name : String) (value : Json.Value) :
    Except DefinitionError Condition :=
  match valueText? value with
  | some text => ofText id name text
  | none => .error (.condition id ("property " ++ name ++ " has value " ++ value.compact))

/-- The conditions of properties in order; the first fault ends the reading. -/
def ofProperties (id : ResourceId) :
    List (String × Json.Value) → Except DefinitionError (List Condition)
  | [] => .ok []
  | (name, value) :: rest =>
      match ofProperty id name value with
      | .error error => .error error
      | .ok term =>
          match ofProperties id rest with
          | .error error => .error error
          | .ok terms => .ok (term :: terms)

/-- One condition alone stands for itself. -/
def conjunction : List Condition → Condition
  | [term] => term
  | terms => every terms

mutual

def parse (id : ResourceId) : Json.Value → Except DefinitionError Condition
  | .members [(key, value)] =>
      if key = "OR" ∨ key = "AND" then
        match value with
        | .list items =>
            match parseAll id items with
            | .error error => .error error
            | .ok terms => .ok (if key = "OR" then any terms else every terms)
        | _ => .error (.condition id (key ++ " expects a list"))
      else
        ofProperty id key value
  | .members members =>
      match ofProperties id members with
      | .error error => .error error
      | .ok terms => .ok (conjunction terms)
  | value => .error (.condition id ("expected an object, found " ++ value.compact))

/-- Reads conditions in order; the first fault ends the reading. -/
def parseAll (id : ResourceId) : List Json.Value → Except DefinitionError (List Condition)
  | [] => .ok []
  | item :: rest =>
      match parse id item with
      | .error error => .error error
      | .ok term =>
          match parseAll id rest with
          | .error error => .error error
          | .ok terms => .ok (term :: terms)

end

mutual

def test (registry : Registry) (state : StateHandle) : Condition → Bool
  | .always => true
  | .any terms => testAny registry state terms
  | .every terms => testEvery registry state terms
  | .property name values negate =>
      match registry.value? state name with
      | some actual => values.contains actual != negate
      | none => false

def testAny (registry : Registry) (state : StateHandle) : List Condition → Bool
  | [] => false
  | term :: rest => term.test registry state || testAny registry state rest

def testEvery (registry : Registry) (state : StateHandle) : List Condition → Bool
  | [] => true
  | term :: rest => term.test registry state && testEvery registry state rest

end

mutual

/-- The properties that a condition mentions, with their values, in order. -/
def mentions : Condition → List (String × List String)
  | .always => []
  | .any terms => mentionsOf terms
  | .every terms => mentionsOf terms
  | .property name values _ => [(name, values)]

/-- The properties that some conditions mention, with their values, in order. -/
def mentionsOf : List Condition → List (String × List String)
  | [] => []
  | term :: rest => term.mentions ++ mentionsOf rest

end

/-- The first property of a condition that a block does not have. -/
def unknownProperty? (condition : Condition) (block : BlockDef) : Option String :=
  (condition.mentions.find? (fun mention => (block.propertyIndex? mention.1).isNone)).map
    Prod.fst

end Condition

end PackModels
