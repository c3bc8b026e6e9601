import PackModels.Json.Reader
import PackModels.Table
import PackModels.Text

/-!
Contract: the values of definition files.

A `Value` is what a syntax tree denotes when all of it is read: every number
and every text has its value, and the members of a record are in increasing
key order with one value for a key, the last one written. A tree denotes no
value when a part of it has none or when it nests deeper than a reader allows.
-/

namespace PackModels.Json

/-- The value of a syntax tree. The members of a record are sorted by key. -/
inductive Value where
  | null
  | boolean (value : Bool)
  | number (value : Number)
  | text (characters : String)
  | list (items : List Value)
  | members (members : List (String × Value))
deriving Inhabited

def depthLimit : Nat :=
  127

/-- Members in increasing key order; the last of equal keys stays. -/
def sortMembers (members : List (String × Value)) : List (String × Value) :=
  (Table.ofPairs members).toList

mutual

/-- The value of a syntax tree that may nest `depth` deep. -/
def Node.value? (depth : Nat) : Node → Option Value
  | .null => some .null
  | .boolean value => some (.boolean value)
  | .number literal => (Number.ofLiteral? literal).map .number
  | .text characters => characters.map .text
  | .list items =>
      if depth = 0 then none else (itemValues? (depth - 1) items).map .list
  | .members members =>
      if depth = 0 then
        none
      else
        (memberValues? (depth - 1) members).map (fun found => .members (sortMembers found))

def itemValues? (depth : Nat) : List Node → Option (List Value)
  | [] => some []
  | item :: rest =>
      match item.value? depth, itemValues? depth rest with
      | some value, some values => some (value :: values)
      | _, _ => none

/-- The values of the members of a record, in the order in which they stand. -/
def memberValues? (depth : Nat) :
    List (Option String × Node) → Option (List (String × Value))
  | [] => some []
  | (key, node) :: rest =>
      match key, node.value? depth, memberValues? depth rest with
      | some key, some value, some values => some ((key, value) :: values)
      | _, _, _ => none

end

namespace Value

def hexDigit (value : Nat) : Char :=
  Nat.digitChar value

def quoteCharacter (c : Char) : String :=
  match c with
  | '"' => "\\\""
  | '\\' => "\\\\"
  | '\x08' => "\\b"
  | '\x0c' => "\\f"
  | '\n' => "\\n"
  | '\r' => "\\r"
  | '\t' => "\\t"
  | other =>
      if other.toNat < 0x20 then
        "\\u00" ++ String.ofList [hexDigit (other.toNat / 16), hexDigit (other.toNat % 16)]
      else
        String.ofList [other]

def quote (text : String) : String :=
  "\"" ++ String.join (text.toList.map quoteCharacter) ++ "\""

mutual

def compact : Value → String
  | .null => "null"
  | .boolean value => if value then "true" else "false"
  | .number value => value.text
  | .text characters => quote characters
  | .list items => "[" ++ Text.join "," (compactItems items) ++ "]"
  | .members entries => "\x7b" ++ Text.join "," (compactMembers entries) ++ "\x7d"

def compactItems : List Value → List String
  | [] => []
  | item :: rest => item.compact :: compactItems rest

def compactMembers : List (String × Value) → List String
  | [] => []
  | (key, value) :: rest => (quote key ++ ":" ++ value.compact) :: compactMembers rest

end

end Value

end PackModels.Json
