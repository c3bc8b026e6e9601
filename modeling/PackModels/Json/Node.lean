import PackModels.Json.Number

/-!
Contract: the syntax tree of a definition file.

A `Node` keeps what is written and judges nothing that only a reader of the
value needs to know: numbers stay literals, members keep their order and their
repetitions, and a text whose escapes denote no characters is `none`. So a
reader that skips a value is not disturbed by what it holds.
-/

namespace PackModels.Json

inductive Node where
  | null
  | boolean (value : Bool)
  | number (literal : Literal)
  /-- A text; `none` when its escapes are lone halves of a character. -/
  | text (characters : Option String)
  | list (items : List Node)
  | members (members : List (Option String × Node))
deriving Inhabited

end PackModels.Json
