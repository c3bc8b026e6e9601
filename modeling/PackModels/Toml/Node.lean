/-!
Contract: the tree of a settings file.

A table remembers how it came to be, because that decides who may add to it: a
table with its own header is closed to dotted keys, a table that a header only
passed through may still get its own header, and a table made by a dotted key
may grow by further dotted keys but never gets a header.
-/

namespace PackModels.Toml

inductive Origin where
  /-- By its own header, or written out in braces. -/
  | declared
  /-- By the header of a table inside it. -/
  | implied
  /-- By a dotted key. -/
  | dotted
deriving DecidableEq, Repr, Inhabited

inductive Node where
  | text (characters : String)
  | integer (value : Int)
  | boolean (value : Bool)
  /-- A number with a fraction or a power, or a date. No setting takes one. -/
  | unread
  | list (items : List Node)
  | inlineTable (origin : Origin) (entries : List (String × Node))
  | table (origin : Origin) (entries : List (String × Node))
  | tables (elements : List (List (String × Node)))
deriving Inhabited

/-- How deep lists and tables in braces may nest, and how many parts a key may
have. -/
def nestingLimit : Nat :=
  79

abbrev Entries : Type :=
  List (String × Node)

namespace Entries

def value? (key : String) : Entries → Option Node
  | [] => none
  | entry :: rest => if entry.1 == key then some entry.2 else value? key rest

/-- Replaces the value of a key that is there, or adds it at the end. -/
def set (key : String) (value : Node) : Entries → Entries
  | [] => [(key, value)]
  | entry :: rest =>
      if entry.1 == key then (key, value) :: rest else entry :: set key value rest

end Entries

end PackModels.Toml
