/-!
Contract: cutting text at separators.

`cutAt` divides a text at the first occurrence of a separator, and `pieces`
divides it at every occurrence; a text with no separator is one piece, and two
neighbouring separators enclose an empty piece. Ids, variant keys and property
alternatives are all read with these two.
-/

namespace PackModels.Text

/-- The characters before and after the first `separator`, if there is one. -/
def cutAt (separator : Char) : List Char → Option (List Char × List Char)
  | [] => none
  | head :: tail =>
      if head = separator then
        some ([], tail)
      else
        (cutAt separator tail).map (fun cut => (head :: cut.1, cut.2))

/-- The stretches of characters between the separators, in order. -/
def pieces (separator : Char) : List Char → List (List Char)
  | [] => [[]]
  | head :: tail =>
      if head = separator then
        [] :: pieces separator tail
      else
        match pieces separator tail with
        | [] => [[head]]
        | first :: rest => (head :: first) :: rest

def split (separator : Char) (text : String) : List String :=
  (pieces separator text.toList).map String.ofList

/-- The texts before and after the first `separator`, if there is one. -/
def cut? (separator : Char) (text : String) : Option (String × String) :=
  (cutAt separator text.toList).map
    (fun cut => (String.ofList cut.1, String.ofList cut.2))

def dropLeading? (leading : Char) (text : String) : Option String :=
  match text.toList with
  | [] => none
  | head :: tail => if head = leading then some (String.ofList tail) else none

/-- The texts in order with `separator` between neighbours. -/
def join (separator : String) : List String → String
  | [] => ""
  | [only] => only
  | first :: rest => first ++ separator ++ join separator rest

end PackModels.Text
