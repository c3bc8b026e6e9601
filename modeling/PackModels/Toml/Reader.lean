import PackModels.Toml.Scalar

/-!
Contract: reading a settings file.

A file is a sequence of lines: a key with its value, the header of a table, or
the header of one of several tables of a name. `define` and the functions
after it say what a line adds to the tree and when it may not be added; the
readers of values count down a number that starts above twice the length of
the text, and another one, the levels that a value may still nest.
-/

namespace PackModels.Toml

/-- Adds a value under a dotted key to the entries of a table. The tables on
the way are made by `make`; one that is there takes the value only when a
dotted key made it, or when it is only passed through on the way to one. -/
def define (make : Origin → Entries → Node) (value : Node) :
    List String → Entries → Option Entries
  | [], _ => none
  | [key], entries =>
      match Entries.value? key entries with
      | none => some (entries ++ [(key, value)])
      | some _ => none
  | key :: rest, entries =>
      match Entries.value? key entries with
      | none =>
          (define make value rest []).map
            (fun inner => entries ++ [(key, make .dotted inner)])
      | some (.table .dotted inner) =>
          (define make value rest inner).map
            (fun grown => Entries.set key (make .dotted grown) entries)
      | some (.inlineTable .dotted inner) =>
          (define make value rest inner).map
            (fun grown => Entries.set key (make .dotted grown) entries)
      | some (.table .implied inner) =>
          if rest.length < 2 then
            none
          else
            (define make value rest inner).map
              (fun grown => Entries.set key (.table .implied grown) entries)
      | some (.tables elements) =>
          match elements.getLast? with
          | none => none
          | some last =>
              if rest.length < 2 then
                none
              else
                (define make value rest last).map
                  (fun grown =>
                    Entries.set key (.tables (elements.dropLast ++ [grown])) entries)
      | some _ => none

/-- Changes the entries of the table at the end of a path of header keys. A
key that is not there makes a table that is only passed through, and the last
of several tables of a name is the one meant. -/
def atPath (change : Entries → Option Entries) : List String → Entries → Option Entries
  | [], entries => change entries
  | key :: rest, entries =>
      match Entries.value? key entries with
      | none =>
          (atPath change rest []).map
            (fun inner => entries ++ [(key, .table .implied inner)])
      | some (.table origin inner) =>
          (atPath change rest inner).map
            (fun changed => Entries.set key (.table origin changed) entries)
      | some (.tables elements) =>
          match elements.getLast? with
          | none => none
          | some last =>
              (atPath change rest last).map
                (fun changed =>
                  Entries.set key (.tables (elements.dropLast ++ [changed])) entries)
      | some _ => none

def declareTable (key : String) (entries : Entries) : Option Entries :=
  match Entries.value? key entries with
  | none => some (entries ++ [(key, .table .declared [])])
  | some (.table .implied inner) => some (Entries.set key (.table .declared inner) entries)
  | some _ => none

def declareElement (key : String) (entries : Entries) : Option Entries :=
  match Entries.value? key entries with
  | none => some (entries ++ [(key, .tables [[]])])
  | some (.tables elements) => some (Entries.set key (.tables (elements ++ [[]])) entries)
  | some _ => none

def declare (change : String → Entries → Option Entries) (path : List String)
    (root : Entries) : Option Entries :=
  match path.getLast? with
  | none => none
  | some key => atPath (change key) path.dropLast root

/-- The characters after blanks, line ends and comments. Inside a comment only a
line end or the end of the text is waited for. -/
def skipLines (inComment : Bool) : List Char → Option (List Char)
  | [] => some []
  | '\n' :: rest => skipLines false rest
  | '\x0d' :: '\n' :: rest => skipLines false rest
  | c :: rest =>
      if inComment then
        if isControl c then none else skipLines true rest
      else if isBlank c then
        skipLines false rest
      else if c = '#' then
        skipLines true rest
      else
        some (c :: rest)

mutual

def value? : Nat → Nat → List Char → Found Node
  | 0, _, _ => none
  | steps + 1, room, input =>
      match input with
      | '"' :: _ => (text? input).map (fun read => (.text read.1, read.2))
      | '\'' :: _ => (text? input).map (fun read => (.text read.1, read.2))
      | '[' :: rest =>
          if room = 0 then
            none
          else
            (items? steps (room - 1) rest).map (fun read => (.list read.1, read.2))
      | '\x7b' :: rest =>
          if room = 0 then
            none
          else
            match skipBlanks rest with
            | '\x7d' :: after => some (.inlineTable .declared [], after)
            | _ =>
                (pairs? steps (room - 1) [] rest).map
                  (fun read => (.inlineTable .declared read.1, read.2))
      | _ => plain? input

def items? : Nat → Nat → List Char → Found (List Node)
  | 0, _, _ => none
  | steps + 1, room, input =>
      match skipLines false input with
      | none => none
      | some (']' :: after) => some ([], after)
      | some start =>
          match value? steps room start with
          | none => none
          | some (item, rest) =>
              match skipLines false rest with
              | some (']' :: after) => some ([item], after)
              | some (',' :: next) =>
                  (items? steps room next).map (fun read => (item :: read.1, read.2))
              | _ => none

/-- The pairs of a table in braces after some that are read, through the
closing brace. -/
def pairs? : Nat → Nat → Entries → List Char → Found Entries
  | 0, _, _, _ => none
  | steps + 1, room, entries, input =>
      match key? (skipBlanks input) with
      | some (path, '=' :: rest) =>
          match value? steps room (skipBlanks rest) with
          | none => none
          | some (value, afterValue) =>
              match define .inlineTable value path entries with
              | none => none
              | some grown =>
                  match skipBlanks afterValue with
                  | '\x7d' :: after => some (grown, after)
                  | ',' :: next => pairs? steps room grown next
                  | _ => none
      | _ => none

end

/-- The characters after the rest of a line, which holds at most a comment. -/
def finishLine? (input : List Char) : Option (List Char) :=
  match skipComment? (skipBlanks input) with
  | none => none
  | some [] => some []
  | some after => lineEnd? after

/-- The header of a table after its opening brackets, through the closing
ones, and what it adds. -/
def header? (closing : List Char) (input : List Char) : Found (List String) :=
  match key? (skipBlanks input) with
  | none => none
  | some (path, rest) =>
      if rest.take closing.length = closing then
        some (path, rest.drop closing.length)
      else
        none

/-- Reads the lines that are left into the tree read so far. `budget` is what
the reader of a value counts down, and `current` the path of the table that the
lines belong to. -/
def lines? (budget : Nat) : Nat → List String → Entries → List Char → Option Entries
  | 0, _, _, _ => none
  | steps + 1, current, root, input =>
      match skipBlanks input with
      | [] => some root
      | '[' :: '[' :: rest =>
          match header? [']', ']'] rest with
          | none => none
          | some (path, after) =>
              match declare declareElement path root, finishLine? after with
              | some grown, some next => lines? budget steps path grown next
              | _, _ => none
      | '[' :: rest =>
          match header? [']'] rest with
          | none => none
          | some (path, after) =>
              match declare declareTable path root, finishLine? after with
              | some grown, some next => lines? budget steps path grown next
              | _, _ => none
      | start =>
          match finishLine? start with
          | some next => lines? budget steps current root next
          | none =>
              match key? start with
              | some (path, '=' :: rest) =>
                  match value? budget nestingLimit (skipBlanks rest) with
                  | none => none
                  | some (value, afterValue) =>
                      match atPath (define .table value path) current root,
                          finishLine? afterValue with
                      | some grown, some next => lines? budget steps current grown next
                      | _, _ => none
              | _ => none

/-- The entries of a settings file. A mark of byte order may stand in front. -/
def parse (text : String) : Option Entries :=
  let input :=
    match text.toList with
    | '\ufeff' :: rest => rest
    | other => other
  lines? (2 * input.length + 2) (input.length + 2) [] [] input

end PackModels.Toml
