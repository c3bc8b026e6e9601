import PackModels.Json.Node

/-!
Contract: reading the text of a definition file.

The grammar is the strict one: no comments, no commas at the end of a list, no
control characters inside a text, no zeros in front of a number. `parse`
accepts a text exactly when it is one value with blanks around it. Every
reader takes the characters that are left and returns what is left after it;
the reader of values counts down a number that starts above twice the length
of the text, and of two steps in a row at least one consumes a character.
-/

namespace PackModels.Json

def isBlank (c : Char) : Bool :=
  c == ' ' || c == '\n' || c == '\t' || c == '\r'

def skipBlanks (text : List Char) : List Char :=
  text.dropWhile isBlank

def digit? (c : Char) : Option Nat :=
  if c.isDigit then some (c.toNat - '0'.toNat) else none

def hexDigit? (c : Char) : Option Nat :=
  if c.isDigit then
    some (c.toNat - '0'.toNat)
  else if 'a' ≤ c ∧ c ≤ 'f' then
    some (c.toNat - 'a'.toNat + 10)
  else if 'A' ≤ c ∧ c ≤ 'F' then
    some (c.toNat - 'A'.toNat + 10)
  else
    none

def takeDigits : List Char → List Nat × List Char
  | [] => ([], [])
  | c :: rest =>
      match digit? c with
      | some digit =>
          let following := takeDigits rest
          (digit :: following.1, following.2)
      | none => ([], c :: rest)

namespace Reader

/-- A part of a text: a character, or a code unit given by an escape. -/
inductive Part where
  | character (c : Char)
  | unit (code : Nat)

def unit? (a b c d : Char) : Option Nat := do
  let a ← hexDigit? a
  let b ← hexDigit? b
  let c ← hexDigit? c
  let d ← hexDigit? d
  return ((a * 16 + b) * 16 + c) * 16 + d

def escape? : Char → Option Char
  | '"' => some '"'
  | '\\' => some '\\'
  | '/' => some '/'
  | 'b' => some '\x08'
  | 'f' => some '\x0c'
  | 'n' => some '\n'
  | 'r' => some '\r'
  | 't' => some '\t'
  | _ => none

def parts? : List Char → Option (List Part × List Char)
  | [] => none
  | '"' :: rest => some ([], rest)
  | '\\' :: 'u' :: a :: b :: c :: d :: rest =>
      match unit? a b c d, parts? rest with
      | some code, some (parts, after) => some (.unit code :: parts, after)
      | _, _ => none
  | '\\' :: c :: rest =>
      match escape? c, parts? rest with
      | some character, some (parts, after) => some (.character character :: parts, after)
      | _, _ => none
  | c :: rest =>
      if c == '\\' || c.toNat < 0x20 then
        none
      else
        match parts? rest with
        | some (parts, after) => some (.character c :: parts, after)
        | none => none

/-- The characters that parts denote: two halves of a character must follow
each other, the higher one first. -/
def characters? : List Part → Option (List Char)
  | [] => some []
  | .character c :: rest => (characters? rest).map (c :: ·)
  | .unit high :: .unit low :: rest =>
      if 0xd800 ≤ high ∧ high ≤ 0xdbff then
        if 0xdc00 ≤ low ∧ low ≤ 0xdfff then
          (characters? rest).map
            (Char.ofNat ((high - 0xd800) * 0x400 + (low - 0xdc00) + 0x10000) :: ·)
        else
          none
      else if 0xdc00 ≤ high ∧ high ≤ 0xdfff then
        none
      else
        (characters? (.unit low :: rest)).map (Char.ofNat high :: ·)
  | .unit code :: rest =>
      if 0xd800 ≤ code ∧ code ≤ 0xdfff then
        none
      else
        (characters? rest).map (Char.ofNat code :: ·)

def text? (input : List Char) : Option (Option String × List Char) :=
  (parts? input).map (fun found => ((characters? found.1).map String.ofList, found.2))

/-- The fraction of a number: `none` for a point without digits. -/
def fraction? : List Char → Option (Option (List Nat) × List Char)
  | '.' :: rest =>
      match takeDigits rest with
      | ([], _) => none
      | (digits, after) => some (some digits, after)
  | input => some (none, input)

/-- The power of ten of a number: `none` for a mark without digits. -/
def exponent? (input : List Char) : Option (Option (Bool × List Nat) × List Char) :=
  let digits (down : Bool) (rest : List Char) :=
    match takeDigits rest with
    | ([], _) => none
    | (digits, after) => some (some (down, digits), after)
  match input with
  | c :: rest =>
      if c == 'e' || c == 'E' then
        match rest with
        | '+' :: after => digits false after
        | '-' :: after => digits true after
        | after => digits false after
      else
        some (none, input)
  | [] => some (none, [])

def magnitude? (negative : Bool) (input : List Char) : Option (Literal × List Char) := do
  let (whole, rest) := takeDigits input
  if whole.isEmpty || (whole.length > 1 && whole.head? == some 0) then
    none
  let (fraction, rest) ← fraction? rest
  let (exponent, rest) ← exponent? rest
  return (⟨negative, whole, fraction, exponent⟩, rest)

def number? : List Char → Option (Literal × List Char)
  | '-' :: rest => magnitude? true rest
  | input => magnitude? false input

mutual

def value? : Nat → List Char → Option (Node × List Char)
  | 0, _ => none
  | steps + 1, input =>
      match input with
      | [] => none
      | '"' :: rest => (text? rest).map (fun found => (.text found.1, found.2))
      | '[' :: rest =>
          match skipBlanks rest with
          | ']' :: after => some (.list [], after)
          | first => (items? steps first).map (fun found => (.list found.1, found.2))
      | '\x7b' :: rest =>
          match skipBlanks rest with
          | '\x7d' :: after => some (.members [], after)
          | first => (members? steps first).map (fun found => (.members found.1, found.2))
      | 'n' :: 'u' :: 'l' :: 'l' :: rest => some (.null, rest)
      | 't' :: 'r' :: 'u' :: 'e' :: rest => some (.boolean true, rest)
      | 'f' :: 'a' :: 'l' :: 's' :: 'e' :: rest => some (.boolean false, rest)
      | other => (number? other).map (fun found => (.number found.1, found.2))

/-- The items of a list from the first one on, through the closing bracket. -/
def items? : Nat → List Char → Option (List Node × List Char)
  | 0, _ => none
  | steps + 1, input =>
      match value? steps input with
      | none => none
      | some (item, rest) =>
          match skipBlanks rest with
          | ']' :: after => some ([item], after)
          | ',' :: next =>
              (items? steps (skipBlanks next)).map
                (fun found => (item :: found.1, found.2))
          | _ => none

/-- The members of a record from the first key on, through the closing brace. -/
def members? : Nat → List Char → Option (List (Option String × Node) × List Char)
  | 0, _ => none
  | steps + 1, input =>
      match input with
      | '"' :: rest =>
          match text? rest with
          | none => none
          | some (key, afterKey) =>
              match skipBlanks afterKey with
              | ':' :: next =>
                  match value? steps (skipBlanks next) with
                  | none => none
                  | some (value, afterValue) =>
                      match skipBlanks afterValue with
                      | '\x7d' :: after => some ([(key, value)], after)
                      | ',' :: next =>
                          (members? steps (skipBlanks next)).map
                            (fun found => ((key, value) :: found.1, found.2))
                      | _ => none
              | _ => none
      | _ => none

end

end Reader

/-- The syntax tree of a text, if it is one value with blanks around it. -/
def parse (text : String) : Option Node :=
  let input := text.toList
  match Reader.value? (2 * input.length + 2) (skipBlanks input) with
  | some (node, rest) => if (skipBlanks rest).isEmpty then some node else none
  | none => none

end PackModels.Json
