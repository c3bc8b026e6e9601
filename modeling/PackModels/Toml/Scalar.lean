import PackModels.Toml.Node

/-!
Contract: the keys, texts, numbers and dates of a settings file.

Every reader takes the characters that are left and returns what it has read
and what is left after it, or `none` where the text has no meaning. Dates and
numbers with a fraction are only checked for their form.
-/

namespace PackModels.Toml

/-- What a reader returns: what it has read and the characters after it. -/
abbrev Found (α : Type) : Type :=
  Option (α × List Char)

def isBlank (c : Char) : Bool :=
  c == ' ' || c == '\t'

def skipBlanks (input : List Char) : List Char :=
  input.dropWhile isBlank

/-- Control characters, none of which may stand in a text or a comment. -/
def isControl (c : Char) : Bool :=
  (c.toNat < 0x20 && c != '\t') || c.toNat == 0x7f

/-- The characters after one line end, if there is one. -/
def lineEnd? : List Char → Option (List Char)
  | '\n' :: rest => some rest
  | '\x0d' :: '\n' :: rest => some rest
  | _ => none

/-- The characters after a comment, if there is one. -/
def skipComment? : List Char → Option (List Char)
  | '#' :: rest =>
      let after := rest.dropWhile (fun c => !isControl c)
      match after with
      | [] => some []
      | _ => (lineEnd? after).map (fun _ => after)
  | input => some input

def digitIn? (base : Nat) (c : Char) : Option Nat :=
  let value :=
    if c.isDigit then some (c.toNat - '0'.toNat)
    else if 'a' ≤ c ∧ c ≤ 'f' then some (c.toNat - 'a'.toNat + 10)
    else if 'A' ≤ c ∧ c ≤ 'F' then some (c.toNat - 'A'.toNat + 10)
    else none
  value.filter (· < base)

/-- Digits with single underscores between them, after a first digit. -/
def moreDigits (base : Nat) : List Char → List Nat × List Char
  | [] => ([], [])
  | '_' :: c :: rest =>
      match digitIn? base c with
      | some digit =>
          let following := moreDigits base rest
          (digit :: following.1, following.2)
      | none => ([], '_' :: c :: rest)
  | c :: rest =>
      match digitIn? base c with
      | some digit =>
          let following := moreDigits base rest
          (digit :: following.1, following.2)
      | none => ([], c :: rest)

/-- At least one digit, with single underscores between digits. -/
def digits? (base : Nat) : List Char → Found (List Nat)
  | [] => none
  | c :: rest =>
      match digitIn? base c with
      | some digit =>
          let following := moreDigits base rest
          some (digit :: following.1, following.2)
      | none => none

def ofDigits (base : Nat) (digits : List Nat) : Nat :=
  digits.foldl (fun value digit => value * base + digit) 0

def greatestInteger : Nat :=
  9223372036854775807

def basedInteger? (base : Nat) (input : List Char) : Found Node :=
  match digits? base input with
  | some (digits, rest) =>
      let value := ofDigits base digits
      if value ≤ greatestInteger then some (.integer value, rest) else none
  | none => none

def fraction? : List Char → Found (List Nat)
  | '.' :: rest => digits? 10 rest
  | input => some ([], input)

def power? : List Char → Found Int
  | c :: rest =>
      if c == 'e' || c == 'E' then
        match rest with
        | '+' :: after => (digits? 10 after).map (fun found => ((ofDigits 10 found.1 : Int), found.2))
        | '-' :: after => (digits? 10 after).map (fun found => (-(ofDigits 10 found.1 : Int), found.2))
        | after => (digits? 10 after).map (fun found => ((ofDigits 10 found.1 : Int), found.2))
      else
        some (0, c :: rest)
  | [] => some (0, [])

/-- Whether a decimal is so great that it rounds to no binary64 number. -/
def beyondBinary64 (digits : List Nat) (power : Int) : Bool :=
  let significand := ofDigits 10 digits
  let bound := Nat.pow 2 1024 - Nat.pow 2 970
  if significand = 0 then
    false
  else if 400 < power then
    true
  else if 0 ≤ power then
    decide (bound ≤ significand * Nat.pow 10 power.toNat)
  else if (digits.length : Int) + power < 300 then
    false
  else
    decide (bound * Nat.pow 10 power.natAbs ≤ significand)

/-- A number in decimal digits after its sign: whole, or checked for its form
when it has a fraction or a power. -/
def decimal? (negative : Bool) (input : List Char) : Found Node :=
  match digits? 10 input with
  | none => none
  | some (whole, rest) =>
      if whole.length > 1 && whole.head? == some 0 then
        none
      else
        match rest with
        | c :: _ =>
            if c == '.' || c == 'e' || c == 'E' then
              match fraction? rest with
              | none => none
              | some (places, afterPlaces) =>
                  match power? afterPlaces with
                  | none => none
                  | some (power, after) =>
                      if !negative && beyondBinary64 (whole ++ places) (power - places.length) then
                        none
                      else
                        some (.unread, after)
            else
              whole? whole rest
        | [] => whole? whole rest
where
  /-- A whole number that fits 64 bits with its sign. -/
  whole? (digits : List Nat) (rest : List Char) : Found Node :=
    let value := ofDigits 10 digits
    if negative then
      if value ≤ greatestInteger + 1 then some (.integer (-value), rest) else none
    else
      if value ≤ greatestInteger then some (.integer value, rest) else none

def daysIn (year month : Nat) : Nat :=
  if month = 2 then
    if year % 4 = 0 ∧ (year % 100 ≠ 0 ∨ year % 400 = 0) then 29 else 28
  else if month = 4 ∨ month = 6 ∨ month = 9 ∨ month = 11 then
    30
  else
    31

def fixed? : Nat → List Char → Found Nat
  | 0, input => some (0, input)
  | count + 1, c :: rest =>
      match digitIn? 10 c, fixed? count rest with
      | some digit, some (value, after) => some (digit * Nat.pow 10 count + value, after)
      | _, _ => none
  | _ + 1, [] => none

def expect? (expected : Char) : List Char → Option (List Char)
  | [] => none
  | c :: rest => if c = expected then some rest else none

def date? (input : List Char) : Option (List Char) := do
  let (year, rest) ← fixed? 4 input
  let rest ← expect? '-' rest
  let (month, rest) ← fixed? 2 rest
  let rest ← expect? '-' rest
  let (day, rest) ← fixed? 2 rest
  if 1 ≤ month ∧ month ≤ 12 ∧ 1 ≤ day ∧ day ≤ daysIn year month then some rest else none

def time? (input : List Char) : Option (List Char) := do
  let (hour, rest) ← fixed? 2 input
  let rest ← expect? ':' rest
  let (minute, rest) ← fixed? 2 rest
  let rest ← expect? ':' rest
  let (second, rest) ← fixed? 2 rest
  if 23 < hour ∨ 59 < minute ∨ 60 < second then
    none
  match rest with
  | '.' :: places =>
      let after := places.dropWhile Char.isDigit
      if after.length = places.length then none else some after
  | other => some other

/-- The distance from the time of reference, if one is given. -/
def offset? : List Char → Option (List Char)
  | 'Z' :: rest => some rest
  | 'z' :: rest => some rest
  | c :: rest =>
      if c == '+' || c == '-' then do
        let (hour, rest) ← fixed? 2 rest
        let rest ← expect? ':' rest
        let (minute, rest) ← fixed? 2 rest
        if 23 < hour ∨ 59 < minute then none else some rest
      else
        some (c :: rest)
  | [] => some []

def moment? (input : List Char) : Found Node :=
  match date? input with
  | some afterDate =>
      let timeStart : Option (List Char) :=
        match afterDate with
        | 'T' :: rest => some rest
        | 't' :: rest => some rest
        | ' ' :: d :: rest => if d.isDigit then some (d :: rest) else none
        | _ => none
      match timeStart with
      | none => some (.unread, afterDate)
      | some start => ((time? start).bind offset?).map (fun after => (.unread, after))
  | none => (time? input).map (fun after => (.unread, after))

def startsMoment : List Char → Bool
  | a :: b :: ':' :: _ => a.isDigit && b.isDigit
  | a :: b :: c :: d :: '-' :: _ => a.isDigit && b.isDigit && c.isDigit && d.isDigit
  | _ => false

/-- The character of a code point, unless it is half of a character. -/
def scalar? (code : Nat) : Option Char :=
  if code < 0xd800 ∨ (0xdfff < code ∧ code ≤ 0x10ffff) then some (Char.ofNat code) else none

def codePoint? (characters : List Char) : Option Char :=
  if characters.all (fun c => (digitIn? 16 c).isSome) then
    scalar? (ofDigits 16 (characters.filterMap (digitIn? 16)))
  else
    none

def escape? : Char → Option Char
  | 'b' => some '\x08'
  | 't' => some '\t'
  | 'n' => some '\n'
  | 'f' => some '\x0c'
  | 'r' => some '\x0d'
  | '"' => some '"'
  | '\\' => some '\\'
  | _ => none

def before (c : Char) (found : Found (List Char)) : Found (List Char) :=
  found.map (fun read => (c :: read.1, read.2))

def basic? : List Char → Found (List Char)
  | [] => none
  | '"' :: rest => some ([], rest)
  | '\\' :: 'u' :: a :: b :: c :: d :: rest =>
      match codePoint? [a, b, c, d] with
      | some character => before character (basic? rest)
      | none => none
  | '\\' :: 'U' :: a :: b :: c :: d :: e :: f :: g :: h :: rest =>
      match codePoint? [a, b, c, d, e, f, g, h] with
      | some character => before character (basic? rest)
      | none => none
  | '\\' :: c :: rest =>
      match escape? c with
      | some character => before character (basic? rest)
      | none => none
  | c :: rest => if c == '\\' || isControl c then none else before c (basic? rest)

def literal? : List Char → Found (List Char)
  | [] => none
  | '\'' :: rest => some ([], rest)
  | c :: rest => if isControl c then none else before c (literal? rest)

/-- The characters after the line end that may follow an opening of three
quotes. -/
def dropFirstLineEnd (input : List Char) : List Char :=
  (lineEnd? input).getD input

/-- Whether a run of blanks holds a line end, as it must after a backslash at
the end of a line. -/
def continuesLine (input : List Char) : Bool :=
  (lineEnd? (skipBlanks input)).isSome

/-- A text of several lines in double quotes, after the opening ones. Up to two
quotes may stand before the closing three. While `skipping`, blanks and line
ends after a backslash at the end of a line are left out. -/
def multilineBasic? (skipping : Bool) : List Char → Found (List Char)
  | [] => none
  | '"' :: '"' :: '"' :: '"' :: '"' :: rest => some (['"', '"'], rest)
  | '"' :: '"' :: '"' :: '"' :: rest => some (['"'], rest)
  | '"' :: '"' :: '"' :: rest => some ([], rest)
  | '\\' :: 'u' :: a :: b :: c :: d :: rest =>
      match codePoint? [a, b, c, d] with
      | some character => before character (multilineBasic? false rest)
      | none => none
  | '\\' :: 'U' :: a :: b :: c :: d :: e :: f :: g :: h :: rest =>
      match codePoint? [a, b, c, d, e, f, g, h] with
      | some character => before character (multilineBasic? false rest)
      | none => none
  | '\\' :: c :: rest =>
      match escape? c with
      | some character => before character (multilineBasic? false rest)
      | none =>
          if continuesLine (c :: rest) then multilineBasic? true (c :: rest) else none
  | '\x0d' :: '\n' :: rest =>
      if skipping then multilineBasic? true rest
      else before '\n' (multilineBasic? false rest)
  | c :: rest =>
      if skipping && (isBlank c || c == '\n') then
        multilineBasic? true rest
      else if c == '\\' || (isControl c && c != '\n') then
        none
      else
        before c (multilineBasic? false rest)

/-- A text of several lines in single quotes, after the opening ones. -/
def multilineLiteral? : List Char → Found (List Char)
  | [] => none
  | '\'' :: '\'' :: '\'' :: '\'' :: '\'' :: rest => some (['\'', '\''], rest)
  | '\'' :: '\'' :: '\'' :: '\'' :: rest => some (['\''], rest)
  | '\'' :: '\'' :: '\'' :: rest => some ([], rest)
  | '\x0d' :: '\n' :: rest => before '\n' (multilineLiteral? rest)
  | c :: rest =>
      if isControl c && c != '\n' then none else before c (multilineLiteral? rest)

def text? (input : List Char) : Found String :=
  let found :=
    match input with
    | '"' :: '"' :: '"' :: rest => multilineBasic? false (dropFirstLineEnd rest)
    | '"' :: rest => basic? rest
    | '\'' :: '\'' :: '\'' :: rest => multilineLiteral? (dropFirstLineEnd rest)
    | '\'' :: rest => literal? rest
    | _ => none
  found.map (fun read => (String.ofList read.1, read.2))

def isBare (c : Char) : Bool :=
  c.isAlphanum || c == '_' || c == '-'

def keyPart? (input : List Char) : Found String :=
  match input with
  | '"' :: rest => (basic? rest).map (fun read => (String.ofList read.1, read.2))
  | '\'' :: rest => (literal? rest).map (fun read => (String.ofList read.1, read.2))
  | _ =>
      match input.takeWhile isBare with
      | [] => none
      | bare => some (String.ofList bare, input.dropWhile isBare)

/-- A key of at most some number of parts, which are separated by points with
blanks around them. -/
def keyParts? : Nat → List Char → Found (List String)
  | 0, _ => none
  | steps + 1, input =>
      match keyPart? input with
      | none => none
      | some (part, rest) =>
          match skipBlanks rest with
          | '.' :: next =>
              (keyParts? steps (skipBlanks next)).map (fun read => (part :: read.1, read.2))
          | after => some ([part], after)

def key? (input : List Char) : Found (List String) :=
  keyParts? nestingLimit input

/-- The keyword of a truth value or of a special number, or a number or date. -/
def plain? (input : List Char) : Found Node :=
  match input with
  | 't' :: 'r' :: 'u' :: 'e' :: rest => some (.boolean true, rest)
  | 'f' :: 'a' :: 'l' :: 's' :: 'e' :: rest => some (.boolean false, rest)
  | 'i' :: 'n' :: 'f' :: rest => some (.unread, rest)
  | 'n' :: 'a' :: 'n' :: rest => some (.unread, rest)
  | '+' :: 'i' :: 'n' :: 'f' :: rest => some (.unread, rest)
  | '+' :: 'n' :: 'a' :: 'n' :: rest => some (.unread, rest)
  | '-' :: 'i' :: 'n' :: 'f' :: rest => some (.unread, rest)
  | '-' :: 'n' :: 'a' :: 'n' :: rest => some (.unread, rest)
  | '+' :: rest => decimal? false rest
  | '-' :: rest => decimal? true rest
  | '0' :: 'x' :: rest => basedInteger? 16 rest
  | '0' :: 'o' :: rest => basedInteger? 8 rest
  | '0' :: 'b' :: rest => basedInteger? 2 rest
  | other => if startsMoment other then moment? other else decimal? false other

end PackModels.Toml
