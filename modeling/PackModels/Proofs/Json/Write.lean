import PackModels.Json.Value

/-!
Contract: what is written in the plainest way is read as it was meant.

A quoted text is read as that text, whatever its characters are; digits are
read as the number that they write; and a record that is written without blanks
is read as its members, if the values of its members are read.

Owns: `Written`, which texts are read as which syntax trees wherever they
stand.
-/

namespace PackModels.Json

namespace Reader

/-! ## Quoted texts -/

/-- Whether a part of a text is one character, as itself or as its code. -/
def Denotes (part : Part) (c : Char) : Prop :=
  part = .character c ∨ (part = .unit c.toNat ∧ c.toNat < 0x20)

theorem characters?_cons {part : Part} {c : Char} (denotes : Denotes part c) (rest : List Part) :
    characters? (part :: rest) = (characters? rest).map (c :: ·) := by
  rcases denotes with rfl | ⟨rfl, control⟩
  · rw [characters?]
  · -- Codes of control characters are no halves of a character.
    have notHigh : ¬(0xd800 ≤ c.toNat ∧ c.toNat ≤ 0xdbff) := by omega
    have notLow : ¬(0xdc00 ≤ c.toNat ∧ c.toNat ≤ 0xdfff) := by omega
    have notHalf : ¬(0xd800 ≤ c.toNat ∧ c.toNat ≤ 0xdfff) := by omega
    cases rest with
    | nil => simp [characters?, notHalf]
    | cons next rest =>
        cases next with
        | character other => simp [characters?, notHalf]
        | unit code => simp [characters?, notHigh, notLow]

theorem hexDigit?_hexDigit : ∀ value < 16, hexDigit? (Value.hexDigit value) = some value := by
  decide

theorem parts?_escape {mark c : Char} (escapes : escape? mark = some c) (rest : List Char) :
    parts? ('\\' :: mark :: rest) =
      (parts? rest).map (fun found => (.character c :: found.1, found.2)) := by
  have notCode : mark ≠ 'u' := by
    rintro rfl
    cases escapes
  rw [parts?]
  · rw [escapes]
    cases parts? rest with
    | none => rfl
    | some found => rfl
  · intro a b c d rest isCode
    exact absurd isCode notCode

/-- The code of a control character is written with two digits of its own. -/
theorem unit?_hexDigit {code : Nat} (control : code < 0x20) :
    unit? '0' '0' (Value.hexDigit (code / 16)) (Value.hexDigit (code % 16)) = some code := by
  have zero : hexDigit? '0' = some 0 := rfl
  rw [unit?, zero, hexDigit?_hexDigit (code / 16) (by omega),
    hexDigit?_hexDigit (code % 16) (by omega)]
  change some (((0 * 16 + 0) * 16 + code / 16) * 16 + code % 16) = some code
  congr 1
  omega

/-- A quoted character is read as a part that denotes it. -/
theorem parts?_quoteCharacter (c : Char) (rest : List Char) :
    ∃ part, Denotes part c ∧ parts? ((Value.quoteCharacter c).toList ++ rest) =
      (parts? rest).map (fun found => (part :: found.1, found.2)) := by
  unfold Value.quoteCharacter
  split
  · exact ⟨.character '"', .inl rfl, parts?_escape rfl rest⟩
  · exact ⟨.character '\\', .inl rfl, parts?_escape rfl rest⟩
  · exact ⟨.character '\x08', .inl rfl, parts?_escape rfl rest⟩
  · exact ⟨.character '\x0c', .inl rfl, parts?_escape rfl rest⟩
  · exact ⟨.character '\n', .inl rfl, parts?_escape rfl rest⟩
  · exact ⟨.character '\r', .inl rfl, parts?_escape rfl rest⟩
  · exact ⟨.character '\t', .inl rfl, parts?_escape rfl rest⟩
  · rename_i notQuote notSlash _ _ _ _ _
    split
    · rename_i control
      refine ⟨.unit c.toNat, .inr ⟨rfl, control⟩, ?_⟩
      have mark : "\\u00".toList = ['\\', 'u', '0', '0'] := rfl
      rw [String.toList_append, mark, String.toList_ofList, List.append_assoc]
      simp only [List.cons_append, List.nil_append]
      rw [parts?, unit?_hexDigit control]
      cases parts? rest with
      | none => rfl
      | some found => rfl
    · rename_i notControl
      refine ⟨.character c, .inl rfl, ?_⟩
      have plain : (c == '\\' || decide (c.toNat < 0x20)) = false := by
        rw [beq_false_of_ne notSlash, decide_eq_false notControl]
        rfl
      rw [String.toList_ofList, List.singleton_append, parts?]
      · rw [plain, if_neg (by simp)]
        cases parts? rest with
        | none => rfl
        | some found => rfl
      · exact fun same => absurd same notQuote
      · intro _ _ _ _ _ same
        exact absurd same notSlash
      · intro _ _ same
        exact absurd same notSlash

/-- The characters of a quoted text after the first quotation mark. -/
def quotedRest (text : String) : List Char :=
  text.toList.flatMap (fun c => (Value.quoteCharacter c).toList) ++ ['"']

theorem toList_quote (text : String) : (Value.quote text).toList = '"' :: quotedRest text := by
  have mark : "\"".toList = ['"'] := rfl
  rw [Value.quote, String.toList_append, String.toList_append, String.toList_join,
    List.flatMap_map, mark, List.append_assoc, List.singleton_append]
  rfl

theorem parts?_quotedRest (text rest : List Char) :
    ∃ parts, characters? parts = some text ∧
      parts? (text.flatMap (fun c => (Value.quoteCharacter c).toList) ++ '"' :: rest) =
        some (parts, rest) := by
  induction text with
  | nil => exact ⟨[], rfl, by rw [List.flatMap_nil, List.nil_append, parts?]⟩
  | cons c text inductionHypothesis =>
      obtain ⟨parts, denoted, read⟩ := inductionHypothesis
      obtain ⟨part, denotes, readPart⟩ := parts?_quoteCharacter c
        (text.flatMap (fun c => (Value.quoteCharacter c).toList) ++ '"' :: rest)
      refine ⟨part :: parts, ?denoted, ?read⟩
      case denoted => rw [characters?_cons denotes, denoted, Option.map_some]
      case read => rw [List.flatMap_cons, List.append_assoc, readPart, read, Option.map_some]

/-- A quoted text is read as that text. -/
theorem text?_quotedRest (text : String) (rest : List Char) :
    text? (quotedRest text ++ rest) = some (some text, rest) := by
  obtain ⟨parts, denoted, read⟩ := parts?_quotedRest text.toList rest
  rw [text?, quotedRest, List.append_assoc, List.singleton_append, read, Option.map_some, denoted,
    Option.map_some, String.ofList_toList]

/-! ## Digits -/

/-- Whether a text is at its end, or at the end of a value in a record. -/
def Ends (rest : List Char) : Prop :=
  ∀ c, rest.head? = some c → c = ',' ∨ c = '\x7d'

theorem digit?_digitChar : ∀ digit < 10, digit? (Nat.digitChar digit) = some digit := by
  decide

theorem digitChar_ne_minus : ∀ digit < 10, Nat.digitChar digit ≠ '-' := by
  decide

theorem takeDigits_digitChars {digits : List Nat} (decimal : ∀ digit ∈ digits, digit < 10)
    {rest : List Char} (ends : Ends rest) :
    takeDigits (digits.map Nat.digitChar ++ rest) = (digits, rest) := by
  induction digits with
  | nil =>
      cases rest with
      | nil => rfl
      | cons c rest =>
          have noDigit : digit? c = none := by
            rcases ends c rfl with rfl | rfl
            · rfl
            · rfl
          rw [List.map_nil, List.nil_append, takeDigits, noDigit]
  | cons digit digits inductionHypothesis =>
      rw [List.map_cons, List.cons_append, takeDigits,
        digit?_digitChar digit (decimal digit List.mem_cons_self)]
      dsimp only
      rw [inductionHypothesis (fun other member => decimal other (List.mem_cons_of_mem _ member))]

theorem fraction?_of_ends {rest : List Char} (ends : Ends rest) :
    fraction? rest = some (none, rest) := by
  cases rest with
  | nil => rfl
  | cons c rest =>
      rcases ends c rfl with rfl | rfl
      · rfl
      · rfl

theorem exponent?_of_ends {rest : List Char} (ends : Ends rest) :
    exponent? rest = some (none, rest) := by
  cases rest with
  | nil => rfl
  | cons c rest =>
      rcases ends c rfl with rfl | rfl
      · rfl
      · rfl

/-- Digits are read as the number that they write, if no zero is in front. -/
theorem number?_digitChars {digit : Nat} {digits : List Nat}
    (decimal : ∀ other ∈ digit :: digits, other < 10) (plain : digits = [] ∨ digit ≠ 0)
    {rest : List Char} (ends : Ends rest) :
    number? ((digit :: digits).map Nat.digitChar ++ rest) =
      some (⟨false, digit :: digits, none, none⟩, rest) := by
  have unsigned : number? ((digit :: digits).map Nat.digitChar ++ rest) =
      magnitude? false ((digit :: digits).map Nat.digitChar ++ rest) := by
    rw [List.map_cons, List.cons_append, number?]
    intro after same
    exact digitChar_ne_minus digit (decimal digit List.mem_cons_self) (List.cons.inj same).1
  have noZero : ((digit :: digits).isEmpty ||
      ((digit :: digits).length > 1 && (digit :: digits).head? == some 0)) = false := by
    rcases plain with rfl | notZero
    · rfl
    · simp [notZero]
  rw [unsigned, magnitude?, takeDigits_digitChars decimal ends]
  dsimp only
  rw [noZero, if_neg (by simp)]
  rw [fraction?_of_ends ends, Option.bind_eq_bind, Option.bind_some]
  dsimp only
  rw [exponent?_of_ends ends]
  rfl

/-! ## Values in a record -/

theorem skipBlanks_cons {c : Char} (shown : isBlank c = false) (rest : List Char) :
    skipBlanks (c :: rest) = c :: rest := by
  rw [skipBlanks, List.dropWhile_cons_of_neg (by simp [shown])]

/-- Whether a text without blanks around it is read as a syntax tree, wherever
it stands in a record. -/
structure Written (text : List Char) (node : Node) : Prop where
  starts : ∃ c tail, text = c :: tail ∧ isBlank c = false
  reads : ∀ (steps : Nat) (rest : List Char), 2 * text.length ≤ steps + 1 → Ends rest →
    value? (steps + 1) (text ++ rest) = some (node, rest)

theorem Written.skipBlanks_append {text : List Char} {node : Node} (written : Written text node)
    (rest : List Char) : skipBlanks (text ++ rest) = text ++ rest := by
  obtain ⟨c, tail, rfl, shown⟩ := written.starts
  exact skipBlanks_cons shown (tail ++ rest)

theorem written_quote (text : String) : Written (Value.quote text).toList (.text (some text)) where
  starts := ⟨'"', quotedRest text, toList_quote text, rfl⟩
  reads := by
    intro steps rest _ _
    rw [toList_quote, List.cons_append, value?, text?_quotedRest, Option.map_some]

theorem written_boolean (value : Bool) :
    Written (Value.boolean value).compact.toList (.boolean value) := by
  cases value with
  | true => exact ⟨⟨'t', ['r', 'u', 'e'], rfl, rfl⟩, fun _ _ _ _ => rfl⟩
  | false => exact ⟨⟨'f', ['a', 'l', 's', 'e'], rfl, rfl⟩, fun _ _ _ _ => rfl⟩

theorem value?_digitChar {digit : Nat} (decimal : digit < 10) (steps : Nat) (rest : List Char) :
    value? (steps + 1) (Nat.digitChar digit :: rest) =
      (number? (Nat.digitChar digit :: rest)).map (fun found => (.number found.1, found.2)) := by
  match digit, decimal with
  | 0, _ | 1, _ | 2, _ | 3, _ | 4, _ | 5, _ | 6, _ | 7, _ | 8, _ | 9, _ => rfl
  | more + 10, below => exact absurd below (by omega)

theorem written_digits {digit : Nat} {digits : List Nat}
    (decimal : ∀ other ∈ digit :: digits, other < 10) (plain : digits = [] ∨ digit ≠ 0) :
    Written ((digit :: digits).map Nat.digitChar)
      (.number ⟨false, digit :: digits, none, none⟩) where
  starts := by
    have shown : ∀ digit < 10, isBlank (Nat.digitChar digit) = false := by decide
    exact ⟨_, _, List.map_cons, shown digit (decimal digit List.mem_cons_self)⟩
  reads := by
    intro steps rest _ ends
    have read := number?_digitChars decimal plain ends
    rw [List.map_cons, List.cons_append] at read ⊢
    rw [value?_digitChar (decimal digit List.mem_cons_self), read, Option.map_some]

/-! ## Records -/

/-- The characters of a record after its opening brace: its members without
blanks, and the closing brace. -/
def membersText : List (String × List Char) → List Char
  | [] => ['\x7d']
  | [(key, text)] => (Value.quote key).toList ++ ':' :: (text ++ ['\x7d'])
  | (key, text) :: rest => (Value.quote key).toList ++ ':' :: (text ++ ',' :: membersText rest)

def recordText (members : List (String × List Char)) : List Char :=
  '\x7b' :: membersText members

/-- A member that is written, and what it is read as. -/
structure Member where
  key : String
  text : List Char
  node : Node
  written : Written text node

theorem ends_cons {c : Char} (mark : c = ',' ∨ c = '\x7d') (rest : List Char) :
    Ends (c :: rest) := by
  intro other same
  rw [List.head?_cons, Option.some.injEq] at same
  rw [← same]
  exact mark

/-- The last member is read with the closing brace. -/
theorem members?_last (member : Member) {steps : Nat}
    (enough : 2 * member.text.length ≤ steps + 1) (after : List Char) :
    members? (steps + 2)
        ((Value.quote member.key).toList ++ ':' :: (member.text ++ '\x7d' :: after)) =
      some ([(some member.key, member.node)], after) := by
  have colon := skipBlanks_cons (show isBlank ':' = false from rfl)
    (member.text ++ '\x7d' :: after)
  have brace := skipBlanks_cons (show isBlank '\x7d' = false from rfl) after
  have read := member.written.reads steps _ enough (ends_cons (.inr rfl) after)
  rw [toList_quote, List.cons_append, members?, text?_quotedRest]
  simp only [colon, member.written.skipBlanks_append, read, brace]

/-- Every other member is read before the members that follow it. -/
theorem members?_more (member : Member) {steps : Nat}
    (enough : 2 * member.text.length ≤ steps + 1) (following : List Char) :
    members? (steps + 2)
        ((Value.quote member.key).toList ++ ':' :: (member.text ++ ',' :: following)) =
      (members? (steps + 1) (skipBlanks following)).map
        (fun found => ((some member.key, member.node) :: found.1, found.2)) := by
  have colon := skipBlanks_cons (show isBlank ':' = false from rfl)
    (member.text ++ ',' :: following)
  have comma := skipBlanks_cons (show isBlank ',' = false from rfl) following
  have read := member.written.reads steps _ enough (ends_cons (.inl rfl) following)
  rw [toList_quote, List.cons_append, members?, text?_quotedRest]
  simp only [colon, member.written.skipBlanks_append, read, comma]

theorem membersText_cons (key : String) (text : List Char) (members : List (String × List Char)) :
    ∃ tail, membersText ((key, text) :: members) = '"' :: tail := by
  cases members with
  | nil =>
      rw [membersText, toList_quote]
      exact ⟨_, rfl⟩
  | cons next members =>
      rw [membersText, toList_quote]
      · exact ⟨_, rfl⟩
      · exact List.cons_ne_nil next members

/-- Members are read up to and with the closing brace. -/
theorem members?_membersText {member : Member} {members : List Member} {steps : Nat}
    (rest : List Char)
    (enough : 2 * (membersText ((member :: members).map (fun m => (m.key, m.text)))).length ≤
      steps) :
    members? steps (membersText ((member :: members).map (fun m => (m.key, m.text))) ++ rest) =
      some ((member :: members).map (fun m => (some m.key, m.node)), rest) := by
  induction members generalizing member steps with
  | nil =>
      simp only [List.map_cons, List.map_nil, membersText, List.append_assoc, List.cons_append,
        List.nil_append, List.length_cons, List.length_append, List.length_nil] at enough ⊢
      obtain ⟨steps, rfl⟩ : ∃ left, steps = left + 2 := ⟨steps - 2, by omega⟩
      exact members?_last member (by omega) rest
  | cons next members inductionHypothesis =>
      simp only [List.map_cons, membersText, List.append_assoc, List.cons_append,
        List.length_cons, List.length_append] at enough inductionHypothesis ⊢
      obtain ⟨steps, rfl⟩ : ∃ left, steps = left + 2 := ⟨steps - 2, by omega⟩
      have shown : skipBlanks (membersText ((next.key, next.text) ::
            members.map (fun m => (m.key, m.text))) ++ rest) =
          membersText ((next.key, next.text) :: members.map (fun m => (m.key, m.text))) ++
            rest := by
        obtain ⟨tail, starts⟩ := membersText_cons next.key next.text
          (members.map (fun m => (m.key, m.text)))
        rw [starts, List.cons_append, skipBlanks_cons rfl]
      rw [members?_more member (by omega), shown, inductionHypothesis (by omega), Option.map_some]

/-- A record is read as its members. -/
theorem written_record (members : List Member) :
    Written (recordText (members.map (fun m => (m.key, m.text))))
      (.members (members.map (fun m => (some m.key, m.node)))) where
  starts := ⟨'\x7b', _, rfl, rfl⟩
  reads := by
    intro steps rest enough _
    rw [recordText, List.length_cons] at enough
    cases members with
    | nil =>
        rw [List.map_nil, recordText, membersText]
        rfl
    | cons member members =>
        have read : members? steps
            (membersText ((member :: members).map (fun m => (m.key, m.text))) ++ rest) =
              some ((member :: members).map (fun m => (some m.key, m.node)), rest) :=
          members?_membersText rest (by omega)
        obtain ⟨tail, starts⟩ := membersText_cons member.key member.text
          (members.map (fun m => (m.key, m.text)))
        rw [List.map_cons, starts, List.cons_append] at read
        have shown : skipBlanks ('"' :: (tail ++ rest)) = '"' :: (tail ++ rest) :=
          skipBlanks_cons rfl _
        rw [recordText, List.map_cons, starts, List.cons_append, List.cons_append, value?]
        rw [shown]
        show (members? steps ('"' :: (tail ++ rest))).map
          (fun found => (Node.members found.1, found.2)) = _
        rw [read, Option.map_some]

end Reader

/-- A text that is written is read by itself. -/
theorem parse_of_written {text : List Char} {node : Node} (written : Reader.Written text node) :
    parse (String.ofList text) = some node := by
  have ends : Reader.Ends [] := by
    intro c same
    cases same
  have shown := written.skipBlanks_append []
  have read := written.reads (2 * text.length + 1) [] (by omega) ends
  rw [List.append_nil] at shown read
  unfold parse
  rw [String.toList_ofList]
  dsimp only
  rw [shown, read]
  rfl

end PackModels.Json
