import PackModels.Geometry.Vec3
import PackModels.Json.Value

/-!
Contract: reading records of known shape from syntax trees.

A decoder takes the depth that is still allowed and a syntax tree. A record of
known fields may be written in two ways: as named members, of which unknown
ones are skipped unread and none of the known ones may be repeated, or as a
list of its fields in their order, which may stop early. Only where a list or
a record is entered is a level of depth used up, so skipped values may nest as
deep as they like.
-/

namespace PackModels.Json

/-- Reads a value of some kind from a syntax tree within a depth. -/
abbrev Decoder (α : Type) : Type :=
  Nat → Node → Option α

namespace Decoder

variable {α β : Type}

def text : Decoder String
  | _, .text characters => characters
  | _, _ => none

/-- A text read further by a function. -/
def textAs (read : String → α) : Decoder α :=
  fun depth node => (text depth node).map read

def boolean : Decoder Bool
  | _, .boolean value => some value
  | _, _ => none

def number : Decoder Number
  | _, .number literal => Number.ofLiteral? literal
  | _, _ => none

/-- A number rounded to binary32. -/
def binary32 : Decoder Float32 :=
  fun depth node => (number depth node).map Number.toBinary32

/-- A whole number from `low` to `high`, written without fraction and power. -/
def integerIn (low high : Int) : Decoder Int :=
  fun depth node =>
    match number depth node with
    | some (.natural value) =>
        if (value : Int) ≤ high then some value else none
    | some (.negative magnitude) =>
        if low ≤ -(magnitude : Int) then some (-magnitude) else none
    | _ => none

/-- A whole number of 32 bits with its sign. -/
def integer32 : Decoder Int :=
  integerIn (-2147483648) 2147483647

/-- A whole number of 32 bits without a sign. -/
def natural32 : Decoder UInt32 :=
  fun depth node => (integerIn 0 4294967295 depth node).map (fun n => UInt32.ofNat n.toNat)

/-- Either `null` or a value. -/
def optional (decode : Decoder α) : Decoder (Option α)
  | _, .null => some none
  | depth, node => (decode depth node).map some

def each (decode : β → Option α) : List β → Option (List α)
  | [] => some []
  | item :: rest =>
      match decode item, each decode rest with
      | some value, some values => some (value :: values)
      | _, _ => none

/-- Items that are written one by one are decoded one by one. -/
theorem each_map {γ : Type} {decode : β → Option α} {write : γ → β} {read : γ → α}
    {items : List γ} (reads : ∀ item ∈ items, decode (write item) = some (read item)) :
    each decode (items.map write) = some (items.map read) := by
  induction items with
  | nil => rfl
  | cons item rest inductionHypothesis =>
      rw [List.map_cons, each, reads item List.mem_cons_self,
        inductionHypothesis (fun other member => reads other (List.mem_cons_of_mem _ member))]
      rfl

/-- What is decoded one by one comes from the items. -/
theorem exists_of_mem_each {decode : β → Option α} {items : List β} {values : List α}
    (reads : each decode items = some values) {value : α} (member : value ∈ values) :
    ∃ item ∈ items, decode item = some value := by
  induction items generalizing values with
  | nil =>
      rw [each, Option.some.injEq] at reads
      rw [← reads] at member
      cases member
  | cons item rest inductionHypothesis =>
      rw [each] at reads
      split at reads
      · rename_i first others decoded decodedRest
        rw [Option.some.injEq] at reads
        rw [← reads, List.mem_cons] at member
        rcases member with rfl | later
        · exact ⟨item, List.mem_cons_self, decoded⟩
        · obtain ⟨other, listed, same⟩ := inductionHypothesis decodedRest later
          exact ⟨other, List.mem_cons_of_mem item listed, same⟩
      · cases reads

def list (decode : Decoder α) : Decoder (List α)
  | depth, .list items => if depth = 0 then none else each (decode (depth - 1)) items
  | _, _ => none

def vec3 : Decoder (Vec3 Float32) :=
  fun depth node =>
    match list binary32 depth node with
    | some [x, y, z] => some ⟨x, y, z⟩
    | _ => none

/-- One of some named choices: its name, or a record with that name as its
only key and `null` under it. -/
def choice (ofName? : String → Option α) : Decoder α
  | _, .text (some characters) => ofName? characters
  | depth, .members [(some key, .null)] => if depth = 0 then none else ofName? key
  | _, _ => none

/-- The members of a record in order, each key and value read. -/
def entries (readKey : String → Option β) (decode : Decoder α) : Decoder (List (β × α))
  | depth, .members members =>
      if depth = 0 then
        none
      else
        each
          (fun member =>
            match member.1.bind readKey, decode (depth - 1) member.2 with
            | some key, some value => some (key, value)
            | _, _ => none)
          members
  | _, _ => none

def under (key : String) (members : List (Option String × Node)) : List Node :=
  (members.filter (fun member => member.1 == some key)).map Prod.snd

/-- The values of known fields in their order, `none` for one that is absent;
also the depth that is left inside the record. -/
def fields (names : List String) : Decoder (Nat × List (Option Node))
  | depth, .members members =>
      if depth = 0 || members.any (fun member => member.1.isNone) then
        none
      else
        (each
          (fun name =>
            match under name members with
            | [] => some none
            | [value] => some (some value)
            | _ => none)
          names).map (fun found => (depth - 1, found))
  | depth, .list items =>
      if depth = 0 || names.length < items.length then
        none
      else
        some (depth - 1,
          items.map some ++ List.replicate (names.length - items.length) none)
  | _, _ => none

def required (decode : Decoder α) (depth : Nat) (field : Option Node) : Option α :=
  field.bind (decode depth)

def withDefault (default : α) (decode : Decoder α) (depth : Nat) :
    Option Node → Option α
  | none => some default
  | some node => decode depth node

end Decoder

def decode? {α : Type} (decoder : Decoder α) (text : String) : Option α :=
  (parse text).bind (decoder depthLimit)

end PackModels.Json
