import PackModels.Binding.StateFile
import PackModels.Proofs.Sides
import PackModels.Proofs.Sorted

/-!
Contract: what is read from a state file.

Variants, parts and the items of a list are read one by one, so what is read
stands beside what is written. The keys of the variants increase: they are
those of the members of a record, of which each key counts once.

Owns: what each of the three readers gives, and what a whole file gives.

Does not own: how a condition is read.
-/

namespace PackModels.StateFile

variable {id : ResourceId}

/-! ## Items side by side -/

theorem placeAll_eq_readEach (raws : List RawVariant) :
    placeAll id raws =
      readEach (fun raw => (raw.place id).map (WeightedVariant.mk raw.weight)) raws := by
  induction raws with
  | nil => rfl
  | cons raw rest inductionHypothesis =>
      rw [placeAll, readEach, inductionHypothesis]
      cases raw.place id with
      | error error => rfl
      | ok variant => cases readEach _ rest <;> rfl

theorem placeAll_eq_ok_iff {raws : List RawVariant} {entries : List WeightedVariant} :
    placeAll id raws = .ok entries ↔
      List.Forall₂ (fun raw entry => raw.place id = .ok entry.variant ∧ entry.weight = raw.weight)
        raws entries := by
  rw [placeAll_eq_readEach, readEach_eq_ok_iff, iff_iff_eq]
  congr 1
  funext raw entry
  obtain ⟨weight, variant⟩ := entry
  cases raw.place id <;> simp [Except.map, and_comm, eq_comm]

/-- A list of variants is a choice among all of them, apart from a list of one. -/
theorem bind_many_eq_ok {raws : List RawVariant} {binding : Binding}
    (bound : (RawBinding.many raws).bind id = .ok binding) :
    ∃ entries, placeAll id raws = .ok entries ∧
      ((∃ entry, entries = [entry] ∧ binding = .single entry.variant) ∨
        (∀ entry, entries ≠ [entry]) ∧ binding = .weighted entries) := by
  match raws, bound with
  | [], bound =>
      exact ⟨[], rfl, .inr ⟨by simp, (Except.ok.inj bound).symm⟩⟩
  | [raw], bound =>
      rw [RawBinding.bind] at bound
      rw [placeAll]
      cases placed : raw.place id with
      | error error =>
          rw [placed] at bound
          cases bound
      | ok variant =>
          rw [placed] at bound
          exact ⟨[⟨raw.weight, variant⟩], rfl, .inl ⟨_, rfl, (Except.ok.inj bound).symm⟩⟩
  | first :: second :: rest, bound =>
      change (placeAll id (first :: second :: rest)).map .weighted = .ok binding at bound
      cases placed : placeAll id (first :: second :: rest) with
      | error error =>
          rw [placed] at bound
          cases bound
      | ok entries =>
          rw [placed] at bound
          refine ⟨entries, rfl, .inr ⟨?_, (Except.ok.inj bound).symm⟩⟩
          rintro entry rfl
          have sameLength := (placeAll_eq_ok_iff.mp placed).length_eq
          simp at sameLength

/-- Reads one variant under its key. -/
def readVariant (id : ResourceId) (entry : String × RawBinding) :
    Except DefinitionError StateVariant :=
  match parseKey? entry.1 with
  | none => .error (.condition id ("malformed variant key " ++ entry.1))
  | some demands => (entry.2.bind id).map (StateVariant.mk entry.1 demands)

theorem readVariants_eq_readEach (entries : List (String × RawBinding)) :
    readVariants id entries = readEach (readVariant id) entries := by
  induction entries with
  | nil => rfl
  | cons entry rest inductionHypothesis =>
      obtain ⟨key, raw⟩ := entry
      rw [readVariants, readEach, readVariant, inductionHypothesis]
      cases parseKey? key with
      | none => rfl
      | some demands =>
          cases raw.bind id with
          | error error => rfl
          | ok binding => cases readEach _ rest <;> rfl

theorem readVariants_eq_ok_iff {entries : List (String × RawBinding)}
    {variants : List StateVariant} :
    readVariants id entries = .ok variants ↔
      List.Forall₂ (fun entry variant => variant.key = entry.1 ∧
          parseKey? entry.1 = some variant.demands ∧ entry.2.bind id = .ok variant.binding)
        entries variants := by
  rw [readVariants_eq_readEach, readEach_eq_ok_iff, iff_iff_eq]
  congr 1
  funext entry variant
  obtain ⟨key, demands, binding⟩ := variant
  rw [readVariant]
  cases parseKey? entry.1 with
  | none => simp
  | some found => cases entry.2.bind id <;> simp [Except.map, eq_comm]

/-- Reads the condition of a part, which always holds where none is written. -/
def RawPart.readCondition (id : ResourceId) (raw : RawPart) : Except DefinitionError Condition :=
  match raw.condition with
  | some value => Condition.parse id value
  | none => .ok .always

/-- Reads one part. -/
def readPart (id : ResourceId) (raw : RawPart) : Except DefinitionError StatePart :=
  match raw.readCondition id with
  | .error error => .error error
  | .ok condition => (raw.binding.bind id).map (StatePart.mk condition)

theorem readParts_eq_readEach (raws : List RawPart) :
    readParts id raws = readEach (readPart id) raws := by
  induction raws with
  | nil => rfl
  | cons raw rest inductionHypothesis =>
      rw [readParts, readEach, readPart, RawPart.readCondition, inductionHypothesis]
      cases raw.condition with
      | none =>
          cases raw.binding.bind id with
          | error error => rfl
          | ok binding => cases readEach _ rest <;> rfl
      | some value =>
          dsimp only
          cases Condition.parse id value with
          | error error => rfl
          | ok condition =>
              cases raw.binding.bind id with
              | error error => rfl
              | ok binding => cases readEach _ rest <;> rfl

theorem readParts_eq_ok_iff {raws : List RawPart} {parts : List StatePart} :
    readParts id raws = .ok parts ↔
      List.Forall₂ (fun raw part => raw.readCondition id = .ok part.condition ∧
          raw.binding.bind id = .ok part.binding)
        raws parts := by
  rw [readParts_eq_readEach, readEach_eq_ok_iff, iff_iff_eq]
  congr 1
  funext raw part
  obtain ⟨condition, binding⟩ := part
  rw [readPart]
  cases raw.readCondition id with
  | error error => simp
  | ok found => cases raw.binding.bind id <;> simp [Except.map]

/-! ## The whole file -/

section Parse

variable {text : String} {file : StateFile} (parsed : StateFile.parse id text = .ok file)

include parsed

/-- What is read from a text are the variants and parts that are written. -/
theorem read_of_parse : ∃ raw : RawFile,
    readVariants id (Table.ofPairs (raw.variants.getD [])).toList = .ok file.variants ∧
      readParts id (raw.parts.getD []) = .ok file.parts := by
  unfold StateFile.parse at parsed
  split at parsed
  · rename_i raw _
    refine ⟨raw, ?_⟩
    unfold ofRaw at parsed
    split at parsed
    · cases parsed
    · split at parsed
      · cases parsed
      · rename_i variants isVariants
        split at parsed
        · cases parsed
        · rename_i parts isParts
          rw [← Except.ok.inj parsed]
          exact ⟨isVariants, isParts⟩
  · cases parsed

/-- The demands of a variant of a file are those of its key. -/
theorem parseKey?_of_parse {variant : StateVariant} (member : variant ∈ file.variants) :
    parseKey? variant.key = some variant.demands := by
  obtain ⟨raw, isVariants, _⟩ := read_of_parse parsed
  obtain ⟨entry, _, isKey, demanded, _⟩ :=
    (exists_of_forall₂ (readVariants_eq_ok_iff.mp isVariants)).2 variant member
  rw [isKey, demanded]

/-- The keys of the variants increase. -/
theorem increasing_keys_of_parse : Increasing StateVariant.key file.variants := by
  obtain ⟨raw, isVariants, _⟩ := read_of_parse parsed
  have sameKeys : file.variants.map StateVariant.key =
      (Table.ofPairs (raw.variants.getD [])).toList.map Prod.fst := by
    rw [← List.forall₂_eq_eq_eq, List.forall₂_map_left_iff, List.forall₂_map_right_iff]
    exact (readVariants_eq_ok_iff.mp isVariants).flip.imp fun _ _ read => read.1
  have ordered := (Table.ofPairs (raw.variants.getD [])).ordered_keys
  rw [← Std.ExtTreeMap.map_fst_toList_eq_keys, ← sameKeys] at ordered
  exact List.pairwise_map.mp ordered

end Parse

end PackModels.StateFile
