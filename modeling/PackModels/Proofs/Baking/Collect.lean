import PackModels.Proofs.Baking.Leaves

/-!
Contract: what is drawn for a baked state.

Collecting goes through the leaves of a binding from left to right and takes one
model for each of them. It draws one number for each leaf that offers several
variants, below the weight of the leaf, and no other number. `recording` keeps
these numbers with their bounds while it draws them from any source, and changes
nothing that is drawn; so what is said of the record is said of every source.

Owns: `asked`, the numbers that are drawn, and `Collects`, what is collected for
some leaves.
-/

namespace PackModels

namespace StateModel

variable {Source : Type}

/-! ## Recorded draws -/

/-- A number that was drawn, and the bound that it was to stay below. -/
structure Ask where
  bound : UInt64
  number : UInt64
deriving DecidableEq, Repr

/-- Draws from a source and keeps a record of what was drawn. -/
def recording (draw : UInt64 → Source → UInt64 × Source) (bound : UInt64)
    (held : Source × List Ask) : UInt64 × (Source × List Ask) :=
  let drawn := draw bound held.1
  (drawn.1, drawn.2, held.2 ++ [⟨bound, drawn.1⟩])

/-- The numbers that are drawn in collecting, in order. -/
def asked (draw : UInt64 → Source → UInt64 × Source) (model : StateModel) (source : Source) :
    List Ask :=
  (model.collect (recording draw) (source, [])).2.2

mutual

/-- Keeping a record changes nothing that is collected. -/
theorem collect_recording (draw : UInt64 → Source → UInt64 × Source) : (model : StateModel) →
    (held : Source × List Ask) →
    (model.collect (recording draw) held).1 = (model.collect draw held.1).1 ∧
      (model.collect (recording draw) held).2.1 = (model.collect draw held.1).2
  | .single model, held => by
      simp [collect]
  | .weighted entries total, held => by
      simp [collect, recording]
  | .composite parts, held => by
      rw [collect, collect]
      exact collectAll_recording draw parts held

theorem collectAll_recording (draw : UInt64 → Source → UInt64 × Source) :
    (parts : List StateModel) → (held : Source × List Ask) →
    (collectAll (recording draw) parts held).1 = (collectAll draw parts held.1).1 ∧
      (collectAll (recording draw) parts held).2.1 = (collectAll draw parts held.1).2
  | [], held => by
      simp [collectAll]
  | part :: rest, held => by
      have first := collect_recording draw part held
      have others := collectAll_recording draw rest (part.collect (recording draw) held).2
      rw [first.2] at others
      simp only [collectAll, first.1, others.1, others.2, and_self]

end

/-! ## Collecting for leaves -/

/-- What is collected for some leaves, whatever was drawn before: one number is
drawn for each leaf that offers several variants, below the weight of the leaf as
far as a bound can count, and where every number stays below its bound there is one
model for each leaf, of a variant that the leaf offers. -/
def Collects (find : Finder) (draw : UInt64 → Source → UInt64 × Source) (leaves : List Leaf)
    (gather : Source × List Ask → List (Shared BakedModel) × (Source × List Ask)) : Prop :=
  ∀ held, ∃ asks, (gather held).2.2 = held.2 ++ asks ∧
    asks.map (fun ask => ask.bound.toNat) =
      (leaves.filter Leaf.isDrawn).map (fun leaf => leaf.load % Draw.wordCount) ∧
    (∀ ask ∈ asks, ∃ source, ask.number = (draw ask.bound source).1) ∧
    ((∀ ask ∈ asks, ask.number < ask.bound) →
      List.Forall₂ (Leaf.Serves find) leaves (gather held).1)

variable {find : Finder} {draw : UInt64 → Source → UInt64 × Source}

theorem collects_nil : Collects find draw [] (fun held => ([], held)) := by
  intro held
  exact ⟨[], by simp, by simp, by simp, fun _ => .nil⟩

/-- Leaves are collected for one after another. -/
theorem Collects.append {left right : List Leaf}
    {first second : Source × List Ask → List (Shared BakedModel) × (Source × List Ask)}
    (collects : Collects find draw left first) (follows : Collects find draw right second) :
    Collects find draw (left ++ right) (fun held =>
      ((first held).1 ++ (second (first held).2).1, (second (first held).2).2)) := by
  intro held
  obtain ⟨asks, recorded, bounds, drawn, served⟩ := collects held
  obtain ⟨later, recordedLater, boundsLater, drawnLater, servedLater⟩ := follows (first held).2
  refine ⟨asks ++ later, ?_, ?_, ?_, ?_⟩
  · rw [recordedLater, recorded, List.append_assoc]
  · rw [List.map_append, bounds, boundsLater, List.filter_append, List.map_append]
  · intro ask member
    rcases List.mem_append.mp member with early | late
    · exact drawn ask early
    · exact drawnLater ask late
  · intro below
    apply List.rel_append
    · exact served (fun ask member => below ask (List.mem_append_left _ member))
    · exact servedLater (fun ask member => below ask (List.mem_append_right _ member))

/-- A draw below the bound of a choice picks one of its entries. -/
theorem exists_select?_of_lt {kept : List WeightedModel} {number : UInt64}
    (below : number < totalWeight kept) : ∃ entry ∈ kept, select? kept number = some entry.model := by
  have inside : number.toNat < weightSum (kept.map WeightedModel.weight) := by
    have small := UInt64.lt_iff_toNat_lt.mp below
    rw [toNat_totalWeight] at small
    exact Nat.lt_of_lt_of_le small (Nat.mod_le _ _)
  obtain ⟨position, picked⟩ := exists_pick_iff.mpr inside
  obtain ⟨entry, held, _⟩ := pick_eq_ok_iff.mp picked
  refine ⟨entry, List.mem_of_getElem? held, ?_⟩
  rw [select?_eq, picked]
  simp [Except.toOption, held]

/-- One leaf is collected for with at most one number. -/
theorem collects_of_comes {leaf : Leaf} {model : StateModel} (comes : leaf.Comes find model) :
    Collects find draw [leaf] (model.collect (recording draw)) := by
  intro held
  cases comes with
  | alone undrawn serves =>
      refine ⟨[], ?_, ?_, ?_, ?_⟩
      · simp [collect]
      · simp [undrawn]
      · simp
      · intro _
        rw [collect]
        exact .cons serves .nil
  | @choice kept drawn serves weighs =>
      refine ⟨[⟨totalWeight kept, (draw (totalWeight kept) held.1).1⟩], ?_, ?_, ?_, ?_⟩
      · simp [collect, recording]
      · simp [drawn, toNat_totalWeight, weighs]
      · intro ask member
        rw [List.mem_singleton.mp member]
        exact ⟨held.1, rfl⟩
      · intro below
        obtain ⟨entry, member, selected⟩ := exists_select?_of_lt (below _ List.mem_cons_self)
        have collected : ((weighted kept (totalWeight kept)).collect (recording draw) held).1 =
            [entry.model] := by
          simp [collect, recording, selected]
        rw [collected]
        exact .cons (serves entry member) .nil

mutual

/-- However deep its parts are nested, what a binding comes to is collected leaf
by leaf. -/
theorem collects_of_assemble : (binding : Binding) → {model : StateModel} →
    binding.assemble find = some model →
    Collects find draw binding.leaves (model.collect (recording draw))
  | .single variant, model => by
      intro assembled
      obtain ⟨held, found, rfl⟩ := Option.map_eq_some_iff.mp assembled
      exact collects_of_comes (Leaf.comes_single found)
  | .weighted entries, model => by
      intro assembled
      obtain ⟨models, each, chosen⟩ := Option.bind_eq_some_iff.mp assembled
      exact collects_of_comes (Leaf.comes_weighted each chosen)
  | .composite parts, model => by
      intro assembled
      obtain ⟨models, each, rfl⟩ := Option.map_eq_some_iff.mp assembled
      have together : (composite models).collect (recording draw) =
          collectAll (recording draw) models := by
        funext held
        rw [collect]
      rw [Binding.leaves, together]
      exact collectsAll_of_assembleParts parts each

theorem collectsAll_of_assembleParts : (parts : List Binding) → {models : List StateModel} →
    Binding.assembleParts find parts = some models →
    Collects find draw (Binding.leavesOfParts parts) (collectAll (recording draw) models)
  | [], models => by
      intro assembled
      rw [Binding.assembleParts] at assembled
      rw [← Option.some.inj assembled, Binding.leavesOfParts]
      exact collects_nil
  | part :: rest, models => by
      intro assembled
      obtain ⟨model, others, first, assembledRest, rfl⟩ :=
        Binding.assembleParts_cons_eq_some_iff.mp assembled
      rw [Binding.leavesOfParts]
      exact (collects_of_assemble part first).append
        (collectsAll_of_assembleParts rest assembledRest)

end

/-! ## The model that stands for a state -/

theorem primary?_ne_none_of_comes {leaf : Leaf} {model : StateModel}
    (comes : leaf.Comes find model) : model.primary? ≠ none := by
  cases comes with
  | alone _ _ => simp [primary?]
  | @choice kept drawn _ weighs =>
      cases kept with
      | nil =>
          have positive := Leaf.load_pos drawn
          rw [← weighs, List.map_nil, weightSum] at positive
          exact absurd positive (Nat.lt_irrefl 0)
      | cons entry rest => simp [primary?]

mutual

/-- No model stands for a state exactly if its binding has no leaf. -/
theorem primary?_eq_none_iff : (binding : Binding) → {model : StateModel} →
    binding.assemble find = some model → (model.primary? = none ↔ binding.leaves = [])
  | .single variant, model => by
      intro assembled
      obtain ⟨held, found, rfl⟩ := Option.map_eq_some_iff.mp assembled
      simp [primary?, Binding.leaves]
  | .weighted entries, model => by
      intro assembled
      obtain ⟨models, each, chosen⟩ := Option.bind_eq_some_iff.mp assembled
      have present := primary?_ne_none_of_comes (Leaf.comes_weighted each chosen)
      simp [Binding.leaves, present]
  | .composite parts, model => by
      intro assembled
      obtain ⟨models, each, rfl⟩ := Option.map_eq_some_iff.mp assembled
      rw [primary?, Binding.leaves]
      exact primaryOfParts?_eq_none_iff parts each

theorem primaryOfParts?_eq_none_iff : (parts : List Binding) → {models : List StateModel} →
    Binding.assembleParts find parts = some models →
    (primaryOfParts? models = none ↔ Binding.leavesOfParts parts = [])
  | [], models => by
      intro assembled
      rw [Binding.assembleParts] at assembled
      rw [← Option.some.inj assembled]
      simp [primaryOfParts?, Binding.leavesOfParts]
  | part :: rest, models => by
      intro assembled
      obtain ⟨model, others, first, assembledRest, rfl⟩ :=
        Binding.assembleParts_cons_eq_some_iff.mp assembled
      have own := primary?_eq_none_iff part first
      have later := primaryOfParts?_eq_none_iff rest assembledRest
      rw [Binding.leavesOfParts, List.append_eq_nil_iff, ← own, ← later, primaryOfParts?]
      cases model.primary? <;> simp

end

end StateModel

namespace Draw

/-- A number that is drawn from words stays below its bound. -/
theorem below_lt {bound : UInt64} (positive : 0 < bound) (words : List UInt64) :
    (below bound words).1 < bound := by
  induction words with
  | nil => exact positive
  | cons word rest inductionHypothesis =>
      have bounded : word.toNat < 18446744073709551616 := word.toNat_lt
      have boundBounded : bound.toNat < 18446744073709551616 := bound.toNat_lt
      have isPositive : 0 < bound.toNat := UInt64.lt_iff_toNat_lt.mp positive
      have upper : word.toNat * bound.toNat / wordCount < bound.toNat := by
        apply Nat.div_lt_of_lt_mul
        exact Nat.mul_lt_mul_of_pos_right bounded isPositive
      have isUpper : (product word bound).1.toNat = word.toNat * bound.toNat / wordCount :=
        UInt64.toNat_ofNat_of_lt' (Nat.lt_trans upper boundBounded)
      rw [below]
      split
      · rw [UInt64.lt_iff_toNat_lt, isUpper]
        exact upper
      · exact inductionHypothesis

end Draw

/-! ## Baked bindings -/

namespace Bakery

open StateModel

variable {bakery : Bakery}

/-- A binding that can be baked is drawn leaf by leaf, from left to right, however
deep its parts are nested. One number is drawn for each leaf that offers several
variants, below the weight of the leaf and so never below zero, unless that weight
is more than a bound can count; no other number is drawn. Where the numbers stay
below their bounds, there is one model for each leaf, the one that was baked for a
variant that the leaf offers. The quads of a side are those of these models, and
only a state without leaves has no model that stands for it. -/
theorem bakeBinding_collects (name : String) {binding : Binding} {state after : BakeState}
    {model : StateModel} (baked : bakery.bakeBinding name binding state = (.ok model, after)) :
    (model.primary? = none ↔ binding.leaves = []) ∧
    ∀ (Source : Type) (draw : UInt64 → Source → UInt64 × Source) (source : Source),
      let parts := (model.collect draw source).1
      let asks := model.asked draw source
      (∀ ask ∈ asks, ∃ held, ask.number = (draw ask.bound held).1) ∧
      asks.map (fun ask => ask.bound.toNat) =
        (binding.leaves.filter Leaf.isDrawn).map (fun leaf => leaf.load % Draw.wordCount) ∧
      ((∀ leaf ∈ binding.leaves, leaf.load < Draw.wordCount) → ∀ ask ∈ asks, 0 < ask.bound) ∧
      ((∀ ask ∈ asks, ask.number < ask.bound) →
        List.Forall₂ (fun leaf part => ∃ variant ∈ leaf.offers,
          (bakery.bake variant.model variant.placement after).1 = .ok part)
          binding.leaves parts) ∧
      ∀ side, (model.drawQuads draw side source).1 =
        parts.flatMap (fun part => part.value.quads side) := by
  have assembled := (bakeBinding_built name binding baked).2
  refine ⟨primary?_eq_none_iff binding assembled, ?_⟩
  intro Source draw source parts asks
  have collects : Collects after.find draw binding.leaves (model.collect (recording draw)) :=
    collects_of_assemble binding assembled
  obtain ⟨drawnAsks, recorded, bounds, drawn, served⟩ := collects (source, [])
  have isAsks : asks = drawnAsks := recorded
  have isParts : (model.collect (recording draw) (source, [])).1 = parts :=
    (collect_recording draw model (source, [])).1
  rw [isParts] at served
  rw [isAsks]
  refine ⟨drawn, bounds, ?positive, ?models, fun side => rfl⟩
  case positive =>
    intro fits ask member
    have listed : ask.bound.toNat ∈
        (binding.leaves.filter Leaf.isDrawn).map (fun leaf => leaf.load % Draw.wordCount) :=
      bounds ▸ List.mem_map_of_mem member
    obtain ⟨leaf, isLeaf, same⟩ := List.mem_map.mp listed
    obtain ⟨leafListed, isDrawn⟩ := List.mem_filter.mp isLeaf
    rw [UInt64.lt_iff_toNat_lt, ← same, Nat.mod_eq_of_lt (fits leaf leafListed)]
    exact Leaf.load_pos isDrawn
  case models =>
    intro below
    apply (served below).imp
    rintro leaf part ⟨variant, offered, found⟩
    have again : (bakery.bake variant.key.id variant.key.placement after).1 = .ok part := by
      rw [bake_of_found found]
    exact ⟨variant, offered, again⟩

/-- A choice with one weight of zero, a part without parts, one variant and a choice
with only one positive weight. -/
def nested : Binding :=
  .composite [.composite [.weighted [⟨2, placedPlain⟩, ⟨0, placedPlain⟩, ⟨5, placedPlain⟩]],
    .composite [], .single placedPlain, .weighted [⟨0, placedPlain⟩, ⟨7, placedPlain⟩]]

/-- Three models are drawn for its three leaves, with one number below seven. -/
theorem bakeBinding_collects_nested : ∃ model after,
    plain.bakeBinding "stone" nested .start = (.ok model, after) ∧ model.primary? ≠ none ∧
      ∀ words, ((model.asked Draw.below words).map (fun ask => ask.bound.toNat) = [7]) ∧
        (model.collect Draw.below words).1.length = 3 := by
  obtain ⟨model, after, baked⟩ : ∃ model after,
      plain.bakeBinding "stone" nested .start = (.ok model, after) := ⟨_, _, rfl⟩
  obtain ⟨primary, collects⟩ := bakeBinding_collects "stone" baked
  have present : nested.leaves ≠ [] := by simp [nested, Binding.leaves, Binding.leavesOfParts]
  refine ⟨model, after, baked, fun absent => present (primary.mp absent), ?_⟩
  intro words
  obtain ⟨drawn, bounds, positive, models, _⟩ := collects (List UInt64) Draw.below words
  have fits : ∀ leaf ∈ nested.leaves, leaf.load < Draw.wordCount := by
    decide
  have below : ∀ ask ∈ model.asked Draw.below words, ask.number < ask.bound := by
    intro ask member
    obtain ⟨held, isNumber⟩ := drawn ask member
    rw [isNumber]
    exact Draw.below_lt (positive fits ask member) held
  exact ⟨bounds, (models below).length_eq.symm⟩

end Bakery

end PackModels
