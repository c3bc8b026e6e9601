import Mathlib.Order.Bounds.Defs
import PackModels.Proofs.Groups

/-!
Contract: groups divide the states of a registry by what decides their looks.

States that draw nothing have the code zero. Every other state is drawn from
its binding and from the values of the tint properties that its block really
has. It is alone where it has no binding, or where no other state has both in
common with it; all others have positive codes, one for each look. The positive
codes are the numbers from one to the count of the groups, in the order of the
first states of the groups.

Owns: `Drawn`, what decides the look of a state, said without the numbering of
looks, and `Divided`, what groups are.
-/

namespace PackModels

namespace Groups

variable {tints : TintSource} {registry : Registry} {bindings : BindingTable}

/-! ## What decides a look -/

/-- What decides the look of a state: it draws something from a binding, and
these are the values of the tint properties that its block really has, in the
order of the tint source. -/
structure Drawn (tints : TintSource) (registry : Registry) (bindings : BindingTable)
    (state : StateHandle) (binding : Binding) (values : List String) : Prop where
  visible : registry.shape? state ≠ some .invisible
  bound : ∃ id, registry.stateId? state = some id ∧ bindings[id]? = some binding
  tinted : ∃ block, registry.blockOf? state = some block ∧
    (tints block).filterMap (registry.value? state) = values

/-- Whether two states are drawn from one binding with the same values. -/
def Alike (tints : TintSource) (registry : Registry) (bindings : BindingTable)
    (left right : StateHandle) : Prop :=
  ∃ binding values, Drawn tints registry bindings left binding values ∧
    Drawn tints registry bindings right binding values

theorem isInvisible_iff (state : StateHandle) :
    Look.isInvisible registry state = true ↔ registry.shape? state = some .invisible := by
  unfold Look.isInvisible
  rw [beq_iff_eq]

/-- Positions of properties lead to the same values as their names. -/
theorem tintsOf_eq {state : StateHandle} {block : BlockDef}
    (owner : registry.blockOf? state = some block) :
    Look.tintsOf tints registry state = (tints block).filterMap (registry.value? state) := by
  have byName : ∀ name, registry.value? state name =
      (block.propertyIndex? name).bind (registry.valueAt? state) := by
    intro name
    unfold Registry.value? Registry.valueAt? Registry.chosen?
    rw [owner]
    cases registry.state? state with
    | none => cases block.propertyIndex? name <;> rfl
    | some found => rfl
  unfold Look.tintsOf
  rw [owner]
  dsimp only
  rw [List.filterMap_filterMap]
  exact List.filterMap_congr (fun name _ => (byName name).symm)

theorem drawn_iff {state : StateHandle} {binding : Binding} {values : List String} :
    Drawn tints registry bindings state binding values ↔
      Look.ofState? tints registry bindings state = some ⟨binding, values⟩ := by
  constructor
  · intro drawn
    obtain ⟨id, named, bound⟩ := drawn.bound
    obtain ⟨block, owner, tinted⟩ := drawn.tinted
    have visible : ¬Look.isInvisible registry state = true :=
      fun hidden => drawn.visible ((isInvisible_iff state).mp hidden)
    have binds : Look.bindingOf? registry bindings state = some binding := by
      unfold Look.bindingOf?
      rw [named, Option.bind_some, bound]
    unfold Look.ofState?
    rw [if_neg visible, binds, Option.map_some, tintsOf_eq owner, tinted]
  · intro has
    obtain ⟨visible, binds, tinted⟩ := of_ofState? has
    obtain ⟨id, named, bound⟩ := Option.bind_eq_some_iff.mp binds
    obtain ⟨block, owner, _⟩ := Option.bind_eq_some_iff.mp named
    refine ⟨?visible, ⟨id, named, bound⟩, ⟨block, owner, (tintsOf_eq owner).symm.trans tinted⟩⟩
    case visible =>
      intro hidden
      rw [(isInvisible_iff state).mpr hidden] at visible
      cases visible

theorem alike_iff {left right : StateHandle} :
    Alike tints registry bindings left right ↔
      ∃ look, Look.ofState? tints registry bindings left = some look ∧
        Look.ofState? tints registry bindings right = some look := by
  constructor
  · rintro ⟨binding, values, drawn, drawn'⟩
    exact ⟨⟨binding, values⟩, drawn_iff.mp drawn, drawn_iff.mp drawn'⟩
  · rintro ⟨⟨binding, values⟩, has, has'⟩
    exact ⟨binding, values, drawn_iff.mpr has, drawn_iff.mpr has'⟩

/-! ## Looks of states in order -/

/-- A range is cut at each of its members. -/
theorem range_split {count state : Nat} (inside : state < count) :
    List.range count =
      List.range state ++ state :: List.range' (state + 1) (count - (state + 1)) := by
  have cut : count = state + (1 + (count - (state + 1))) := by omega
  conv_lhs => rw [cut]
  rw [List.range_eq_range', List.range_eq_range', ← List.range'_append_1, ← List.range'_append_1]
  simp

/-- A look is there more than once exactly if another state has it. -/
theorem one_lt_count_iff {look? : Nat → Option Look} {count state : Nat} {look : Look}
    (inside : state < count) (has : look? state = some look) :
    1 < ((List.range count).filterMap look?).count look ↔
      ∃ other < count, other ≠ state ∧ look? other = some look := by
  rw [range_split inside, List.filterMap_append, List.filterMap_cons_some has, List.count_append,
    List.count_cons_self]
  have before : 0 < ((List.range state).filterMap look?).count look ↔
      ∃ other < state, look? other = some look := by
    rw [List.count_pos_iff, List.mem_filterMap]
    simp only [List.mem_range]
  have after : 0 < ((List.range' (state + 1) (count - (state + 1))).filterMap look?).count look ↔
      ∃ other, (state < other ∧ other < count) ∧ look? other = some look := by
    rw [List.count_pos_iff, List.mem_filterMap]
    have bounds : ∀ other, other ∈ List.range' (state + 1) (count - (state + 1)) ↔
        state < other ∧ other < count := by
      intro other
      rw [List.mem_range'_1]
      omega
    simp only [bounds]
  constructor
  · intro several
    by_cases early : 0 < ((List.range state).filterMap look?).count look
    · obtain ⟨other, less, same⟩ := before.mp early
      exact ⟨other, by omega, by omega, same⟩
    · obtain ⟨other, bounds, same⟩ := after.mp (by omega)
      exact ⟨other, bounds.2, by omega, same⟩
  · rintro ⟨other, known, different, same⟩
    rcases Nat.lt_or_gt_of_ne different with less | greater
    · have early := before.mpr ⟨other, less, same⟩
      omega
    · have late := after.mpr ⟨other, ⟨greater, known⟩, same⟩
      omega

/-- Looks are passed in the order of the first states that have them. -/
theorem idxOf_lt_of_lt {look? : Nat → Option Look} {count left right : Nat}
    {look look' : Look} (less : left < right) (inside : right < count)
    (has : look? left = some look) (has' : look? right = some look')
    (first : ∀ other < right, look? other ≠ some look') :
    ((List.range count).filterMap look?).idxOf look <
      ((List.range count).filterMap look?).idxOf look' := by
  rw [range_split inside, List.filterMap_append, List.filterMap_cons_some has']
  have early : look ∈ (List.range right).filterMap look? :=
    List.mem_filterMap.mpr ⟨left, List.mem_range.mpr less, has⟩
  have late : look' ∉ (List.range right).filterMap look? := by
    intro found
    obtain ⟨other, earlier, same⟩ := List.mem_filterMap.mp found
    exact first other (List.mem_range.mp earlier) same
  rw [List.idxOf_append_of_mem early, List.idxOf_append_of_notMem late, List.idxOf_cons_self]
  exact List.idxOf_lt_length_of_mem early

/-! ## Groups of states -/

/-- The numbers that looks get when groups are made. -/
def numbered (tints : TintSource) (registry : Registry) (bindings : BindingTable) :
    Std.HashMap Look Nat :=
  Look.numbers
    ((List.range registry.stateCount).filterMap (Look.ofState? tints registry bindings))

theorem numbered_ordinal (tints : TintSource) (registry : Registry) (bindings : BindingTable) :
    let looks := (List.range registry.stateCount).filterMap
      (Look.ofState? tints registry bindings)
    Look.Ordinal (fun look => 1 < looks.count look) looks
      (fun look => (numbered tints registry bindings)[look]?)
      (build tints registry bindings).count := by
  have sameLooks : (registry.handles.map (Look.ofState? tints registry bindings)).filterMap id =
      (List.range registry.stateCount).filterMap (Look.ofState? tints registry bindings) :=
    List.filterMap_map
  have counted : (build tints registry bindings).count =
      (numbered tints registry bindings).size := by
    unfold build numbered
    dsimp only
    rw [sameLooks]
  rw [counted]
  exact Look.ordinal_numbers _

theorem group_eq_place (state : StateHandle) (known : state < registry.stateCount) :
    (build tints registry bindings).group state =
      place (numbered tints registry bindings) (Look.isInvisible registry state)
        (Look.ofState? tints registry bindings state) := by
  rw [group_build, if_pos known, List.filterMap_map]
  rfl

theorem group_eq_invisible_iff {state : StateHandle} (known : state < registry.stateCount) :
    (build tints registry bindings).group state = .invisible ↔
      registry.shape? state = some .invisible := by
  rw [← isInvisible_iff, group_eq_place state known]
  constructor
  · intro placed
    rcases place_cases placed (by simp) with ⟨hidden, _⟩ | ⟨_, _, _, _, differs⟩
    · exact hidden
    · cases differs
  · intro hidden
    unfold place
    rw [if_pos hidden]

theorem group_eq_shared_iff {state : StateHandle} (known : state < registry.stateCount)
    {number : Nat} :
    (build tints registry bindings).group state = .shared number ↔
      ∃ look, Look.ofState? tints registry bindings state = some look ∧
        (numbered tints registry bindings)[look]? = some number := by
  rw [group_eq_place state known]
  constructor
  · intro placed
    rcases place_cases placed (by simp) with ⟨_, differs⟩ | ⟨look, number', has, found, same⟩
    · cases differs
    · cases same
      exact ⟨look, has, found⟩
  · rintro ⟨look, has, found⟩
    have visible := (of_ofState? has).1
    unfold place
    rw [visible, if_neg (by simp), has]
    dsimp only
    rw [found]

/-- A look gets a number exactly if another state has it too. -/
theorem exists_numbered_iff {state : StateHandle} {look : Look}
    (known : state < registry.stateCount)
    (has : Look.ofState? tints registry bindings state = some look) :
    (∃ number, (numbered tints registry bindings)[look]? = some number) ↔
      ∃ other < registry.stateCount, other ≠ state ∧
        Look.ofState? tints registry bindings other = some look := by
  have present : look ∈ (List.range registry.stateCount).filterMap
      (Look.ofState? tints registry bindings) :=
    List.mem_filterMap.mpr ⟨state, List.mem_range.mpr known, has⟩
  rw [(numbered_ordinal tints registry bindings).known look, and_iff_right present]
  exact one_lt_count_iff known has

/-- Looks are numbered in the order of the first states that have them. -/
theorem numbered_lt_of_lt {left right : StateHandle} {look look' : Look} {number number' : Nat}
    (less : left < right) (known : right < registry.stateCount)
    (has : Look.ofState? tints registry bindings left = some look)
    (has' : Look.ofState? tints registry bindings right = some look')
    (first : ∀ other < right, Look.ofState? tints registry bindings other ≠ some look')
    (found : (numbered tints registry bindings)[look]? = some number)
    (found' : (numbered tints registry bindings)[look']? = some number') : number < number' := by
  have ordinal := numbered_ordinal tints registry bindings
  have earlier := idxOf_lt_of_lt less known has has' first
  rcases Nat.lt_trichotomy number number' with below | same | above
  · exact below
  · have sameLook := ordinal.tagged.apart look look' number number' found found' same
    rw [sameLook] at earlier
    exact absurd earlier (Nat.lt_irrefl _)
  · have later := ordinal.ordered look' look number' number found' found above
    exact absurd earlier (Nat.lt_asymm later)

/-! ## Codes of groups -/

theorem code_eq_neg_one_iff (group : Group) : group.code = -1 ↔ group = .alone := by
  cases group with
  | invisible => decide
  | alone => decide
  | shared number =>
      refine ⟨fun same => ?_, fun same => ?_⟩
      · have nonnegative : (Group.shared number).code = (number : Int) := rfl
        omega
      · cases same

/-- A positive code belongs to a numbered group. -/
theorem code_pos_cases {group : Group} {code : Int} (same : group.code = code)
    (positive : 0 < code) : ∃ number : Nat, group = .shared number ∧ code = number := by
  cases group with
  | invisible =>
      rw [← same] at positive
      exact absurd positive (by decide)
  | alone =>
      rw [← same] at positive
      exact absurd positive (by decide)
  | shared number => exact ⟨number, rfl, same.symm⟩

theorem shared_bounds {state : StateHandle} {number : Nat}
    (grouped : (build tints registry bindings).group state = .shared number) :
    0 < number ∧ number ≤ (build tints registry bindings).count := by
  have known := lt_of_group_ne_alone (grouped.trans_ne (by simp))
  obtain ⟨look, _, found⟩ := (group_eq_shared_iff known).mp grouped
  have ordinal := numbered_ordinal tints registry bindings
  exact ⟨ordinal.tagged.positive look number found, ordinal.tagged.bounded look number found⟩

theorem code_eq_zero_iff {state : StateHandle} :
    ((build tints registry bindings).group state).code = 0 ↔
      (build tints registry bindings).group state = .invisible := by
  cases grouped : (build tints registry bindings).group state with
  | invisible => decide
  | alone => decide
  | shared number =>
      have bounds := shared_bounds grouped
      refine ⟨fun same => ?_, fun same => ?_⟩
      · have positive : (Group.shared number).code = (number : Int) := rfl
        omega
      · cases same

/-- A state without a numbered group draws nothing, has no binding, or is the
only one with its look. -/
theorem group_eq_alone_iff {state : StateHandle} (known : state < registry.stateCount) :
    (build tints registry bindings).group state = .alone ↔
      registry.shape? state ≠ some .invisible ∧
        ((∀ id, registry.stateId? state = some id → bindings[id]? = none) ∨
          ∀ other < registry.stateCount,
            Alike tints registry bindings state other → other = state) := by
  constructor
  · intro alone
    have visible : registry.shape? state ≠ some .invisible := by
      intro hidden
      rw [(group_eq_invisible_iff known).mpr hidden] at alone
      cases alone
    refine ⟨visible, ?_⟩
    cases has : Look.ofState? tints registry bindings state with
    | none =>
        left
        intro id named
        have shown : ¬Look.isInvisible registry state = true :=
          fun hidden => visible ((isInvisible_iff state).mp hidden)
        unfold Look.ofState? Look.bindingOf? at has
        rw [if_neg shown, Option.map_eq_none_iff, named, Option.bind_some] at has
        exact has
    | some look =>
        right
        intro other knownOther alike
        obtain ⟨look', has', hasOther⟩ := alike_iff.mp alike
        obtain rfl : look = look' := Option.some.inj (has.symm.trans has')
        by_contra different
        obtain ⟨number, found⟩ :=
          (exists_numbered_iff known has).mpr ⟨other, knownOther, different, hasOther⟩
        rw [(group_eq_shared_iff known).mpr ⟨look, has, found⟩] at alone
        cases alone
  · rintro ⟨visible, unshared⟩
    cases grouped : (build tints registry bindings).group state with
    | invisible => exact absurd ((group_eq_invisible_iff known).mp grouped) visible
    | alone => rfl
    | shared number =>
        obtain ⟨look, has, found⟩ := (group_eq_shared_iff known).mp grouped
        rcases unshared with unbound | only
        · obtain ⟨id, named, bound⟩ := (drawn_iff.mpr has).bound
          rw [unbound id named] at bound
          cases bound
        · obtain ⟨other, knownOther, different, hasOther⟩ :=
            (exists_numbered_iff known has).mp ⟨number, found⟩
          exact absurd (only other knownOther (alike_iff.mpr ⟨look, has, hasOther⟩)) different

/-- States of numbered groups are in one group exactly if they are alike. -/
theorem shared_eq_iff {left right : StateHandle} {number number' : Nat}
    (grouped : (build tints registry bindings).group left = .shared number)
    (grouped' : (build tints registry bindings).group right = .shared number') :
    number = number' ↔ Alike tints registry bindings left right := by
  have known := lt_of_group_ne_alone (grouped.trans_ne (by simp))
  have known' := lt_of_group_ne_alone (grouped'.trans_ne (by simp))
  obtain ⟨look, has, found⟩ := (group_eq_shared_iff known).mp grouped
  obtain ⟨look', has', found'⟩ := (group_eq_shared_iff known').mp grouped'
  rw [alike_iff]
  constructor
  · intro same
    have sameLook := (numbered_ordinal tints registry bindings).tagged.apart look look' number
      number' found found' same
    exact ⟨look, has, sameLook ▸ has'⟩
  · rintro ⟨common, hasCommon, hasCommon'⟩
    obtain rfl : look = common := Option.some.inj (has.symm.trans hasCommon)
    obtain rfl : look' = look := Option.some.inj (has'.symm.trans hasCommon')
    exact Option.some.inj (found.symm.trans found')

theorem exists_shared_iff {number : Nat} :
    (∃ state, (build tints registry bindings).group state = .shared number) ↔
      0 < number ∧ number ≤ (build tints registry bindings).count := by
  constructor
  · rintro ⟨state, grouped⟩
    exact shared_bounds grouped
  · rintro ⟨positive, bounded⟩
    have ordinal := numbered_ordinal tints registry bindings
    obtain ⟨look, found⟩ := ordinal.onto number positive bounded
    obtain ⟨state, known, has⟩ := List.mem_filterMap.mp (ordinal.mem_done found)
    exact ⟨state, (group_eq_shared_iff (List.mem_range.mp known)).mpr ⟨look, has, found⟩⟩

/-- A numbered group has two states. -/
theorem exists_other_of_shared {state : StateHandle} {number : Nat}
    (grouped : (build tints registry bindings).group state = .shared number) :
    ∃ other < registry.stateCount, other ≠ state ∧
      (build tints registry bindings).group other = .shared number := by
  have known := lt_of_group_ne_alone (grouped.trans_ne (by simp))
  obtain ⟨look, has, found⟩ := (group_eq_shared_iff known).mp grouped
  obtain ⟨other, knownOther, different, hasOther⟩ :=
    (exists_numbered_iff known has).mp ⟨number, found⟩
  exact ⟨other, knownOther, different,
    (group_eq_shared_iff knownOther).mpr ⟨look, hasOther, found⟩⟩

/-- Groups are numbered in the order of their first states. -/
theorem number_lt_of_first_lt {left right : StateHandle} {number number' : Nat}
    (less : left < right)
    (grouped : (build tints registry bindings).group left = .shared number)
    (grouped' : (build tints registry bindings).group right = .shared number')
    (first : ∀ other, (build tints registry bindings).group other = .shared number' →
      right ≤ other) : number < number' := by
  have known := lt_of_group_ne_alone (grouped.trans_ne (by simp))
  have known' := lt_of_group_ne_alone (grouped'.trans_ne (by simp))
  obtain ⟨look, has, found⟩ := (group_eq_shared_iff known).mp grouped
  obtain ⟨look', has', found'⟩ := (group_eq_shared_iff known').mp grouped'
  apply numbered_lt_of_lt less known' has has' ?_ found found'
  intro other earlier hasOther
  have member := (group_eq_shared_iff (Nat.lt_trans earlier known')).mpr
    ⟨look', hasOther, found'⟩
  exact absurd earlier (Nat.not_lt.mpr (first other member))

/-- What groups are: how they divide the states of a registry. -/
structure Divided (tints : TintSource) (registry : Registry) (bindings : BindingTable)
    (groups : Groups) : Prop where
  covers : groups.members.size = registry.stateCount
  hidden : ∀ state < registry.stateCount, (groups.group state).code = 0 ↔
    registry.shape? state = some .invisible
  single : ∀ state < registry.stateCount, (groups.group state).code = -1 ↔
    registry.shape? state ≠ some .invisible ∧
      ((∀ id, registry.stateId? state = some id → bindings[id]? = none) ∨
        ∀ other < registry.stateCount, Alike tints registry bindings state other → other = state)
  positive : ∀ state < registry.stateCount, (groups.group state).code ≠ 0 →
    (groups.group state).code ≠ -1 → 0 < (groups.group state).code
  together : ∀ left < registry.stateCount, ∀ right < registry.stateCount,
    0 < (groups.group left).code → 0 < (groups.group right).code →
      ((groups.group left).code = (groups.group right).code ↔
        Alike tints registry bindings left right)
  used : ∀ code : Int,
    (0 < code ∧ ∃ state < registry.stateCount, (groups.group state).code = code) ↔
      1 ≤ code ∧ code ≤ groups.count
  several : ∀ state < registry.stateCount, 0 < (groups.group state).code →
    ∃ other < registry.stateCount, other ≠ state ∧
      (groups.group other).code = (groups.group state).code
  ordered : ∀ (left right : Int) (first first' : StateHandle), 0 < left → 0 < right →
    IsLeast { state | (groups.group state).code = left } first →
    IsLeast { state | (groups.group state).code = right } first' →
      (left < right ↔ first < first')

/-- **Groups divide the states.** Whatever the tint source, the registry and
the bindings are, the groups that are made of them are as `Divided` says. -/
theorem build_divided (tints : TintSource) (registry : Registry) (bindings : BindingTable) :
    Divided tints registry bindings (build tints registry bindings) where
  covers := by
    unfold build
    simp [Registry.handles]
  hidden := fun state known => code_eq_zero_iff.trans (group_eq_invisible_iff known)
  single := fun state known => (code_eq_neg_one_iff _).trans (group_eq_alone_iff known)
  positive := by
    intro state _ notZero notAlone
    cases grouped : (build tints registry bindings).group state with
    | invisible => exact absurd (code_eq_zero_iff.mpr grouped) notZero
    | alone => exact absurd ((code_eq_neg_one_iff _).mpr grouped) notAlone
    | shared number => exact Int.natCast_pos.mpr (shared_bounds grouped).1
  together := by
    intro left _ right _ positive positive'
    obtain ⟨number, grouped, code⟩ := code_pos_cases rfl positive
    obtain ⟨number', grouped', code'⟩ := code_pos_cases rfl positive'
    rw [code, code', Int.natCast_inj]
    exact shared_eq_iff grouped grouped'
  used := by
    intro code
    constructor
    · rintro ⟨positive, state, _, same⟩
      obtain ⟨number, grouped, rfl⟩ := code_pos_cases same positive
      have bounds := shared_bounds grouped
      omega
    · rintro ⟨positive, bounded⟩
      obtain ⟨number, rfl⟩ := Int.eq_ofNat_of_zero_le (show 0 ≤ code by omega)
      have inUse : 0 < number ∧ number ≤ (build tints registry bindings).count := by omega
      obtain ⟨state, grouped⟩ := exists_shared_iff.mpr inUse
      exact ⟨by omega, state, lt_of_group_ne_alone (grouped.trans_ne (by simp)),
        congrArg Group.code grouped⟩
  several := by
    intro state _ positive
    obtain ⟨number, grouped, _⟩ := code_pos_cases rfl positive
    obtain ⟨other, known, different, member⟩ := exists_other_of_shared grouped
    exact ⟨other, known, different, congrArg Group.code (member.trans grouped.symm)⟩
  ordered := by
    intro left right first first' positive positive' least least'
    obtain ⟨number, grouped, rfl⟩ := code_pos_cases least.1 positive
    obtain ⟨number', grouped', rfl⟩ := code_pos_cases least'.1 positive'
    have early : ∀ other, (build tints registry bindings).group other = .shared number →
        first ≤ other := fun other member => least.2 (congrArg Group.code member)
    have early' : ∀ other, (build tints registry bindings).group other = .shared number' →
        first' ≤ other := fun other member => least'.2 (congrArg Group.code member)
    rcases Nat.lt_trichotomy first first' with less | same | greater
    · have below := number_lt_of_first_lt less grouped grouped' early'
      exact iff_of_true (Int.ofNat_lt.mpr below) less
    · have equal : number = number' :=
        Group.shared.inj (grouped.symm.trans ((congrArg _ same).trans grouped'))
      rw [same, equal]
      exact iff_of_false (Int.lt_irrefl _) (Nat.lt_irrefl _)
    · have above := number_lt_of_first_lt greater grouped' grouped early
      exact iff_of_false (by omega) (Nat.lt_asymm greater)

end Groups

end PackModels
