import Mathlib.Data.List.Dedup
import PackModels.Proofs.Baking.Cache
import PackModels.Proofs.Baking.Misses

/-!
Contract: any sequence of bakes through one cache.

`bakeEach` bakes under some keys, one after another, and `bakeEachAfresh` does
the same without a cache. `Logged` ties the cache to the calls made so far:
its entries are the bakes that have succeeded, every call is a hit or a miss,
and every miss has either failed or left an entry. `Informed` says that what a
cached bake would miss has been recorded, so a hit need not record it again.
One call keeps both, hence every sequence does, and the two ways of baking
agree in all that a caller can see.
-/

namespace PackModels

/-- A key and what came of baking under it. -/
abbrev BakeCall : Type :=
  BakeKey × Except BakeError (Shared BakedModel)

namespace BakeCall

/-- Whether a call gave a bake. -/
def succeeds : BakeCall → Bool
  | (_, .ok _) => true
  | (_, .error _) => false

@[simp] theorem succeeds_ok (key : BakeKey) (model : Shared BakedModel) :
    succeeds (key, .ok model) = true :=
  rfl

@[simp] theorem succeeds_error (key : BakeKey) (error : BakeError) :
    succeeds (key, .error error) = false :=
  rfl

theorem succeeds_iff (call : BakeCall) :
    call.succeeds = true ↔ ∃ model, call = (call.1, .ok model) := by
  obtain ⟨key, result⟩ := call
  cases result with
  | error error => simp
  | ok model => simp

end BakeCall

namespace Bakery

/-- Bakes under some keys one after another: what came of each, in order, and
the state in the end. -/
def bakeEach (bakery : Bakery) :
    List BakeKey → BakeState → List (Except BakeError (Shared BakedModel)) × BakeState
  | [], state => ([], state)
  | key :: rest, state =>
      let first := bakery.bake key.id key.placement state
      let others := bakeEach bakery rest first.2
      (first.1 :: others.1, others.2)

/-- Bakes under some keys one after another, each without a cache. -/
def bakeEachAfresh (bakery : Bakery) :
    List BakeKey → Misses → List (Except BakeError BakedModel) × Misses
  | [], misses => ([], misses)
  | key :: rest, misses =>
      let first := Bake.model bakery.models bakery.atlases key.id key.placement misses
      let others := bakeEachAfresh bakery rest first.2
      (first.1 :: others.1, others.2)

/-- What a bake under a key gives without a cache. -/
def bakeAfresh (bakery : Bakery) (key : BakeKey) : Except BakeError BakedModel :=
  (Bake.model bakery.models bakery.atlases key.id key.placement ∅).1

variable {bakery : Bakery}

theorem model_result (key : BakeKey) (misses : Misses) :
    (Bake.model bakery.models bakery.atlases key.id key.placement misses).1 =
      bakery.bakeAfresh key :=
  Bake.chain_result bakery.atlases key.id.render (bakery.models.chain key.id)
    key.placement misses ∅

/-! ## One call -/

/-- All that a call can do: it finds a bake, or makes one that fails, or makes
one that is kept. -/
inductive Called (bakery : Bakery) (key : BakeKey) (state : BakeState) :
    Except BakeError (Shared BakedModel) × BakeState → Prop
  | found {model : Shared BakedModel} (known : state.find key = some model) :
      Called bakery key state
        (.ok model, { state with cache := { state.cache with hits := state.cache.hits + 1 } })
  | failed {error : BakeError} {missed : Misses} (unknown : state.find key = none)
      (baked : Bake.model bakery.models bakery.atlases key.id key.placement state.missed =
        (.error error, missed)) :
      Called bakery key state
        (.error error, ⟨{ state.cache with misses := state.cache.misses + 1 }, missed⟩)
  | made {model : BakedModel} {missed : Misses} (unknown : state.find key = none)
      (baked : Bake.model bakery.models bakery.atlases key.id key.placement state.missed =
        (.ok model, missed)) :
      Called bakery key state
        (.ok ⟨state.cache.misses + 1, model⟩,
          ⟨⟨state.cache.entries.insert key ⟨state.cache.misses + 1, model⟩, state.cache.hits,
              state.cache.misses + 1⟩, missed⟩)

theorem bake_called (bakery : Bakery) (key : BakeKey) (state : BakeState) :
    Called bakery key state (bakery.bake key.id key.placement state) := by
  cases known : state.find key with
  | some model =>
      rw [bake_of_found known]
      exact .found known
  | none =>
      cases baked : Bake.model bakery.models bakery.atlases key.id key.placement state.missed with
      | mk result missed =>
          cases result with
          | error error =>
              rw [bake_of_error known baked]
              exact .failed known baked
          | ok model =>
              rw [bake_of_ok known baked]
              exact .made known baked

/-- A call through a faithful cache gives the value, or the error, of a bake
without one. -/
theorem bake_value {state : BakeState} (faithful : bakery.Faithful state) (key : BakeKey) :
    (bakery.bake key.id key.placement state).1.map Shared.value = bakery.bakeAfresh key := by
  have called := bake_called bakery key state
  generalize bakery.bake key.id key.placement state = outcome at called
  cases called with
  | found known =>
      rename_i model
      have fresh : (bakery.bakeAfresh key).toOption.map (fun value => Shared.mk 0 value) =
          some model.untagged :=
        faithful.fresh key model known
      cases baked : bakery.bakeAfresh key with
      | error error =>
          rw [baked] at fresh
          cases fresh
      | ok value =>
          rw [baked] at fresh
          have same : Shared.mk 0 value = model.untagged := Option.some.inj fresh
          exact congrArg (fun held => Except.ok held.value) same.symm
  | failed unknown baked =>
      rw [← model_result key state.missed, baked]
      rfl
  | made unknown baked =>
      rw [← model_result key state.missed, baked]
      rfl

/-- A call that fails leaves every entry as it is. -/
theorem entries_of_failed {state : BakeState} {key : BakeKey} {error : BakeError}
    (failed : (bakery.bake key.id key.placement state).1 = .error error) :
    (bakery.bake key.id key.placement state).2.cache.entries = state.cache.entries := by
  have called := bake_called bakery key state
  generalize bakery.bake key.id key.placement state = outcome at called failed
  cases called with
  | found known => rfl
  | failed unknown baked => rfl
  | made unknown baked => cases failed

/-- The entries and the counts of a cache are those of the calls so far. -/
structure Logged (calls : List BakeCall) (state : BakeState) : Prop where
  held : ∀ key model, state.find key = some model ↔ (key, .ok model) ∈ calls
  looked : state.cache.hits + state.cache.misses = calls.length
  missed : state.cache.misses =
    state.cache.entries.size + calls.countP (fun call => !call.succeeds)

theorem logged_start : Logged [] .start where
  held := by
    intro key model
    rw [find_start]
    simp
  looked := rfl
  missed := rfl

section Logged

variable {calls : List BakeCall} {state : BakeState} {key : BakeKey}

/-- A call that finds a bake is a hit. -/
theorem Logged.found (logged : Logged calls state) {model : Shared BakedModel}
    (known : state.find key = some model) :
    Logged (calls ++ [(key, .ok model)])
      { state with cache := { state.cache with hits := state.cache.hits + 1 } } where
  held := by
    intro other held
    change state.find other = some held ↔ _
    rw [List.mem_append, ← logged.held]
    constructor
    · exact .inl
    · rintro (found | last)
      · exact found
      · obtain ⟨rfl, isModel⟩ := Prod.mk.inj (List.mem_singleton.mp last)
        rw [Except.ok.inj isModel, known]
  looked := by
    have looked := logged.looked
    simp only [List.length_append, List.length_singleton]
    omega
  missed := by
    simpa using logged.missed

/-- A call that fails is a miss and leaves no entry. -/
theorem Logged.failed (logged : Logged calls state) (error : BakeError) (missed : Misses) :
    Logged (calls ++ [(key, .error error)])
      ⟨{ state.cache with misses := state.cache.misses + 1 }, missed⟩ where
  held := by
    intro other held
    change state.find other = some held ↔ _
    simp [logged.held]
  looked := by
    have looked := logged.looked
    simp only [List.length_append, List.length_singleton]
    omega
  missed := by
    have missed := logged.missed
    simp only [List.countP_append, List.countP_singleton, BakeCall.succeeds_error,
      Bool.not_false, if_true]
    omega

/-- A call that makes a bake is a miss and leaves one more entry. -/
theorem Logged.made (logged : Logged calls state) (unknown : state.find key = none)
    (model : Shared BakedModel) (missed : Misses) :
    Logged (calls ++ [(key, .ok model)])
      ⟨⟨state.cache.entries.insert key model, state.cache.hits, state.cache.misses + 1⟩,
        missed⟩ where
  held := by
    intro other held
    by_cases same : other = key
    · subst same
      have new : (other, .ok held) ∉ calls := by
        intro member
        rw [← logged.held, unknown] at member
        cases member
      rw [find_insert_self]
      simp [new, eq_comm]
    · rw [find_insert_of_ne same, logged.held]
      simp [same]
  looked := by
    have looked := logged.looked
    simp only [List.length_append, List.length_singleton]
    omega
  missed := by
    have missed := logged.missed
    have absent : state.cache.entries.contains key = false := by
      rw [Std.ExtTreeMap.contains_eq_isSome_getElem?]
      exact Option.isSome_eq_false_iff.mpr (Option.isNone_iff_eq_none.mpr unknown)
    simp only [Std.ExtTreeMap.size_insert, absent, List.countP_append, List.countP_singleton,
      BakeCall.succeeds_ok, Bool.not_true, Bool.false_eq_true, if_false]
    omega

theorem Logged.call (logged : Logged calls state) (bakery : Bakery) (key : BakeKey) :
    Logged (calls ++ [(key, (bakery.bake key.id key.placement state).1)])
      (bakery.bake key.id key.placement state).2 := by
  have called := bake_called bakery key state
  generalize bakery.bake key.id key.placement state = outcome at called
  cases called with
  | found known => exact logged.found known
  | failed unknown baked => exact logged.failed _ _
  | made unknown baked => exact logged.made unknown _ _

end Logged

/-- What the bakes in a cache have missed is recorded. -/
def Informed (bakery : Bakery) (state : BakeState) : Prop :=
  ∀ key model, state.find key = some model → ∀ text, bakery.Lacks key.id text →
    state.missed.Reports key.id.render text

theorem informed_start (bakery : Bakery) : bakery.Informed .start := by
  intro key model found
  rw [find_start] at found
  cases found

/-- A call adds what its model lacks, and nothing else, whether it finds a
bake, makes one or fails. -/
theorem bake_adds {state : BakeState} (informed : bakery.Informed state) (key : BakeKey) :
    Misses.Adds state.missed (bakery.bake key.id key.placement state).2.missed
        (fun model text => key.id.render = model ∧ bakery.Lacks key.id text) ∧
      bakery.Informed (bakery.bake key.id key.placement state).2 := by
  have adds := bakery.model_adds key state.missed
  have called := bake_called bakery key state
  generalize bakery.bake key.id key.placement state = outcome at called
  cases called with
  | found known =>
      rename_i model
      refine ⟨Misses.adds_of_reported ?_, informed⟩
      rintro name text ⟨rfl, lacks⟩
      exact informed key model known text lacks
  | failed unknown baked =>
      rw [baked] at adds
      refine ⟨adds, ?_⟩
      intro other held found text lacks
      exact (adds.reports _ _).mpr (.inl (informed other held found text lacks))
  | made unknown baked =>
      rw [baked] at adds
      refine ⟨adds, ?_⟩
      intro other held found text lacks
      by_cases same : other = key
      · subst same
        exact (adds.reports _ _).mpr (.inr ⟨rfl, lacks⟩)
      · rw [find_insert_of_ne same] at found
        exact (adds.reports _ _).mpr (.inl (informed other held found text lacks))

/-! ## Sequences of calls -/

/-- The calls of a sequence with what came of them. -/
def callsOf (bakery : Bakery) (keys : List BakeKey) (state : BakeState) : List BakeCall :=
  keys.zip (bakery.bakeEach keys state).1

theorem bakeEach_faithful {state : BakeState} (faithful : bakery.Faithful state)
    (keys : List BakeKey) : bakery.Faithful (bakery.bakeEach keys state).2 := by
  induction keys generalizing state with
  | nil => exact faithful
  | cons key rest inductionHypothesis =>
      exact inductionHypothesis (bake_outcome faithful key).faithful

theorem bakeEach_values {state : BakeState} (faithful : bakery.Faithful state)
    (keys : List BakeKey) :
    (bakery.bakeEach keys state).1.map (Except.map Shared.value) =
      keys.map bakery.bakeAfresh := by
  induction keys generalizing state with
  | nil => rfl
  | cons key rest inductionHypothesis =>
      rw [bakeEach, List.map_cons, List.map_cons, bake_value faithful key,
        inductionHypothesis (bake_outcome faithful key).faithful]

theorem bakeEachAfresh_values (keys : List BakeKey) (misses : Misses) :
    (bakery.bakeEachAfresh keys misses).1 = keys.map bakery.bakeAfresh := by
  induction keys generalizing misses with
  | nil => rfl
  | cons key rest inductionHypothesis =>
      rw [bakeEachAfresh, List.map_cons, model_result, inductionHypothesis]

theorem Logged.calls {calls : List BakeCall} {state : BakeState} (logged : Logged calls state)
    (bakery : Bakery) (keys : List BakeKey) :
    Logged (calls ++ bakery.callsOf keys state) (bakery.bakeEach keys state).2 := by
  induction keys generalizing calls state with
  | nil => simpa [callsOf, bakeEach] using logged
  | cons key rest inductionHypothesis =>
      have next := inductionHypothesis (logged.call bakery key)
      rw [List.append_assoc] at next
      exact next

/-- The entries of a cache are as many as the keys that have succeeded. -/
theorem Logged.size_eq {calls : List BakeCall} {state : BakeState}
    (logged : Logged calls state) :
    state.cache.entries.size = ((calls.filter BakeCall.succeeds).map Prod.fst).dedup.length := by
  rw [← Std.ExtTreeMap.length_keys]
  apply List.Perm.length_eq
  rw [List.perm_ext_iff_of_nodup Std.ExtTreeMap.nodup_keys (List.nodup_dedup _)]
  intro key
  rw [Std.ExtTreeMap.mem_keys, Std.ExtTreeMap.mem_iff_isSome_getElem?, Option.isSome_iff_exists,
    List.mem_dedup, List.mem_map]
  constructor
  · rintro ⟨model, found⟩
    have call := (logged.held key model).mp found
    exact ⟨(key, .ok model), List.mem_filter.mpr ⟨call, rfl⟩, rfl⟩
  · rintro ⟨call, member, rfl⟩
    obtain ⟨made, succeeded⟩ := List.mem_filter.mp member
    obtain ⟨model, same⟩ := (BakeCall.succeeds_iff call).mp succeeded
    exact ⟨model, (logged.held call.1 model).mpr (same ▸ made)⟩

/-- A sequence of calls adds what the models of its keys lack. -/
theorem bakeEach_adds {state : BakeState} (informed : bakery.Informed state)
    (keys : List BakeKey) :
    Misses.Adds state.missed (bakery.bakeEach keys state).2.missed
        (fun model text => ∃ key ∈ keys, key.id.render = model ∧ bakery.Lacks key.id text) ∧
      bakery.Informed (bakery.bakeEach keys state).2 := by
  induction keys generalizing state with
  | nil => exact ⟨(Misses.adds_nothing state.missed).congr (by simp), informed⟩
  | cons key rest inductionHypothesis =>
      obtain ⟨own, next⟩ := bake_adds informed key
      obtain ⟨others, last⟩ := inductionHypothesis next
      refine ⟨(own.trans others).congr fun model text => ?_, last⟩
      simp only [List.mem_cons, exists_eq_or_imp]

theorem bakeEachAfresh_adds (bakery : Bakery) (keys : List BakeKey) (misses : Misses) :
    Misses.Adds misses (bakery.bakeEachAfresh keys misses).2
      (fun model text => ∃ key ∈ keys, key.id.render = model ∧ bakery.Lacks key.id text) := by
  induction keys generalizing misses with
  | nil => exact (Misses.adds_nothing misses).congr (by simp)
  | cons key rest inductionHypothesis =>
      have own := bakery.model_adds key misses
      have others := inductionHypothesis
        (Bake.model bakery.models bakery.atlases key.id key.placement misses).2
      refine (own.trans others).congr fun model text => ?_
      simp only [List.mem_cons, exists_eq_or_imp]

/-- Baking with a cache cannot be told from baking without one, whatever is
baked and however often. Every call gives the value or the error of a fresh
bake, and the same texts are missed. Bakes are one instance exactly when their
keys agree. The entries are the bakes that have succeeded, a failing call
changes none of them, and every call is a hit or a miss: the first success of a
key and every failure miss. -/
theorem bakeEach_eq_afresh (bakery : Bakery) (keys : List BakeKey) :
    let run := bakery.bakeEach keys .start
    let calls := bakery.callsOf keys .start
    let plain := bakery.bakeEachAfresh keys ∅
    (run.1.map (Except.map Shared.value) = plain.1 ∧
      plain.1 = keys.map bakery.bakeAfresh) ∧
    (∀ left right model model', (left, .ok model) ∈ calls → (right, .ok model') ∈ calls →
      (model.same model' = true ↔ left = right)) ∧
    (∀ key model, run.2.cache.entries[key]? = some model ↔ (key, .ok model) ∈ calls) ∧
    (∀ (before : BakeState) (key : BakeKey) (error : BakeError),
      (bakery.bake key.id key.placement before).1 = .error error →
        (bakery.bake key.id key.placement before).2.cache.entries = before.cache.entries) ∧
    run.2.cache.hits + run.2.cache.misses = keys.length ∧
    run.2.cache.misses = ((calls.filter BakeCall.succeeds).map Prod.fst).dedup.length
      + calls.countP (fun call => !call.succeeds) ∧
    run.2.missed = plain.2 := by
  intro run calls plain
  have faithful : bakery.Faithful run.2 := bakeEach_faithful faithful_start keys
  have logged : Logged calls run.2 := logged_start.calls bakery keys
  have values : run.1.map (Except.map Shared.value) = keys.map bakery.bakeAfresh :=
    bakeEach_values faithful_start keys
  have plainValues : plain.1 = keys.map bakery.bakeAfresh := bakeEachAfresh_values keys ∅
  refine ⟨⟨values.trans plainValues.symm, plainValues⟩, ?instances, logged.held,
    fun before key error failed => entries_of_failed failed, ?looked, ?missed, ?recorded⟩
  case instances =>
    intro left right model model' leftCall rightCall
    have foundLeft := (logged.held left model).mpr leftCall
    have foundRight := (logged.held right model').mpr rightCall
    rw [Shared.same, beq_iff_eq]
    constructor
    · exact faithful.tagged.apart left right model model' foundLeft foundRight
    · rintro rfl
      rw [foundLeft] at foundRight
      rw [Option.some.inj foundRight]
  case looked =>
    have answered : run.1.length = keys.length := by
      simpa using congrArg List.length values
    have zipped : calls.length = min keys.length run.1.length := List.length_zip
    rw [logged.looked, zipped, answered, Nat.min_self]
  case missed =>
    rw [logged.missed, logged.size_eq]
  case recorded =>
    exact (bakeEach_adds (informed_start bakery) keys).1.unique Misses.substantial_empty
      (bakeEachAfresh_adds bakery keys ∅)

end Bakery

end PackModels
