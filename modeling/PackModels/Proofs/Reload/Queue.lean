import Mathlib.Data.List.Perm.Basic
import Mathlib.Data.List.Range
import Mathlib.Tactic.ByContra
import PackModels.Reload.Queue

/-!
Contract: whatever the order of events, the highest reload that has been
received is the one that is live.

A history tells what has been started and what has been received along a run.
`Tracked` says that each started reload is at one place, running, delivered or
received, and that what it delivers is what it has prepared. `Applied` says
that the queue shows the highest successful number of the history. Every event
keeps both.
-/

namespace PackModels

namespace ReloadOutcome

/-- The number of a successful outcome. -/
def success? (outcome : ReloadOutcome) : Option Nat :=
  outcome.prepared.map (fun _ => outcome.sequence)

end ReloadOutcome

namespace ReloadQueue

/-- What has happened along a run, in order. -/
structure History where
  started : List RunningReload
  /-- The numbers of the reloads that have finished behind an open gate. -/
  succeeded : List Nat
  received : List ReloadOutcome

namespace History

/-- Nothing has happened. -/
def empty : History :=
  ⟨[], [], []⟩

variable (past : History)

/-- The numbers of the successful outcomes received. -/
def successes : List Nat :=
  past.received.filterMap ReloadOutcome.success?

def start (started : List RunningReload) : History :=
  { past with started := past.started ++ started }

def receive (received : List ReloadOutcome) : History :=
  { past with received := past.received ++ received }

@[simp] theorem receive_nil : past.receive [] = past := by
  simp [receive]

theorem receive_receive (first rest : List ReloadOutcome) :
    (past.receive first).receive rest = past.receive (first ++ rest) := by
  simp [receive]

/-- A reload that runs finishes. -/
def finish (running : List RunningReload) (sequence : Nat) : GateEnd → History
  | .opened =>
      { past with
        succeeded := past.succeeded
          ++ ((running.find? (fun reload => reload.sequence == sequence)).map
            RunningReload.sequence).toList }
  | .lost => past

/-- What an event adds to a history. -/
def after (queue : ReloadQueue) : ReloadEvent → History
  | .ask _ => past
  | .start taken => past.start (queue.starting taken)
  | .finish sequence gate => past.finish queue.running sequence gate
  | .receive => past.receive (queue.delivered.take 1)
  | .collect => past.receive queue.delivered

/-- The history of a run. -/
def along : History → ReloadQueue → List ReloadEvent → History
  | past, _, [] => past
  | past, queue, event :: rest => along (past.after queue event) (queue.step event).1 rest

end History

/-- How many numbers of a list are greater than all that come before them. -/
def newMaxima (before : List Nat) : List Nat → Nat
  | [] => 0
  | number :: rest =>
      (if ∀ other ∈ before, other < number then 1 else 0)
        + newMaxima (before ++ [number]) rest

/-! ## Maxima -/

theorem newMaxima_append (before front : List Nat) (number : Nat) :
    newMaxima before (front ++ [number]) =
      newMaxima before front + if ∀ other ∈ before ++ front, other < number then 1 else 0 := by
  induction front generalizing before with
  | nil => simp [newMaxima]
  | cons first rest inductionHypothesis =>
      rw [List.cons_append, newMaxima, newMaxima, inductionHypothesis]
      simp only [List.append_assoc, List.singleton_append]
      omega

theorem max?_append_of_lt {numbers : List Nat} {number : Nat}
    (above : ∀ other ∈ numbers, other < number) : (numbers ++ [number]).max? = some number := by
  rw [List.max?_eq_some_iff]
  refine ⟨by simp, ?_⟩
  intro other member
  rcases List.mem_append.mp member with before | last
  · exact Nat.le_of_lt (above other before)
  · exact Nat.le_of_eq (List.mem_singleton.mp last)

theorem max?_append_of_le {numbers : List Nat} {number highest : Nat}
    (isHighest : numbers.max? = some highest) (below : number ≤ highest) :
    (numbers ++ [number]).max? = some highest := by
  obtain ⟨member, bound⟩ := List.max?_eq_some_iff.mp isHighest
  rw [List.max?_eq_some_iff]
  refine ⟨List.mem_append_left _ member, ?_⟩
  intro other inside
  rcases List.mem_append.mp inside with before | last
  · exact bound other before
  · exact (List.mem_singleton.mp last).symm ▸ below

/-! ## Where the reloads are -/

/-- Each started reload is at one place, and delivers what it has prepared. -/
structure Tracked (past : History) (queue : ReloadQueue) : Prop where
  numbered : past.started.map RunningReload.sequence = List.range queue.nextSequence
  places : (past.received.map ReloadOutcome.sequence
    ++ queue.delivered.map ReloadOutcome.sequence
    ++ queue.running.map RunningReload.sequence).Perm (List.range queue.nextSequence)
  running : ∀ reload ∈ queue.running, reload ∈ past.started
  prepared : ∀ outcome ∈ past.received ++ queue.delivered, ∀ snapshot,
    outcome.prepared = some snapshot → ∃ reload ∈ past.started,
      reload.sequence = outcome.sequence ∧ snapshot = (Prepare.snapshot reload.request.inputs).1
  succeeded : past.succeeded =
    (past.received ++ queue.delivered).filterMap ReloadOutcome.success?

/-- The queue shows the highest successful number that has been received. -/
structure Applied (past : History) (queue : ReloadQueue) : Prop where
  highest : queue.lastApplied = past.successes.max?
  empty : queue.lastApplied = none → queue.live.current = Snapshot.empty
  shown : ∀ number, queue.lastApplied = some number → ∃ outcome ∈ past.received,
    outcome.sequence = number ∧ outcome.prepared = some queue.live.current
  generation : queue.live.generation = newMaxima [] past.successes

/-- What a queue shows depends on nothing else than what has been received. -/
theorem Applied.of_same {past past' : History} {queue queue' : ReloadQueue}
    (applied : Applied past queue) (received : past'.received = past.received)
    (live : queue'.live = queue.live) (last : queue'.lastApplied = queue.lastApplied) :
    Applied past' queue' := by
  have successes : past'.successes = past.successes := by
    rw [History.successes, received, History.successes]
  refine ⟨?_, ?_, ?_, ?_⟩
  · rw [last, successes, applied.highest]
  · rw [last, live]
    exact applied.empty
  · rw [last, live, received]
    exact applied.shown
  · rw [live, successes, applied.generation]

theorem tracked_empty : Tracked .empty empty where
  numbered := rfl
  places := .refl _
  running := by
    intro reload member
    cases member
  prepared := by
    intro outcome member
    cases member
  succeeded := rfl

theorem applied_empty : Applied .empty empty where
  highest := rfl
  empty := fun _ => rfl
  shown := by
    intro number impossible
    cases impossible
  generation := rfl

section Steps

variable {past : History} {queue : ReloadQueue}

theorem starting_sequences (queue : ReloadQueue) (taken : Nat) :
    (queue.starting taken).map RunningReload.sequence =
      List.range' queue.nextSequence (queue.starting taken).length := by
  unfold starting
  rw [List.map_map, List.length_map, List.length_zipIdx]
  change (List.zipIdx _ _).map Prod.snd = _
  rw [List.zipIdx_map_snd]

theorem Tracked.start (tracked : Tracked past queue) (taken : Nat) :
    Tracked (past.start (queue.starting taken)) (queue.start taken).1 := by
  have numbers : List.range (queue.nextSequence + (queue.starting taken).length) =
      List.range queue.nextSequence
        ++ (queue.starting taken).map RunningReload.sequence := by
    rw [starting_sequences, List.range_eq_range', List.range_eq_range',
      ← List.range'_append_1, Nat.zero_add]
  refine ⟨?numbered, ?places, ?running, ?prepared, tracked.succeeded⟩
  case numbered =>
    change (past.started ++ queue.starting taken).map _ =
      List.range (queue.nextSequence + (queue.starting taken).length)
    rw [List.map_append, tracked.numbered, numbers]
  case places =>
    change (_ ++ _ ++ (queue.running ++ queue.starting taken).map _).Perm
      (List.range (queue.nextSequence + (queue.starting taken).length))
    rw [List.map_append, ← List.append_assoc, numbers]
    exact tracked.places.append_right _
  case running =>
    intro reload member
    rcases List.mem_append.mp member with before | fresh
    · exact List.mem_append_left _ (tracked.running reload before)
    · exact List.mem_append_right _ fresh
  case prepared =>
    intro outcome member snapshot held
    obtain ⟨reload, started, same, isPrepared⟩ := tracked.prepared outcome member snapshot held
    exact ⟨reload, List.mem_append_left _ started, same, isPrepared⟩

theorem Tracked.running_distinct (tracked : Tracked past queue) :
    (queue.running.map RunningReload.sequence).Nodup :=
  (List.nodup_append.mp (tracked.places.nodup_iff.mpr List.nodup_range)).2.1

/-- Taking a reload out of those that run. -/
theorem running_perm {running : List RunningReload}
    (distinct : (running.map RunningReload.sequence).Nodup) {reload : RunningReload}
    (member : reload ∈ running) :
    (running.map RunningReload.sequence).Perm
      (reload.sequence ::
        (running.filter (fun other => other.sequence != reload.sequence)).map
          RunningReload.sequence) := by
  have erased : (running.filter (fun other => other.sequence != reload.sequence)).map
      RunningReload.sequence = (running.map RunningReload.sequence).erase reload.sequence := by
    rw [distinct.erase_eq_filter, List.filter_map]
    rfl
  rw [erased]
  exact List.perm_cons_erase (List.mem_map_of_mem member)

theorem Tracked.finish (tracked : Tracked past queue) (sequence : Nat) (gate : GateEnd) :
    Tracked (past.finish queue.running sequence gate) (queue.finish sequence gate).1 := by
  have started : (past.finish queue.running sequence gate).started = past.started := by
    cases gate <;> rfl
  have received : (past.finish queue.running sequence gate).received = past.received := by
    cases gate <;> rfl
  unfold ReloadQueue.finish
  cases found : queue.running.find? (fun reload => reload.sequence == sequence) with
  | none =>
      have unchanged : past.finish queue.running sequence gate = past := by
        cases gate with
        | opened => simp [History.finish, found]
        | lost => rfl
      rw [unchanged]
      exact tracked
  | some reload =>
      have member := List.mem_of_find?_eq_some found
      have same : reload.sequence = sequence := by
        simpa using List.find?_some found
      have delivers : (outcomeOf reload gate).1.sequence = reload.sequence := by
        cases gate <;> rfl
      refine ⟨started ▸ tracked.numbered, ?places, ?running, ?prepared, ?succeeded⟩
      case places =>
        refine List.Perm.trans ?_ tracked.places
        dsimp only
        rw [received, List.map_append, List.map_singleton, delivers, ← same]
        have moved := (running_perm tracked.running_distinct member).symm
        simp only [List.append_assoc, List.singleton_append]
        exact (moved.append_left _).append_left _
      case running =>
        intro other inside
        rw [started]
        exact tracked.running other (List.mem_filter.mp inside).1
      case prepared =>
        intro outcome inside snapshot held
        rw [received, ← List.append_assoc] at inside
        rw [started]
        rcases List.mem_append.mp inside with before | last
        · exact tracked.prepared outcome before snapshot held
        · rw [List.mem_singleton.mp last] at held ⊢
          refine ⟨reload, tracked.running reload member, delivers.symm, ?_⟩
          cases gate with
          | opened => exact (Option.some.inj held).symm
          | lost => cases held
      case succeeded =>
        dsimp only
        rw [received, ← List.append_assoc, List.filterMap_append, ← tracked.succeeded]
        cases gate with
        | opened => simp [History.finish, found, outcomeOf, ReloadOutcome.success?]
        | lost => simp [History.finish, outcomeOf, ReloadOutcome.success?]

/-- A reload that finishes changes nothing that is shown. -/
theorem finish_frame (queue : ReloadQueue) (sequence : Nat) (gate : GateEnd) :
    (queue.finish sequence gate).1.live = queue.live ∧
      (queue.finish sequence gate).1.lastApplied = queue.lastApplied := by
  unfold ReloadQueue.finish
  split
  · exact ⟨rfl, rfl⟩
  · exact ⟨rfl, rfl⟩

end Steps

/-! ## Receiving outcomes -/

section Receiving

variable {past : History} {queue : ReloadQueue} {outcome : ReloadOutcome}

theorem isLate_iff (queue : ReloadQueue) (sequence : Nat) :
    queue.isLate sequence = true ↔ ∃ last, queue.lastApplied = some last ∧ sequence < last := by
  unfold isLate
  cases queue.lastApplied with
  | none => simp
  | some last => simp

/-- Receiving an outcome leaves alone what runs and what is still to come. -/
theorem receive_frame (queue : ReloadQueue) (outcome : ReloadOutcome) :
    (queue.receive outcome).running = queue.running ∧
      (queue.receive outcome).delivered = queue.delivered ∧
      (queue.receive outcome).nextSequence = queue.nextSequence := by
  unfold receive
  cases outcome.prepared with
  | none => exact ⟨rfl, rfl, rfl⟩
  | some snapshot =>
      dsimp only
      split
      · exact ⟨rfl, rfl, rfl⟩
      · exact ⟨rfl, rfl, rfl⟩

/-- The outcome of a lost gate, or of a reload older than one applied before,
changes nothing that is shown. -/
theorem receive_of_ignored (queue : ReloadQueue) (outcome : ReloadOutcome)
    (ignored : outcome.prepared = none ∨ queue.isLate outcome.sequence = true) :
    (queue.receive outcome).live = queue.live ∧
      (queue.receive outcome).lastApplied = queue.lastApplied := by
  unfold receive
  cases held : outcome.prepared with
  | none => exact ⟨rfl, rfl⟩
  | some snapshot =>
      rcases ignored with lost | late
      · rw [held] at lost
        cases lost
      · dsimp only
        rw [if_pos late]
        exact ⟨rfl, rfl⟩

theorem receive_of_applied {snapshot : Snapshot} (held : outcome.prepared = some snapshot)
    (timely : queue.isLate outcome.sequence = false) :
    (queue.receive outcome).live = queue.live.apply snapshot ∧
      (queue.receive outcome).lastApplied = some outcome.sequence := by
  unfold receive
  rw [held]
  dsimp only
  rw [if_neg (by simp [timely])]
  exact ⟨rfl, rfl⟩

theorem successes_receive (past : History) (outcome : ReloadOutcome) :
    (past.receive [outcome]).successes = past.successes ++ outcome.success?.toList := by
  unfold History.successes History.receive
  rw [List.filterMap_append]
  congr 1

theorem sequence_mem_of_success {number : Nat} (member : number ∈ past.successes) :
    number ∈ past.received.map ReloadOutcome.sequence := by
  obtain ⟨outcome, received, success⟩ := List.mem_filterMap.mp member
  obtain ⟨_, _, same⟩ := Option.map_eq_some_iff.mp success
  exact List.mem_map.mpr ⟨outcome, received, same⟩

/-- An outcome is late exactly if its number is not a new maximum. -/
theorem Applied.late_iff (applied : Applied past queue)
    (fresh : outcome.sequence ∉ past.successes) :
    queue.isLate outcome.sequence = true ↔
      ¬ ∀ other ∈ past.successes, other < outcome.sequence := by
  rw [isLate_iff, applied.highest]
  constructor
  · rintro ⟨last, isLast, below⟩ above
    have member := (List.max?_eq_some_iff.mp isLast).1
    have greater := above last member
    omega
  · intro notAbove
    cases isLast : past.successes.max? with
    | none =>
        rw [List.max?_eq_none_iff.mp isLast] at notAbove
        exact absurd (by simp) notAbove
    | some last =>
        obtain ⟨member, bound⟩ := List.max?_eq_some_iff.mp isLast
        refine ⟨last, rfl, ?_⟩
        -- The last number was received before, so it is not the fresh one.
        by_contra notBelow
        apply notAbove
        intro other inside
        have atMost := bound other inside
        have different : last ≠ outcome.sequence := fun same => fresh (same ▸ member)
        omega

/-- An outcome that is ignored raises nothing. -/
theorem Applied.ignore (applied : Applied past queue)
    (ignored : outcome.prepared = none ∨ queue.isLate outcome.sequence = true)
    (highest : (past.receive [outcome]).successes.max? = past.successes.max?)
    (maxima : newMaxima [] (past.receive [outcome]).successes = newMaxima [] past.successes) :
    Applied (past.receive [outcome]) (queue.receive outcome) := by
  obtain ⟨live, last⟩ := receive_of_ignored queue outcome ignored
  refine ⟨?_, ?_, ?_, ?_⟩
  · rw [last, highest, applied.highest]
  · rw [last, live]
    exact applied.empty
  · rw [last, live]
    intro number isLast
    obtain ⟨earlier, received, same⟩ := applied.shown number isLast
    exact ⟨earlier, List.mem_append_left _ received, same⟩
  · rw [live, maxima, applied.generation]

/-- An outcome above all others is shown. -/
theorem Applied.raise (applied : Applied past queue) {snapshot : Snapshot}
    (held : outcome.prepared = some snapshot) (timely : queue.isLate outcome.sequence = false)
    (grown : (past.receive [outcome]).successes = past.successes ++ [outcome.sequence])
    (above : ∀ other ∈ past.successes, other < outcome.sequence) :
    Applied (past.receive [outcome]) (queue.receive outcome) := by
  obtain ⟨live, last⟩ := receive_of_applied held timely
  refine ⟨?_, ?_, ?_, ?_⟩
  · rw [last, grown, max?_append_of_lt above]
  · intro unapplied
    rw [last] at unapplied
    cases unapplied
  · intro number isLast
    rw [last] at isLast
    rw [live]
    exact ⟨outcome, List.mem_append_right _ (by simp), Option.some.inj isLast, held⟩
  · rw [live, grown, newMaxima_append, List.nil_append, if_pos above]
    exact congrArg (· + 1) applied.generation

theorem Applied.receive (applied : Applied past queue)
    (fresh : outcome.sequence ∉ past.received.map ReloadOutcome.sequence) :
    Applied (past.receive [outcome]) (queue.receive outcome) := by
  have freshSuccess : outcome.sequence ∉ past.successes :=
    fun member => fresh (sequence_mem_of_success member)
  have late_iff := applied.late_iff freshSuccess
  cases held : outcome.prepared with
  | none =>
      have unchanged : (past.receive [outcome]).successes = past.successes := by
        simp [successes_receive, ReloadOutcome.success?, held]
      exact applied.ignore (.inl held) (by rw [unchanged]) (by rw [unchanged])
  | some snapshot =>
      have grown : (past.receive [outcome]).successes = past.successes ++ [outcome.sequence] := by
        simp [successes_receive, ReloadOutcome.success?, held]
      cases late : queue.isLate outcome.sequence with
      | true =>
          obtain ⟨last, isLast, below⟩ := (isLate_iff queue outcome.sequence).mp late
          have isHighest := applied.highest.symm.trans isLast
          have notAbove := late_iff.mp late
          apply applied.ignore (.inr late)
          · rw [grown, isHighest, max?_append_of_le isHighest (Nat.le_of_lt below)]
          · rw [grown, newMaxima_append, List.nil_append, if_neg notAbove, Nat.add_zero]
      | false =>
          have above : ∀ other ∈ past.successes, other < outcome.sequence := by
            by_contra notAbove
            rw [late_iff.mpr notAbove] at late
            cases late
          exact applied.raise held late grown above

theorem Tracked.receiveFirst {rest : List ReloadOutcome} (tracked : Tracked past queue)
    (delivered : queue.delivered = outcome :: rest) :
    Tracked (past.receive [outcome])
      (({ queue with delivered := rest } : ReloadQueue).receive outcome) := by
  obtain ⟨running, stillDelivered, nextSequence⟩ :=
    receive_frame ({ queue with delivered := rest } : ReloadQueue) outcome
  have places := tracked.places
  rw [delivered] at places
  refine ⟨?_, ?_, ?_, ?_, ?_⟩
  · rw [nextSequence]
    exact tracked.numbered
  · rw [running, stillDelivered, nextSequence]
    simpa [History.receive] using places
  · rw [running]
    exact tracked.running
  · rw [stillDelivered]
    have held := tracked.prepared
    rw [delivered] at held
    simpa [History.receive] using held
  · rw [stillDelivered]
    have succeeded := tracked.succeeded
    rw [delivered] at succeeded
    simpa [History.receive] using succeeded

theorem Tracked.fresh {rest : List ReloadOutcome} (tracked : Tracked past queue)
    (delivered : queue.delivered = outcome :: rest) :
    outcome.sequence ∉ past.received.map ReloadOutcome.sequence := by
  have distinct := tracked.places.nodup_iff.mpr List.nodup_range
  rw [delivered, List.append_assoc] at distinct
  intro member
  exact (List.nodup_append.mp distinct).2.2 _ member outcome.sequence (by simp) rfl

/-- All that has been said of a queue and its history. -/
structure Sound (past : History) (queue : ReloadQueue) : Prop where
  tracked : Tracked past queue
  applied : Applied past queue

theorem Sound.receiveFirst {rest : List ReloadOutcome} (sound : Sound past queue)
    (delivered : queue.delivered = outcome :: rest) :
    Sound (past.receive [outcome])
      (({ queue with delivered := rest } : ReloadQueue).receive outcome) := by
  have applied : Applied past ({ queue with delivered := rest } : ReloadQueue) :=
    sound.applied.of_same rfl rfl rfl
  exact ⟨sound.tracked.receiveFirst delivered, applied.receive (sound.tracked.fresh delivered)⟩

/-- Collecting is receiving one outcome after the other. -/
theorem Sound.foldl_receive (delivered : List ReloadOutcome) (sound : Sound past queue)
    (all : queue.delivered = delivered) :
    Sound (past.receive delivered)
      (delivered.foldl ReloadQueue.receive { queue with delivered := [] }) := by
  induction delivered generalizing past queue with
  | nil =>
      have same : ({ queue with delivered := [] } : ReloadQueue) = queue := by
        rw [← all]
      rw [List.foldl_nil, same, History.receive_nil]
      exact sound
  | cons outcome rest inductionHypothesis =>
      have first := sound.receiveFirst all
      have onward := inductionHypothesis first
        (receive_frame ({ queue with delivered := rest } : ReloadQueue) outcome).2.1
      -- An outcome is received alike whether or not others are still listed.
      have emptied : ({ ({ queue with delivered := rest } : ReloadQueue).receive outcome with
          delivered := [] } : ReloadQueue) =
            ({ queue with delivered := [] } : ReloadQueue).receive outcome := by
        unfold ReloadQueue.receive
        cases outcome.prepared with
        | none => rfl
        | some snapshot =>
            dsimp only
            split <;> split <;> simp_all [isLate]
      rw [History.receive_receive, List.singleton_append] at onward
      rw [List.foldl_cons, ← emptied]
      exact onward

end Receiving

/-! ## Whole runs -/

section Runs

variable {past : History} {queue : ReloadQueue}

/-- Every event keeps a queue and its history sound. -/
theorem Sound.step (sound : Sound past queue) (event : ReloadEvent) :
    Sound (past.after queue event) (queue.step event).1 := by
  cases event with
  | ask request =>
      have tracked := sound.tracked
      exact ⟨⟨tracked.numbered, tracked.places, tracked.running, tracked.prepared,
          tracked.succeeded⟩, sound.applied.of_same rfl rfl rfl⟩
  | start taken => exact ⟨sound.tracked.start taken, sound.applied.of_same rfl rfl rfl⟩
  | finish sequence gate =>
      have received : (past.finish queue.running sequence gate).received = past.received := by
        cases gate <;> rfl
      obtain ⟨live, last⟩ := finish_frame queue sequence gate
      exact ⟨sound.tracked.finish sequence gate, sound.applied.of_same received live last⟩
  | receive =>
      unfold ReloadQueue.step ReloadQueue.receiveFirst History.after
      dsimp only
      cases delivered : queue.delivered with
      | nil =>
          rw [List.take_nil, History.receive_nil]
          exact sound
      | cons outcome rest => exact sound.receiveFirst delivered
  | collect => exact sound.foldl_receive queue.delivered rfl

theorem Sound.run (sound : Sound past queue) (events : List ReloadEvent) :
    Sound (past.along queue events) (queue.run events).1 := by
  induction events generalizing past queue with
  | nil => exact sound
  | cons event rest inductionHypothesis => exact inductionHypothesis (sound.step event)

/-- A reload of a number at least `last` has been applied. -/
def AtLeast (last : Nat) (queue : ReloadQueue) : Prop :=
  ∃ after, queue.lastApplied = some after ∧ last ≤ after

theorem AtLeast.receive {last : Nat} (reached : AtLeast last queue) (outcome : ReloadOutcome) :
    AtLeast last (queue.receive outcome) := by
  obtain ⟨before, isBefore, below⟩ := reached
  cases held : outcome.prepared with
  | none =>
      obtain ⟨_, same⟩ := receive_of_ignored queue outcome (.inl held)
      exact ⟨before, same.trans isBefore, below⟩
  | some snapshot =>
      cases late : queue.isLate outcome.sequence with
      | true =>
          obtain ⟨_, same⟩ := receive_of_ignored queue outcome (.inr late)
          exact ⟨before, same.trans isBefore, below⟩
      | false =>
          refine ⟨outcome.sequence, (receive_of_applied held late).2, ?_⟩
          have notBelow : ¬ outcome.sequence < before := by
            intro above
            have isLate := (isLate_iff queue outcome.sequence).mpr ⟨before, isBefore, above⟩
            rw [late] at isLate
            cases isLate
          omega

theorem AtLeast.foldl_receive {last : Nat} (delivered : List ReloadOutcome)
    (reached : AtLeast last queue) : AtLeast last (delivered.foldl ReloadQueue.receive queue) := by
  induction delivered generalizing queue with
  | nil => exact reached
  | cons outcome rest inductionHypothesis => exact inductionHypothesis (reached.receive outcome)

theorem AtLeast.of_same {last : Nat} {queue' : ReloadQueue} (reached : AtLeast last queue)
    (same : queue'.lastApplied = queue.lastApplied) : AtLeast last queue' := by
  unfold AtLeast at reached ⊢
  rw [same]
  exact reached

theorem AtLeast.step {last : Nat} (reached : AtLeast last queue) (event : ReloadEvent) :
    AtLeast last (queue.step event).1 := by
  cases event with
  | ask request => exact reached
  | start taken => exact reached
  | finish sequence gate => exact reached.of_same (finish_frame queue sequence gate).2
  | receive =>
      unfold ReloadQueue.step ReloadQueue.receiveFirst
      dsimp only
      cases delivered : queue.delivered with
      | nil => exact reached
      | cons outcome rest =>
          have reached : AtLeast last ({ queue with delivered := rest } : ReloadQueue) := reached
          exact reached.receive outcome
  | collect =>
      have reached : AtLeast last ({ queue with delivered := [] } : ReloadQueue) := reached
      exact reached.foldl_receive queue.delivered

/-- The number applied last never falls. -/
theorem AtLeast.run {last : Nat} (reached : AtLeast last queue) (events : List ReloadEvent) :
    AtLeast last (queue.run events).1 := by
  induction events generalizing queue with
  | nil => exact reached
  | cons event rest inductionHypothesis => exact inductionHypothesis (reached.step event)

end Runs

/-! ## What is shown -/

section Shown

variable {past : History} {queue : ReloadQueue}

/-- The reload that is shown is the started one of the number applied last. -/
theorem Sound.shown (sound : Sound past queue) {number : Nat}
    (last : queue.lastApplied = some number) :
    ∃ reload, past.started[number]? = some reload ∧ reload.sequence = number ∧
      queue.live.current = (Prepare.snapshot reload.request.inputs).1 := by
  obtain ⟨outcome, received, isNumber, held⟩ := sound.applied.shown number last
  obtain ⟨reload, started, same, prepared⟩ := sound.tracked.prepared outcome
    (List.mem_append_left _ received) queue.live.current held
  obtain ⟨place, isPlace⟩ := List.mem_iff_getElem?.mp started
  have atPlace : (past.started.map RunningReload.sequence)[place]? = some reload.sequence := by
    rw [List.getElem?_map, isPlace]
    rfl
  rw [sound.tracked.numbered] at atPlace
  obtain ⟨_, isSequence⟩ := List.getElem?_eq_some_iff.mp atPlace
  rw [List.getElem_range] at isSequence
  have isLast : reload.sequence = number := same.trans isNumber
  exact ⟨reload, by rw [← isLast, ← isSequence]; exact isPlace, isLast, prepared⟩

/-- A queue that has received whatever was started shows the highest success. -/
theorem Sound.settled (sound : Sound past queue) (idle : queue.running = [])
    (collected : queue.delivered = []) :
    (past.received.map ReloadOutcome.sequence).Perm (List.range past.started.length) ∧
      queue.lastApplied = past.succeeded.max? := by
  have count : past.started.length = queue.nextSequence := by
    rw [← List.length_map (f := RunningReload.sequence), sound.tracked.numbered,
      List.length_range]
  have places := sound.tracked.places
  have succeeded := sound.tracked.succeeded
  rw [collected, idle] at places
  rw [collected, List.append_nil] at succeeded
  refine ⟨?_, ?_⟩
  · rw [count]
    simpa using places
  · rw [succeeded]
    exact sound.applied.highest

theorem max?_congr {numbers others : List Nat}
    (same : ∀ number, number ∈ numbers ↔ number ∈ others) : numbers.max? = others.max? := by
  apply Option.ext
  intro highest
  rw [List.max?_eq_some_iff, List.max?_eq_some_iff, same]
  simp only [same]

/-- Two settled queues that started the same reloads, of which the same ones
succeeded, show the same, in whatever order the reloads finished. -/
theorem Sound.agree {past' : History} {queue' : ReloadQueue} (sound : Sound past queue)
    (sound' : Sound past' queue') (idle : queue.running = []) (idle' : queue'.running = [])
    (collected : queue.delivered = []) (collected' : queue'.delivered = [])
    (started : past'.started = past.started)
    (succeeded : ∀ number, number ∈ past'.succeeded ↔ number ∈ past.succeeded) :
    queue'.lastApplied = queue.lastApplied ∧ queue'.live.current = queue.live.current := by
  have sameLast : queue'.lastApplied = queue.lastApplied := by
    rw [(sound.settled idle collected).2, (sound'.settled idle' collected').2,
      max?_congr succeeded]
  refine ⟨sameLast, ?_⟩
  cases last : queue.lastApplied with
  | none => rw [sound.applied.empty last, sound'.applied.empty (sameLast.trans last)]
  | some number =>
      obtain ⟨reload, isReload, _, shown⟩ := sound.shown last
      obtain ⟨reload', isReload', _, shown'⟩ := sound'.shown (sameLast.trans last)
      rw [started, isReload] at isReload'
      rw [shown, shown', Option.some.inj isReload']

theorem sound_run_empty (events : List ReloadEvent) :
    Sound (History.empty.along empty events) (empty.run events).1 :=
  Sound.run ⟨tracked_empty, applied_empty⟩ events

/-- After whatever events, the highest successful reload that was received is
live, and nothing older will replace it. Once all that was started has been
received, the order in which the reloads finished does not matter. -/
theorem run_shows_highest (events : List ReloadEvent) :
    let queue := (empty.run events).1
    let past := History.empty.along empty events
    queue.lastApplied = past.successes.max? ∧
      (queue.lastApplied = none → queue.live.current = Snapshot.empty) ∧
      (∀ number, queue.lastApplied = some number →
        (∃ reload, past.started[number]? = some reload ∧ reload.sequence = number ∧
          queue.live.current = (Prepare.snapshot reload.request.inputs).1) ∧
        ∀ later, ∃ number', (queue.run later).1.lastApplied = some number' ∧ number ≤ number') ∧
      queue.live.generation = newMaxima [] past.successes ∧
      (∀ outcome : ReloadOutcome,
        (outcome.prepared = none ∨
          ∃ last, queue.lastApplied = some last ∧ outcome.sequence < last) →
        (queue.receive outcome).live = queue.live ∧
          (queue.receive outcome).lastApplied = queue.lastApplied) ∧
      (queue.running = [] → queue.delivered = [] →
        (past.received.map ReloadOutcome.sequence).Perm (List.range past.started.length) ∧
        queue.lastApplied = past.succeeded.max? ∧
        ∀ events',
          let queue' := (empty.run events').1
          let past' := History.empty.along empty events'
          queue'.running = [] → queue'.delivered = [] → past'.started = past.started →
          (∀ number, number ∈ past'.succeeded ↔ number ∈ past.succeeded) →
          queue'.lastApplied = queue.lastApplied ∧
            queue'.live.current = queue.live.current) := by
  intro queue past
  have sound : Sound past queue := sound_run_empty events
  refine ⟨sound.applied.highest, sound.applied.empty, ?shown, sound.applied.generation,
    ?ignored, ?settled⟩
  case shown =>
    intro number last
    have reached : AtLeast number queue := ⟨number, last, Nat.le_refl number⟩
    exact ⟨sound.shown last, fun later => reached.run later⟩
  case ignored =>
    rintro outcome (lost | late)
    · exact receive_of_ignored queue outcome (.inl lost)
    · have isLate := (isLate_iff queue outcome.sequence).mpr late
      exact receive_of_ignored queue outcome (.inr isLate)
  case settled =>
    intro idle collected
    obtain ⟨all, last⟩ := sound.settled idle collected
    refine ⟨all, last, ?_⟩
    intro events' queue' past' idle' collected' started succeeded
    exact sound.agree (sound_run_empty events') idle idle' collected collected' started succeeded

/-- Two reloads of which the older one is held back until the newer one is live:
the newer one is applied first, and it stays when the older one arrives. -/
example (older newer : ReloadRequest) :
    let arrived := [.ask older, .ask newer, .start 2, .finish 1 .opened, .collect]
    let applied := (empty.run arrived).1
    let released := (applied.run [.finish 0 .opened, .collect]).1
    (applied.lastApplied = some 1 ∧ applied.pending = 1 ∧ applied.live.generation = 1 ∧
      applied.live.current = (Prepare.snapshot newer.inputs).1) ∧
    released.lastApplied = some 1 ∧ released.pending = 0 ∧ released.live = applied.live :=
  ⟨⟨rfl, rfl, rfl, rfl⟩, rfl, rfl, rfl⟩

end Shown

end ReloadQueue

end PackModels
