import PackModels.Proofs.Reload.Queue

/-!
Contract: a queue counts its reloads as they are.

Each request that is asked for waits, is dropped or is started, and those that
are started keep the order in which they were asked for. Only they use up
numbers, one each. What is pending is what runs and what is delivered, so each
outcome that is received was pending before, and nothing is pending exactly
when every reload that was started has been received.

Owns: `Ledger`, what has become of the requests of a run, and `Accounted`,
which every event keeps.
-/

namespace PackModels.ReloadQueue

/-- The requests that were asked for along a run and those that were dropped,
both in order. -/
structure Ledger where
  asked : List ReloadRequest
  dropped : List ReloadRequest

namespace Ledger

/-- Nothing has been asked for. -/
def empty : Ledger :=
  ⟨[], []⟩

variable (ledger : Ledger)

/-- What an event adds to a ledger. -/
def after (queue : ReloadQueue) : ReloadEvent → Ledger
  | .ask request => { ledger with asked := ledger.asked ++ [request] }
  | .start taken => { ledger with dropped := ledger.dropped ++ queue.waiting.drop taken }
  | .finish _ _ => ledger
  | .receive => ledger
  | .collect => ledger

/-- The ledger of a run. -/
def along : Ledger → ReloadQueue → List ReloadEvent → Ledger
  | ledger, _, [] => ledger
  | ledger, queue, event :: rest =>
      along (ledger.after queue event) (queue.step event).1 rest

end Ledger

/-- Each request that was asked for is at one place, in order, and what runs or
is delivered is pending. -/
structure Accounted (past : History) (ledger : Ledger) (queue : ReloadQueue) : Prop where
  ordered : (past.started.map RunningReload.request ++ queue.waiting).Sublist ledger.asked
  shared : (past.started.map RunningReload.request ++ ledger.dropped ++ queue.waiting).Perm
    ledger.asked
  pending : queue.pending = queue.running.length + queue.delivered.length

theorem accounted_empty : Accounted .empty .empty empty where
  ordered := .slnil
  shared := .refl _
  pending := rfl

section Steps

variable {past : History} {ledger : Ledger} {queue : ReloadQueue}

theorem starting_requests (queue : ReloadQueue) (taken : Nat) :
    (queue.starting taken).map RunningReload.request = queue.waiting.take taken := by
  unfold starting
  rw [List.map_map]
  change (List.zipIdx _ _).map Prod.fst = _
  rw [List.zipIdx_map_fst]

theorem Accounted.ask (accounted : Accounted past ledger queue) (request : ReloadRequest) :
    Accounted past (ledger.after queue (.ask request)) (queue.ask request) := by
  refine ⟨?ordered, ?shared, accounted.pending⟩
  case ordered =>
    have more := accounted.ordered.append (List.Sublist.refl [request])
    rw [List.append_assoc] at more
    exact more
  case shared =>
    have more := accounted.shared.append_right [request]
    rw [List.append_assoc] at more
    exact more

/-- What waits is taken from its front, and what is left of it is dropped. -/
theorem Accounted.start (accounted : Accounted past ledger queue) (taken : Nat) :
    Accounted (past.start (queue.starting taken)) (ledger.after queue (.start taken))
      (queue.start taken).1 := by
  have requests : (past.start (queue.starting taken)).started.map RunningReload.request =
      past.started.map RunningReload.request ++ queue.waiting.take taken := by
    change (past.started ++ queue.starting taken).map _ = _
    rw [List.map_append, starting_requests]
  refine ⟨?ordered, ?shared, ?pending⟩
  case ordered =>
    rw [requests]
    change (_ ++ []).Sublist ledger.asked
    rw [List.append_nil]
    exact ((List.take_sublist taken queue.waiting).append_left _).trans accounted.ordered
  case shared =>
    rw [requests]
    change (_ ++ (ledger.dropped ++ queue.waiting.drop taken) ++ []).Perm ledger.asked
    refine List.Perm.trans ?_ accounted.shared
    -- The requests that are taken move over those that were dropped before.
    have split := List.take_append_drop taken queue.waiting
    have swapped : (queue.waiting.take taken ++ ledger.dropped).Perm
        (ledger.dropped ++ queue.waiting.take taken) := List.perm_append_comm
    have moved := swapped.append_right (queue.waiting.drop taken)
    rw [List.append_assoc ledger.dropped, split] at moved
    simp only [List.append_nil, List.append_assoc] at moved ⊢
    exact moved.append_left _
  case pending =>
    have counted := accounted.pending
    change queue.pending + (queue.starting taken).length =
      (queue.running ++ queue.starting taken).length + queue.delivered.length
    simp only [List.length_append]
    omega

/-- A reload that finishes is delivered and runs no more. -/
theorem Accounted.finish (accounted : Accounted past ledger queue) (tracked : Tracked past queue)
    (sequence : Nat) (gate : GateEnd) :
    Accounted (past.finish queue.running sequence gate) ledger (queue.finish sequence gate).1 := by
  have started : (past.finish queue.running sequence gate).started = past.started := by
    cases gate <;> rfl
  have ordered := accounted.ordered
  have shared := accounted.shared
  unfold ReloadQueue.finish
  cases found : queue.running.find? (fun reload => reload.sequence == sequence) with
  | none => exact ⟨started ▸ ordered, started ▸ shared, accounted.pending⟩
  | some reload =>
      have same : reload.sequence = sequence := by
        simpa using List.find?_some found
      have one := (running_perm tracked.running_distinct
        (List.mem_of_find?_eq_some found)).length_eq
      have counted := accounted.pending
      refine ⟨started ▸ ordered, started ▸ shared, ?_⟩
      simp only [List.length_map, List.length_cons, same] at one
      simp only [List.length_append, List.length_singleton]
      omega

theorem receive_pending (queue : ReloadQueue) (outcome : ReloadOutcome) :
    (queue.receive outcome).pending = queue.pending - 1 ∧
      (queue.receive outcome).waiting = queue.waiting := by
  unfold receive
  cases outcome.prepared with
  | none => exact ⟨rfl, rfl⟩
  | some snapshot =>
      dsimp only
      split <;> exact ⟨rfl, rfl⟩

/-- Receiving outcomes one after the other takes as many from what is pending
and leaves what waits and what runs. -/
theorem foldl_receive_pending (outcomes : List ReloadOutcome) (queue : ReloadQueue) :
    (outcomes.foldl receive queue).pending = queue.pending - outcomes.length ∧
      (outcomes.foldl receive queue).waiting = queue.waiting ∧
      (outcomes.foldl receive queue).running = queue.running ∧
      (outcomes.foldl receive queue).delivered = queue.delivered := by
  induction outcomes generalizing queue with
  | nil => simp
  | cons outcome rest inductionHypothesis =>
      have later := inductionHypothesis (queue.receive outcome)
      have first := receive_pending queue outcome
      have frame := receive_frame queue outcome
      rw [first.1, first.2, frame.1, frame.2.1] at later
      rw [List.foldl_cons, List.length_cons]
      exact ⟨by omega, later.2⟩

/-- The outcomes at the front of those that are delivered are received. -/
theorem Accounted.receive (accounted : Accounted past ledger queue)
    {front rest : List ReloadOutcome} (delivered : queue.delivered = front ++ rest) :
    Accounted (past.receive front) ledger
      (front.foldl ReloadQueue.receive { queue with delivered := rest }) := by
  obtain ⟨pending, waiting, running, later⟩ :=
    foldl_receive_pending front { queue with delivered := rest }
  have counted := accounted.pending
  refine ⟨?_, ?_, ?_⟩
  · rw [waiting]
    exact accounted.ordered
  · rw [waiting]
    exact accounted.shared
  · rw [pending, running, later]
    simp only [delivered, List.length_append] at counted ⊢
    omega

theorem Accounted.step (accounted : Accounted past ledger queue) (tracked : Tracked past queue)
    (event : ReloadEvent) :
    Accounted (past.after queue event) (ledger.after queue event) (queue.step event).1 := by
  cases event with
  | ask request => exact accounted.ask request
  | start taken => exact accounted.start taken
  | finish sequence gate => exact accounted.finish tracked sequence gate
  | receive =>
      unfold ReloadQueue.step ReloadQueue.receiveFirst History.after
      dsimp only
      cases delivered : queue.delivered with
      | nil =>
          rw [List.take_nil, History.receive_nil]
          exact accounted
      | cons outcome rest => exact accounted.receive delivered
  | collect => exact accounted.receive (List.append_nil queue.delivered).symm

theorem Accounted.run (accounted : Accounted past ledger queue) (sound : Sound past queue)
    (events : List ReloadEvent) :
    Accounted (past.along queue events) (ledger.along queue events) (queue.run events).1 := by
  induction events generalizing past ledger queue with
  | nil => exact accounted
  | cons event rest inductionHypothesis =>
      exact inductionHypothesis (accounted.step sound.tracked event) (sound.step event)

end Steps

/-! ## What the counts say -/

section Counts

variable {past : History} {ledger : Ledger} {queue : ReloadQueue}

/-- As many reloads have been started as numbers were given out. -/
theorem Tracked.length_started (tracked : Tracked past queue) :
    past.started.length = queue.nextSequence := by
  have numbered := congrArg List.length tracked.numbered
  simpa using numbered

/-- What was started and has not been received is pending. -/
theorem Accounted.pending_add (accounted : Accounted past ledger queue)
    (tracked : Tracked past queue) :
    queue.pending + past.received.length = past.started.length := by
  have placed := tracked.places.length_eq
  simp only [List.length_append, List.length_map, List.length_range] at placed
  rw [accounted.pending, tracked.length_started]
  omega

/-- While outcomes are collected, the next one to be received is pending. -/
theorem Accounted.pending_pos (accounted : Accounted past ledger queue)
    {front rest : List ReloadOutcome} {outcome : ReloadOutcome}
    (delivered : queue.delivered = front ++ outcome :: rest) :
    0 < (front.foldl ReloadQueue.receive { queue with delivered := [] }).pending := by
  have counted := accounted.pending
  simp only [delivered, List.length_append, List.length_cons] at counted
  rw [(foldl_receive_pending front { queue with delivered := [] }).1]
  change 0 < queue.pending - front.length
  omega

/-- The reloads that have been received were started, and none was received
twice. -/
theorem Tracked.received_subperm (tracked : Tracked past queue) :
    (past.received.map ReloadOutcome.sequence).Subperm
      (past.started.map RunningReload.sequence) := by
  rw [tracked.numbered]
  refine List.Subperm.trans ?_ tracked.places.subperm
  rw [List.append_assoc]
  exact (List.sublist_append_left _ _).subperm

/-- Nothing is pending exactly if all that was started has been received. -/
theorem Accounted.pending_eq_zero_iff (accounted : Accounted past ledger queue)
    (tracked : Tracked past queue) :
    queue.pending = 0 ↔
      ∀ reload ∈ past.started, ∃ outcome ∈ past.received, outcome.sequence = reload.sequence := by
  have counted := accounted.pending_add tracked
  have subperm := tracked.received_subperm
  constructor
  · intro idle reload member
    have all : (past.received.map ReloadOutcome.sequence).Perm
        (past.started.map RunningReload.sequence) := by
      apply subperm.perm_of_length_le
      simp only [List.length_map]
      omega
    have received := all.mem_iff.mpr (List.mem_map_of_mem member)
    simpa using received
  · intro all
    have distinct : (past.started.map RunningReload.sequence).Nodup := by
      rw [tracked.numbered]
      exact List.nodup_range
    have subset : past.started.map RunningReload.sequence ⊆
        past.received.map ReloadOutcome.sequence := by
      intro number listed
      obtain ⟨reload, member, rfl⟩ := List.mem_map.mp listed
      obtain ⟨outcome, received, same⟩ := all reload member
      exact same ▸ List.mem_map_of_mem received
    have bound := distinct.length_le_of_subset subset
    simp only [List.length_map] at bound
    omega

end Counts

/-- After whatever events, the reloads that were started carry the first
numbers in the order in which they were asked for, and a request that was
dropped has used up none. What is pending is what was started less what was
received; each outcome that is collected was pending until then, and nothing is
pending exactly if all that was started has been received. -/
theorem run_accounts (events : List ReloadEvent) :
    let queue := (empty.run events).1
    let past := History.empty.along empty events
    let ledger := Ledger.empty.along empty events
    past.started.map RunningReload.sequence = List.range queue.nextSequence ∧
      queue.nextSequence = past.started.length ∧
      (past.started.map RunningReload.request ++ queue.waiting).Sublist ledger.asked ∧
      (past.started.map RunningReload.request ++ ledger.dropped ++ queue.waiting).Perm
        ledger.asked ∧
      queue.pending + past.received.length = past.started.length ∧
      (past.received.map ReloadOutcome.sequence).Nodup ∧
      (∀ front outcome rest, queue.delivered = front ++ outcome :: rest →
        0 < (front.foldl receive { queue with delivered := [] }).pending) ∧
      (queue.pending = 0 ↔
        ∀ reload ∈ past.started, ∃ outcome ∈ past.received,
          outcome.sequence = reload.sequence) := by
  intro queue past ledger
  have sound : Sound past queue := sound_run_empty events
  have accounted : Accounted past ledger queue :=
    accounted_empty.run ⟨tracked_empty, applied_empty⟩ events
  have tracked := sound.tracked
  have distinct : (past.received.map ReloadOutcome.sequence).Nodup := by
    have places := tracked.places.nodup_iff.mpr List.nodup_range
    exact (List.nodup_append.mp (List.nodup_append.mp places).1).1
  refine ⟨tracked.numbered, tracked.length_started.symm, accounted.ordered, accounted.shared,
    accounted.pending_add tracked, distinct, ?_, accounted.pending_eq_zero_iff tracked⟩
  intro front outcome rest delivered
  exact accounted.pending_pos delivered

end PackModels.ReloadQueue
