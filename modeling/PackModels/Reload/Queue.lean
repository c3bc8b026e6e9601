import PackModels.Reload.Live

/-!
Contract: reloads that run beside each other.

Requests wait until they are started together; starting numbers those that the
workers take, in order, and drops the others with a warning for each. A started
reload finishes at any time after the others or before them: it delivers the
generation it has prepared, or nothing when its gate is lost. Outcomes are
collected in the order in which they were delivered, and one is applied only if
no reload with a higher number has been applied before. So a slow reload never
replaces a later one.
-/

namespace PackModels

/-- How the gate of a reload ends. A reload without a gate is let through. -/
inductive GateEnd where
  | opened
  | lost
deriving DecidableEq, Repr

structure ReloadRequest where
  inputs : ReloadInputs
  /-- The gate that holds the outcome back, if there is one. -/
  gate : Option Nat

structure RunningReload where
  sequence : Nat
  request : ReloadRequest

structure ReloadOutcome where
  sequence : Nat
  /-- The generation that was prepared, unless the gate was lost. -/
  prepared : Option Snapshot

/-- The reloads that wait, run or have finished, and the live generation. -/
structure ReloadQueue where
  waiting : List ReloadRequest
  running : List RunningReload
  /-- Outcomes that have not been collected, in the order of delivery. -/
  delivered : List ReloadOutcome
  nextSequence : Nat
  pending : Nat
  lastApplied : Option Nat
  live : LiveModels

inductive ReloadEvent where
  | ask (request : ReloadRequest)
  /-- The workers take the first few of the requests that wait. -/
  | start (taken : Nat)
  | finish (sequence : Nat) (gate : GateEnd)
  /-- One outcome is taken note of; others may be delivered before the next. -/
  | receive
  | collect

namespace ReloadQueue

def empty : ReloadQueue :=
  ⟨[], [], [], 0, 0, none, LiveModels.start⟩

variable (queue : ReloadQueue)

def ask (request : ReloadRequest) : ReloadQueue :=
  { queue with waiting := queue.waiting ++ [request] }

/-- The first `taken` requests that wait, with their numbers. -/
def starting (taken : Nat) : List RunningReload :=
  ((queue.waiting.take taken).zipIdx queue.nextSequence).map
    (fun entry => RunningReload.mk entry.2 entry.1)

/-- Starts the first `taken` requests that wait. The others are dropped and use
up no number. -/
def start (taken : Nat) : ReloadQueue × List Warning :=
  let started := queue.starting taken
  ({ queue with
      waiting := []
      running := queue.running ++ started
      nextSequence := queue.nextSequence + started.length
      pending := queue.pending + started.length },
    (queue.waiting.drop taken).map (fun _ => .requestDropped))

def startAll : ReloadQueue × List Warning :=
  queue.start queue.waiting.length

def outcomeOf (reload : RunningReload) (gate : GateEnd) : ReloadOutcome × List Warning :=
  let prepared := Prepare.snapshot reload.request.inputs
  match gate with
  | .opened => (⟨reload.sequence, some prepared.1⟩, prepared.2)
  | .lost => (⟨reload.sequence, none⟩, prepared.2 ++ [.gateLost reload.sequence])

def finish (sequence : Nat) (gate : GateEnd) : ReloadQueue × List Warning :=
  match queue.running.find? (fun reload => reload.sequence == sequence) with
  | none => (queue, [])
  | some reload =>
      let outcome := outcomeOf reload gate
      ({ queue with
          running := queue.running.filter (fun other => other.sequence != sequence)
          delivered := queue.delivered ++ [outcome.1] },
        outcome.2)

def isLate (sequence : Nat) : Bool :=
  match queue.lastApplied with
  | none => false
  | some last => sequence < last

def receive (outcome : ReloadOutcome) : ReloadQueue :=
  let counted := { queue with pending := queue.pending - 1 }
  match outcome.prepared with
  | none => counted
  | some prepared =>
      if queue.isLate outcome.sequence then
        counted
      else
        { counted with
          lastApplied := some outcome.sequence
          live := queue.live.apply prepared }

/-- Takes note of the outcome that was delivered first, if there is one. -/
def receiveFirst : ReloadQueue :=
  match queue.delivered with
  | [] => queue
  | outcome :: rest => ({ queue with delivered := rest } : ReloadQueue).receive outcome

def collect : ReloadQueue :=
  queue.delivered.foldl receive { queue with delivered := [] }

def step : ReloadEvent → ReloadQueue × List Warning
  | .ask request => (queue.ask request, [])
  | .start taken => queue.start taken
  | .finish sequence gate => queue.finish sequence gate
  | .receive => (queue.receiveFirst, [])
  | .collect => (queue.collect, [])

def run : ReloadQueue → List ReloadEvent → ReloadQueue × List Warning
  | queue, [] => (queue, [])
  | queue, event :: rest =>
      let first := queue.step event
      let others := run first.1 rest
      (others.1, first.2 ++ others.2)

end ReloadQueue

end PackModels
