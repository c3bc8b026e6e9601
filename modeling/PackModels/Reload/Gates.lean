import PackModels.Reload.Queue

/-!
Contract: a queue of reloads together with the gates that hold them back.

Gates are numbered as they are made, one for each gated request, and a gate
ends once: what happens to it later changes nothing. An update starts what
waits, lets every reload finish that no gate holds back, and collects the
outcomes.
-/

namespace PackModels

/-- A queue and the gates of its requests; a gate that has not ended is
`none`. -/
structure GatedReloads where
  queue : ReloadQueue
  gates : Array (Option GateEnd)

namespace GatedReloads

def empty : GatedReloads :=
  ⟨ReloadQueue.empty, #[]⟩

variable (reloads : GatedReloads)

def askFree (inputs : ReloadInputs) : GatedReloads :=
  { reloads with queue := reloads.queue.ask ⟨inputs, none⟩ }

def askGated (inputs : ReloadInputs) : GatedReloads :=
  ⟨reloads.queue.ask ⟨inputs, some reloads.gates.size⟩, reloads.gates.push none⟩

def endGate (gate : Nat) (outcome : GateEnd) : GatedReloads :=
  match reloads.gates[gate]? with
  | some none => { reloads with gates := reloads.gates.setIfInBounds gate (some outcome) }
  | _ => reloads

/-- How the gate of a reload has ended, if nothing holds the reload back. -/
def released? (reload : RunningReload) : Option GateEnd :=
  match reload.request.gate with
  | none => some .opened
  | some gate => reloads.gates[gate]?.join

/-- The events of the reloads that can finish, the first started first. -/
def finishing : List ReloadEvent :=
  reloads.queue.running.filterMap
    (fun reload => (reloads.released? reload).map (.finish reload.sequence))

def settle : GatedReloads × List Warning :=
  let settled := reloads.queue.run reloads.finishing
  ({ reloads with queue := settled.1 }, settled.2)

/-- Starts what waits, lets it finish and collects the outcomes. -/
def update : GatedReloads × List Warning :=
  let started := reloads.queue.startAll
  let settled := ({ reloads with queue := started.1 } : GatedReloads).settle
  ({ settled.1 with queue := settled.1.queue.collect }, started.2 ++ settled.2)

/-- Loses every gate that has not ended, and lets the reloads behind them
finish. -/
def abandon : GatedReloads × List Warning :=
  ({ reloads with gates := reloads.gates.map (fun gate => some (gate.getD .lost)) } :
    GatedReloads).settle

end GatedReloads

end PackModels
