import PackModels.Reload.Prepare

/-!
Contract: the generation that is live, and how it is replaced.

Preparing a generation shows nothing of it. It becomes live as a whole when it
is applied, and each time one is applied the number of the generation goes up.
A barrier stands between the two; when it fails, the prepared generation is
dropped and the live one stays.
-/

namespace PackModels

/-- The generation that is live, and how many have been applied. -/
structure LiveModels where
  current : Snapshot
  generation : Nat

namespace LiveModels

def start : LiveModels :=
  ⟨Snapshot.empty, 0⟩

variable (live : LiveModels)

def apply (prepared : Snapshot) : LiveModels :=
  ⟨prepared, live.generation + 1⟩

/-- Prepares a generation and, if the barrier holds, makes it live; the
warnings are those of preparing it. -/
def reloadBehind {Failure : Type} (inputs : ReloadInputs) (barrier : Except Failure Unit) :
    Except Failure LiveModels × List Warning :=
  let prepared := Prepare.snapshot inputs
  (barrier.map (fun _ => live.apply prepared.1), prepared.2)

def reload (inputs : ReloadInputs) : LiveModels × List Warning :=
  let prepared := Prepare.snapshot inputs
  (live.apply prepared.1, prepared.2)

end LiveModels

end PackModels
