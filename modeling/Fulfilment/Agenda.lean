import Fulfilment.Stage.Perform

/-!
Runs: performing the first action of an agenda until none is left.

Main definitions:
- `Run`: a world and the actions still to perform.
- `Run.step`: performs the first action; what it leaves to do comes before the rest, a panic skips
  everything up to the end of the job or placement it happened in.
- `Run.drive`: steps up to a bound.
- `Run.patience`: a number of steps that no run needs.
-/
namespace Fulfilment

set_option autoImplicit false

structure Run where
  world : World
  agenda : List Action := []
  /-- A lock was taken while it was held; nothing moves any more. -/
  stuck : Bool := false
  deriving Inhabited

namespace Run

/-- The agenda after the end of whatever the panic happened in. -/
def unwind (s : Setup) (w : World) : List Action → Run
  | [] => { world := w }
  | .finish j :: rest => { world := panicked s j w, agenda := rest }
  | .placed o :: rest => { world := w.remark (.placementAborted (w.idOf o)), agenda := rest }
  | _ :: rest => unwind s w rest

def step (s : Setup) (r : Run) : Run :=
  if r.stuck then r
  else
    match r.agenda with
    | [] => r
    | a :: rest =>
      match perform s a r.world with
      | .next w todo => { world := w, agenda := todo ++ rest }
      | .panic w => unwind s w rest
      | .stuck w => { world := w, agenda := a :: rest, stuck := true }

def isOver (r : Run) : Bool := r.stuck || r.agenda.isEmpty

def drive (s : Setup) : Nat → Run → Run
  | 0, r => r
  | fuel + 1, r => if r.isOver then r else drive s fuel (r.step s)

/-- Every job takes a few steps per attempt and a few more, and each failed attempt uses up a
scripted failure or a reply. -/
def patience (s : Setup) (w : World) : Nat :=
  (w.horizon + 2) *
    (8 * (s.config.retry.retries.toNat + w.faults.size + w.replies.length) + 64)

/-- Performs actions until nothing is left to do. -/
def toEnd (s : Setup) (w : World) (agenda : List Action) : World :=
  (drive s (patience s w) { world := w, agenda }).world

end Run
end Fulfilment
