import Fulfilment.Stage.Attempt

/-!
Performing actions.

Main definitions:
- `pay`, `tell`, `escalate`, `enqueue`: the stages, each within its time budget.
- `perform`: the outcome of any action.
-/
namespace Fulfilment

set_option autoImplicit false

/-! ## Stages -/

/-- A pending payment fails on the spot once its time is over. -/
def pay (s : Setup) (c : CoordinatorRef) (o : OrderRef) (w : World) : Outcome :=
  if w.budgetExceeded o s.config.limits.payment then
    match failPayment s o w with
    | none => .stuck w
    | some (w, true) => .next (w.remark (.paymentExpired (w.idOf o))) [.tell c o .paymentFail]
    | some (w, false) => .next (w.remark (.paymentOver (w.idOf o))) []
  else spawn s ⟨c, .payment o⟩ w

def tell (s : Setup) (c : CoordinatorRef) (o : OrderRef) (m : MessageType) (w : World) : Outcome :=
  if w.budgetExceeded o s.config.limits.message then
    .next (w.remark (.messageOver (w.idOf o) m)) []
  else spawn s ⟨c, .messaging o m⟩ w

def escalate (s : Setup) (c : CoordinatorRef) (o : OrderRef) (w : World) : Outcome :=
  if w.budgetExceeded o s.config.limits.employee then .next (w.remark (.employeeOver (w.idOf o))) []
  else spawn s ⟨c, .escalation o⟩ w

/-- Dropped once the time is over, when nothing is left to do, and without a queue store. -/
def enqueue (s : Setup) (c : CoordinatorRef) (t : Task) (w : World) : Outcome :=
  let id := w.idOf t.order
  if w.budgetExceeded t.order s.config.limits.queue then .next (w.remark (.queueOver id t)) []
  else if t.isSettled (w.order t.order) then .next (w.remark (.taskAlreadyDone id t)) []
  else if s.hasStore then spawn s ⟨c, .add t⟩ w
  else .next (w.remark (.noStore id t)) []

def deferPayment (s : Setup) (c : CoordinatorRef) (o : OrderRef) (w : World) : Outcome :=
  if (w.order o).payment = .trying && !w.budgetExceeded o s.config.limits.payment then
    .next w [.enqueue c (.payment o), .escalate c o]
  else .next w []

def settleDrain (s : Setup) (c : CoordinatorRef) (w : World) : Outcome :=
  if w.queuedItems c = 0 then .next (w.remark .drained) []
  else .next w [.pause s.config.limits.drainInterval, .drain c]

/-- Other jobs may run while one sleeps, if jobs are deferred. -/
def pause (s : Setup) (d : Span) (w : World) : Outcome :=
  let w := w.record (.slept d)
  .next (if s.sleepsPass then w.advance d else w)
    (if s.dispatch = .deferred ∧ 0 < s.sleepRuns then [.serve s.sleepRuns] else [])

def serve (s : Setup) (count : Nat) (w : World) : Outcome :=
  match count with
  | 0 => .next w []
  | count + 1 =>
    match startAt? s 0 w with
    | none => .next w []
    | some (w, todo) => .next w (todo ++ [.serve count])

/-! ## All actions -/

def perform (s : Setup) (a : Action) (w : World) : Outcome :=
  match a with
  | .place c o =>
    .next (w.remark (.placing (w.idOf o) (w.order o).item (w.order o).price))
      [.attempt ⟨c, .shipping o⟩ 0, .placed o]
  | .pay c o => pay s c o w
  | .tell c o m => tell s c o m w
  | .escalate c o => escalate s c o w
  | .enqueue c t => enqueue s c t w
  | .deferPayment c o => deferPayment s c o w
  | .escalateTask c t f =>
    .next (w.remark (.taskNotQueued (w.idOf t.order) t f)) [.escalate c t.order]
  | .drain c => if s.hasStore then spawn s ⟨c, .drain⟩ w else .next w []
  | .dequeue c => if s.hasStore then spawn s ⟨c, .dequeue⟩ w else .next w []
  | .settleDrain c => settleDrain s c w
  | .attempt j failures => attempt s j failures w
  | .conclude j failures r => conclude s j failures r w
  | .pause d => pause s d w
  | .serve count => serve s count w
  | .finish j => .next (finished s j w) []
  | .placed _ => .next w []

end Fulfilment
