import Fulfilment.World

/-!
The steps that coordinators are made of.

Main definitions:
- `Action`: one step; performing it changes the world at once and may leave further steps to do.
- `Outcome`: the world after a step with what is left to do, a panic, or a lock taken twice.
- `spawn`: hands a job to the background.
- `guarded`: a check and the change after it, under the lock of the order if the configuration
  asks for it.
-/
namespace Fulfilment

set_option autoImplicit false

inductive Action where
  /-- Ask shipping to take an order, and let no panic out. -/
  | place (c : CoordinatorRef) (o : OrderRef)
  /-- Attempt the payment of a shipped order. -/
  | pay (c : CoordinatorRef) (o : OrderRef)
  /-- Send the customer a message. -/
  | tell (c : CoordinatorRef) (o : OrderRef) (m : MessageType)
  /-- Hand the order to an employee. -/
  | escalate (c : CoordinatorRef) (o : OrderRef)
  /-- Put a stage attempt off. -/
  | enqueue (c : CoordinatorRef) (t : Task)
  /-- Put the payment off and escalate, if it is still pending and in time. -/
  | deferPayment (c : CoordinatorRef) (o : OrderRef)
  /-- Escalate a task that could not be added to the queue store. -/
  | escalateTask (c : CoordinatorRef) (t : Task) (f : Failure)
  /-- Start a look at the queue. -/
  | drain (c : CoordinatorRef)
  /-- Start the removal of the head of the queue. -/
  | dequeue (c : CoordinatorRef)
  /-- After a look at the queue: stop if it is empty, else pause and look again. -/
  | settleDrain (c : CoordinatorRef)
  /-- One attempt of a job, after this many failed ones. -/
  | attempt (j : Job) (failures : UInt32)
  /-- The rest of an attempt whose call was interrupted by other jobs. -/
  | conclude (j : Job) (failures : UInt32) (r : Reply)
  | pause (d : Span)
  /-- Run up to this many pending jobs. -/
  | serve (count : Nat)
  /-- The end of a job; a panic goes no further. -/
  | finish (j : Job)
  /-- The end of a placement; a panic goes no further. -/
  | placed (o : OrderRef)

inductive Outcome where
  | next (w : World) (todo : List Action)
  /-- A collaborator panicked. -/
  | panic (w : World)
  /-- The lock of an order was taken while it was held. -/
  | stuck (w : World)

/-! ## Background jobs -/

/-- What becomes of a job that is sure to run, or to be turned away by a closed pool. -/
def launch (s : Setup) (j : Job) (w : World) : Outcome :=
  match s.dispatch with
  | .inline => .next (w.record (.started j)) [.attempt j 0, .finish j]
  | .pool name =>
    if w.closed then
      .next ({ w with stats := w.stats.refused }.remark (.poolDropping name j.name)) []
    else .next ({ w with stats := w.stats.accepted }.enlist j) []
  | _ => .next (w.enlist j) []

/-- A job that waits is paid for when it starts, any other when it is spawned. -/
def spawn (s : Setup) (j : Job) (w : World) : Outcome :=
  let w := w.record (.spawned j)
  if s.dispatch = .deferred then .next (w.enlist j) []
  else if w.isExhausted then .next (w.record (.dropped j)) []
  else launch s j w.spendAllowance

/-- Starts the pending job at a place in the list. -/
def startAt? (s : Setup) (i : Nat) (w : World) : Option (World × List Action) :=
  match w.pending[i]? with
  | none => none
  | some j =>
    let w := { w with pending := w.pending.eraseIdx i }
    match s.dispatch with
    | .deferred =>
      if w.isExhausted then none
      else some (w.spendAllowance.record (.started j), [.attempt j 0, .finish j])
    | .pool name =>
      some ((w.remark (.poolRunning name j.name)).record (.started j), [.attempt j 0, .finish j])
    | _ => some (w.record (.started j), [.attempt j 0, .finish j])

/-- The end of a job that did not panic. -/
def finished (s : Setup) (j : Job) (w : World) : World :=
  match s.dispatch with
  | .threads => w
  | .pool _ => { w with stats := w.stats.ended false }.record (.ended j)
  | _ => w.record (.ended j)

/-- The end of a job that panicked. -/
def panicked (s : Setup) (j : Job) (w : World) : World :=
  match s.dispatch with
  | .threads => w
  | .pool name => { w with stats := w.stats.ended true }.remark (.poolPanicked name j.name)
  | _ => w.remark (.jobPanicked j.name)

/-! ## Check and change -/

/-- Runs the body with the lock of the order held where the configuration asks for it; nothing if
the lock is held already. -/
def guarded {α : Type} (s : Setup) (o : Option OrderRef) (body : World → World × α) (w : World) :
    Option (World × α) :=
  match s.config.consistency, o with
  | .serialized, some o =>
    if (w.order o).locked then none
    else
      let (w, a) := body (w.setLocked o true)
      some (w.setLocked o false, a)
  | _, _ => some (body w)

/-- Fails a pending payment; whether it was pending. -/
def failPending (o : OrderRef) (w : World) : World × Bool :=
  if (w.order o).payment = .trying then (w.setPayment o .notDone, true) else (w, false)

def failPayment (s : Setup) (o : OrderRef) (w : World) : Option (World × Bool) :=
  guarded s (some o) (failPending o) w

end Fulfilment
