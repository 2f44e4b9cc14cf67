import Fulfilment.Collaborators.Basic

/-!
Work that is attempted, repeated and handed to the background.

Main definitions:
- `Work`: one stage of an order or one queue operation.
- `Job`: work of one of the coordinators that share the collaborators.
- `Call` and `Receipt`: a request to a collaborator and its answer.
-/
namespace Fulfilment

set_option autoImplicit false

/-! ## Jobs -/

inductive Work where
  /-- Ask shipping to take the order; the only work done before the caller gets an answer. -/
  | shipping (o : OrderRef)
  | payment (o : OrderRef)
  | messaging (o : OrderRef) (m : MessageType)
  /-- Hand the order to an employee. -/
  | escalation (o : OrderRef)
  /-- Add a task to the queue store. -/
  | add (t : Task)
  /-- Look at the head of the queue store and attempt its stage again. -/
  | drain
  /-- Remove the head of the queue store. -/
  | dequeue
  deriving DecidableEq, Repr, Inhabited

namespace Work

def name : Work → String
  | .shipping _ => "shipping"
  | .payment _ => "payment"
  | .messaging _ _ => "messaging"
  | .escalation _ => "employee-handle"
  | .add _ => "queue-add"
  | .drain => "queue-drain"
  | .dequeue => "queue-dequeue"

/-- The service the work needs, whose scripted failures it meets first. -/
def service : Work → Service
  | .shipping _ => .shipping
  | .payment _ => .payment
  | .messaging _ _ => .messaging
  | .escalation _ => .employee
  | .add _ => .queue
  | .drain => .queue
  | .dequeue => .queue

/-- The order whose flags the work checks and then changes. -/
def checked? : Work → Option OrderRef
  | .payment o => some o
  | .messaging o _ => some o
  | .escalation o => some o
  | _ => none

end Work

/-- The number of a coordinator. -/
abbrev CoordinatorRef := Nat

structure Job where
  owner : CoordinatorRef
  work : Work
  deriving DecidableEq, Repr, Inhabited

def Job.name (j : Job) : String := j.work.name

/-! ## Calls -/

inductive CallKind where
  | shipping
  | payment
  | messaging
  | employee
  | add
  | peek
  | dequeue
  deriving DecidableEq, Repr, Inhabited

namespace CallKind

def name : CallKind → String
  | .shipping => "shipping"
  | .payment => "payment"
  | .messaging => "messaging"
  | .employee => "employee"
  | .add => "add"
  | .peek => "peek"
  | .dequeue => "dequeue"

def all : List CallKind := [.shipping, .payment, .messaging, .employee, .add, .peek, .dequeue]

def named? (s : String) : Option CallKind := all.find? (·.name == s)

end CallKind

/-- The call that a work makes. -/
def Work.callKind : Work → CallKind
  | .shipping _ => .shipping
  | .payment _ => .payment
  | .messaging _ _ => .messaging
  | .escalation _ => .employee
  | .add _ => .add
  | .drain => .peek
  | .dequeue => .dequeue

/-- What a collaborator was asked, and for which order. -/
inductive Call where
  | shipping (o : OrderRef) (item address : String)
  | payment (o : OrderRef) (amount : Float)
  | messaging (o : OrderRef) (m : MessageType)
  | employee (o : OrderRef)
  | add (t : Task)
  | peek
  | dequeue

def Call.kind : Call → CallKind
  | .shipping _ _ _ => .shipping
  | .payment _ _ => .payment
  | .messaging _ _ => .messaging
  | .employee _ => .employee
  | .add _ => .add
  | .peek => .peek
  | .dequeue => .dequeue

/-- The answer of a collaborator that accepted. -/
inductive Receipt where
  | transaction (id : TransactionId)
  /-- The employee handle has the order. -/
  | parked
  /-- The queue store has the task. -/
  | stored
  /-- The head of the queue store, if there is one. -/
  | head (t : Option Task)
  /-- The task removed from the queue store. -/
  | taken (t : Task)
  deriving DecidableEq, Repr

end Fulfilment
