import Fulfilment.Order

/-!
Stage attempts put off to the queue store.

Main definitions:
- `Task`: the order, the stage and, for a message, which one; remembers its first drain visit.
- `Task.markFirstAttempt`: only the first mark counts.
-/
namespace Fulfilment

set_option autoImplicit false

inductive TaskType where
  | payment
  | messaging
  | employeeDb
  deriving DecidableEq, Repr, Inhabited

namespace TaskType

def name : TaskType → String
  | .payment => "payment"
  | .messaging => "messaging"
  | .employeeDb => "employee_db"

def all : List TaskType := [.payment, .messaging, .employeeDb]

def named? (s : String) : Option TaskType := all.find? (·.name == s)

end TaskType

structure Task where
  order : OrderRef
  type : TaskType
  message : Option MessageType := none
  firstAttempt : Option Instant := none
  deriving DecidableEq, Repr, Inhabited

namespace Task

def payment (o : OrderRef) : Task := { order := o, type := .payment }

def messaging (o : OrderRef) (m : MessageType) : Task :=
  { order := o, type := .messaging, message := some m }

def employeeDb (o : OrderRef) : Task := { order := o, type := .employeeDb }

/-- The number of the message, -1 without one. -/
def messageCode (t : Task) : Int :=
  match t.message with
  | some m => m.code
  | none => -1

/-- The kind of task in words. -/
def label (t : Task) : String :=
  match t.type, t.message with
  | .payment, _ => "Payment"
  | .employeeDb, _ => "Employee Db"
  | .messaging, some .paymentFail => "Payment Failure Message"
  | .messaging, some .paymentTrying => "Payment Error Message"
  | .messaging, _ => "Payment Success Message"

/-- The time of the first visit, counting one at `now`. -/
def firstVisit (t : Task) (now : Instant) : Instant := t.firstAttempt.getD now

def markFirstAttempt (t : Task) (now : Instant) : Task :=
  { t with firstAttempt := some (t.firstVisit now) }

/-- Nothing is left to do for the task on an order in this state. -/
def isSettled (t : Task) (o : Order) : Bool :=
  match t.type with
  | .payment => o.payment ≠ .trying
  | .messaging =>
    match t.message with
    | some m => !o.needsMessage m
    | none => true
  | .employeeDb => o.escalated

end Task
end Fulfilment
