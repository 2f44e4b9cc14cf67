import Fulfilment.Collaborators.Records
import Fulfilment.Task
import Fulfilment.Failure

/-!
The collaborators in memory: shipping, payment, messaging, the employee handle and the queue store.

Main definitions:
- `Collaborators`: their records; all requests take their ids from one sequence.
- `Collaborators.ship`, `pay`, `deliver`, `park`: accept a request.
- `Collaborators.add`, `head?`, `take?`: the queue store, first in, first out.
- `FaultScripts`: for each service the failures that its callers still have to raise.
-/
namespace Fulfilment

set_option autoImplicit false

structure Collaborators where
  shipping : Records TransactionId ShippingRecord := {}
  payment : Records TransactionId PaymentRecord := {}
  messaging : Records TransactionId MessageRecord := {}
  employee : Records OrderId Snapshot := {}
  /-- Tasks of the queue store, the head first. -/
  store : List Task := []
  /-- The types of all tasks ever added, in their order. -/
  added : List TaskType := []
  /-- Ids are consecutive numbers; this is the last one given out. -/
  lastId : Nat := 0

namespace Collaborators

instance : Inhabited Collaborators := ⟨{}⟩

/-! ## Requests -/

/-- The ids still to be given out: the numbers after the last one. -/
def mint (c : Collaborators) (i : Nat) : TransactionId := ⟨c.lastId + 1 + i⟩

/-- Stores a record under the next id that is free; among one more ids than there are records one
is. -/
def recordFresh {ν : Type} (c : Collaborators) (r : Records TransactionId ν)
    (build : TransactionId → ν) : TransactionId × Records TransactionId ν :=
  match r.insertFresh? c.mint (r.size + 1) build with
  | some (i, r) => (c.mint i, r)
  | none => (c.mint 0, r)

def ship (c : Collaborators) (item address : String) (now : Instant) :
    TransactionId × Collaborators :=
  let (id, shipping) := c.recordFresh c.shipping fun id => ⟨id, item, address, .ofInstant now⟩
  (id, { c with shipping, lastId := id.value })

def pay (c : Collaborators) (amount : Float) (now : Instant) : TransactionId × Collaborators :=
  let (id, payment) := c.recordFresh c.payment fun id => ⟨id, amount, true, .ofInstant now⟩
  (id, { c with payment, lastId := id.value })

def deliver (c : Collaborators) (m : MessageType) (now : Instant) : TransactionId × Collaborators :=
  let (id, messaging) := c.recordFresh c.messaging fun id => ⟨id, m, m.text, .ofInstant now⟩
  (id, { c with messaging, lastId := id.value })

/-- Whether the order was new to the employee handle, which keeps the first snapshot. -/
def park (c : Collaborators) (s : Snapshot) : Bool × Collaborators :=
  let (new, employee) := c.employee.insertIfAbsent s.id s
  (new, { c with employee })

def sentOf (c : Collaborators) (m : MessageType) : Nat :=
  (c.messaging.values.filter (·.message = m)).length

/-! ## Queue store -/

def add (c : Collaborators) (t : Task) : Collaborators :=
  { c with store := c.store ++ [t], added := c.added ++ [t.type] }

def head? (c : Collaborators) : Option Task := c.store.head?

def markHead (c : Collaborators) (now : Instant) : Collaborators :=
  match c.store with
  | [] => c
  | t :: rest => { c with store := t.markFirstAttempt now :: rest }

def take? (c : Collaborators) : Option (Task × Collaborators) :=
  match c.store with
  | [] => none
  | t :: rest => some (t, { c with store := rest })

end Collaborators

/-! ## Scripted failures -/

inductive Service where
  | shipping
  | payment
  | messaging
  | employee
  | queue
  deriving DecidableEq, Repr, Inhabited

namespace Service

def name : Service → String
  | .shipping => "shipping"
  | .payment => "payment"
  | .messaging => "messaging"
  | .employee => "employee"
  | .queue => "queue"

def all : List Service := [.shipping, .payment, .messaging, .employee, .queue]

def named? (s : String) : Option Service := all.find? (·.name == s)

end Service

structure FaultScripts where
  shipping : Faults := []
  payment : Faults := []
  messaging : Faults := []
  employee : Faults := []
  queue : Faults := []
  deriving DecidableEq, Repr, Inhabited

namespace FaultScripts

def get (f : FaultScripts) : Service → Faults
  | .shipping => f.shipping
  | .payment => f.payment
  | .messaging => f.messaging
  | .employee => f.employee
  | .queue => f.queue

def set (f : FaultScripts) (faults : Faults) : Service → FaultScripts
  | .shipping => { f with shipping := faults }
  | .payment => { f with payment := faults }
  | .messaging => { f with messaging := faults }
  | .employee => { f with employee := faults }
  | .queue => { f with queue := faults }

def push (f : FaultScripts) (s : Service) (fault : Failure) : FaultScripts :=
  f.set ((f.get s).pushed fault) s

def pop (f : FaultScripts) (s : Service) : Option Failure × FaultScripts :=
  match f.get s with
  | [] => (none, f)
  | fault :: rest => (some fault, f.set rest s)

/-- How many failures are left altogether. -/
def size (f : FaultScripts) : Nat :=
  f.shipping.length + f.payment.length + f.messaging.length + f.employee.length + f.queue.length

end FaultScripts
end Fulfilment
