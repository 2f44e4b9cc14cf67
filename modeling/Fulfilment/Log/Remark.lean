import Fulfilment.Work

/-!
What is said in the log.

Main definitions:
- `Remark`: one constructor per thing that is said.
- `Remark.speaker`: the part of the program that says it.
- `Remark.entry`: its level, its words and its fields in their order.
- `FieldValue.words`: a field value in words.
-/
namespace Fulfilment

set_option autoImplicit false

inductive Level where
  | error
  | warn
  | info
  | debug
  | trace
  deriving DecidableEq, Repr, Inhabited

namespace Level

def name : Level → String
  | .error => "ERROR"
  | .warn => "WARN"
  | .info => "INFO"
  | .debug => "DEBUG"
  | .trace => "TRACE"

/-- Higher for what matters less. -/
def verbosity : Level → Nat
  | .error => 1
  | .warn => 2
  | .info => 3
  | .debug => 4
  | .trace => 5

end Level

inductive FieldValue where
  | text (s : String)
  | whole (n : Nat)
  | real (x : Float)
  | id (tx : TransactionId)

def FieldValue.words : FieldValue → String
  | .text s => s
  | .id tx => tx.text
  | .whole n => toString n
  | .real x => Decimal.text .diagnostic x

structure Entry where
  level : Level
  text : String
  fields : List (String × FieldValue)

/-- The words of an entry count as a field of their own. -/
def Entry.fieldNames (e : Entry) : List String := "message" :: e.fields.map (·.1)

/-- The parts of the program that speak in the log. -/
inductive Speaker where
  | coordinator
  | queue
  | jobs
  | shipping
  | payment
  | messaging
  | employee
  | session
  deriving DecidableEq, Repr, Inhabited

/-- The name under which a filter knows a speaker. -/
def Speaker.path : Speaker → String
  | .coordinator => "commander_orchestrator::commander"
  | .queue => "commander_orchestrator::queue"
  | .jobs => "commander_orchestrator::spawner"
  | .shipping => "commander_services::shipping"
  | .payment => "commander_services::payment"
  | .messaging => "commander_services::messaging"
  | .employee => "commander_services::employee"
  | .session => "commander_demo"

inductive Remark where
  -- Placing an order.
  | placing (id : OrderId) (item : String) (price : Float)
  | placementAborted (id : OrderId)
  | shipped (id : OrderId) (tx : TransactionId)
  | cannotShip (id : OrderId) (address : String)
  | outOfStock (id : OrderId) (item : String)
  | notPlaced (id : OrderId) (f : Failure)
  | noticeShown (id : OrderId) (n : SiteNotice)
  -- Scripted failures of a service.
  | outage (id : OrderId) (service : String)
  | rejection (id : OrderId) (service : String) (f : Failure)
  -- Payment.
  | paymentExpired (id : OrderId)
  | paymentOver (id : OrderId)
  | paymentSettled (id : OrderId)
  | paid (id : OrderId) (tx : TransactionId)
  | detailsIncorrect (id : OrderId)
  | paymentToQueue (id : OrderId) (f : Failure)
  -- Messages.
  | messageOver (id : OrderId) (m : MessageType)
  | messageNotNeeded (id : OrderId) (m : MessageType)
  | messageDelivered (id : OrderId) (tx : TransactionId) (m : MessageType)
  | messageToQueue (id : OrderId) (m : MessageType) (f : Failure)
  | messageGivenUp (id : OrderId) (m : MessageType) (f : Failure)
  -- Escalation.
  | employeeOver (id : OrderId)
  | escalated (id : OrderId)
  | employeeToQueue (id : OrderId) (f : Failure)
  -- Adding to the queue.
  | queueOver (id : OrderId) (t : Task)
  | taskAlreadyDone (id : OrderId) (t : Task)
  | noStore (id : OrderId) (t : Task)
  | addOutage (id : OrderId) (f : Failure)
  | queued (id : OrderId) (t : Task)
  | paymentNotQueued (id : OrderId) (f : Failure)
  | taskNotQueued (id : OrderId) (t : Task) (f : Failure)
  -- Draining the queue.
  | drainOutage (f : Failure)
  | drainGivenUp (f : Failure)
  | visiting (id : OrderId) (t : Task)
  | taskTimedOut (id : OrderId) (t : Task)
  | queuedPaymentSettled (id : OrderId)
  | retryingPayment (id : OrderId)
  | messageTypeMissing (id : OrderId)
  | queuedMessageNotNeeded (id : OrderId) (m : MessageType)
  | retryingMessage (id : OrderId) (m : MessageType)
  | alreadyEscalated (id : OrderId)
  | retryingEmployee (id : OrderId)
  | drained
  | dequeueOutage (f : Failure)
  | dequeueGivenUp (f : Failure)
  | dequeued (id : OrderId) (t : Task)
  -- Collaborators.
  | shippingStored (tx : TransactionId) (item : String)
  | paymentRecorded (tx : TransactionId) (amount : Float)
  | messageSpoken (tx : TransactionId) (m : MessageType)
  | parked (id : OrderId)
  -- Background jobs.
  | jobPanicked (task : String)
  | poolStarted (pool : String) (workers : Nat)
  | poolRunning (pool task : String)
  | poolPanicked (pool task : String)
  | poolDropping (pool task : String)
  | poolStopped (pool : String)
  -- Scenarios.
  | scenarioRunning (scenario : String)
  | scenarioUnsettled (scenario : String)

namespace Remark

def order (id : OrderId) : String × FieldValue := ("order_id", .text id.text)

def failure (f : Failure) : String × FieldValue := ("error", .text f.message)

def message (m : MessageType) : String × FieldValue := ("message", .text m.label)

def task (t : Task) : String × FieldValue := ("task", .text t.label)

def transaction (tx : TransactionId) : String × FieldValue := ("transaction_id", .id tx)

def request (tx : TransactionId) : String × FieldValue := ("request_id", .id tx)

def speaker : Remark → Speaker
  | .placing .. | .placementAborted .. | .shipped .. | .cannotShip .. | .outOfStock ..
  | .notPlaced .. | .noticeShown .. | .outage .. | .rejection .. | .paymentExpired ..
  | .paymentOver .. | .paymentSettled .. | .paid .. | .detailsIncorrect .. | .paymentToQueue ..
  | .messageOver .. | .messageNotNeeded .. | .messageDelivered .. | .messageToQueue ..
  | .messageGivenUp .. | .employeeOver .. | .escalated .. | .employeeToQueue .. => .coordinator
  | .queueOver .. | .taskAlreadyDone .. | .noStore .. | .addOutage .. | .queued ..
  | .paymentNotQueued .. | .taskNotQueued .. | .drainOutage .. | .drainGivenUp ..
  | .visiting .. | .taskTimedOut .. | .queuedPaymentSettled .. | .retryingPayment ..
  | .messageTypeMissing .. | .queuedMessageNotNeeded .. | .retryingMessage ..
  | .alreadyEscalated .. | .retryingEmployee .. | .drained | .dequeueOutage ..
  | .dequeueGivenUp .. | .dequeued .. => .queue
  | .jobPanicked .. | .poolStarted .. | .poolRunning .. | .poolPanicked .. | .poolDropping ..
  | .poolStopped .. => .jobs
  | .shippingStored .. => .shipping
  | .paymentRecorded .. => .payment
  | .messageSpoken .. => .messaging
  | .parked .. => .employee
  | .scenarioRunning .. | .scenarioUnsettled .. => .session

def entry : Remark → Entry
  | .placing id item price =>
    ⟨.info, "placing order", [order id, ("item", .text item), ("price", .real price)]⟩
  | .placementAborted id =>
    ⟨.error, "order placement aborted by a panicking collaborator", [order id]⟩
  | .shipped id tx => ⟨.info, "shipping placed successfully", [order id, transaction tx]⟩
  | .cannotShip id address =>
    ⟨.info, "shipping not possible to address, adding problem to employee handle",
      [order id, ("address", .text address)]⟩
  | .outOfStock id item =>
    ⟨.info, "item unavailable, adding problem to employee handle", [order id, ("item", .text item)]⟩
  | .notPlaced id f =>
    ⟨.error, "shipping service unavailable, order not placed", [order id, failure f]⟩
  | .noticeShown id n => ⟨.info, n.text, [order id, ("notice", .text n.label)]⟩
  | .outage id service =>
    ⟨.debug, "error in connecting to " ++ service ++ ", trying again",
      [order id, ("service", .text service)]⟩
  | .rejection id service f =>
    ⟨.debug, service ++ " rejected request", [order id, ("service", .text service), failure f]⟩
  | .paymentExpired id => ⟨.error, "payment time for order over, failed and returning", [order id]⟩
  | .paymentOver id => ⟨.trace, "payment time for order over, nothing to do", [order id]⟩
  | .paymentSettled id => ⟨.trace, "payment already settled", [order id]⟩
  | .paid id tx => ⟨.info, "payment successful", [order id, transaction tx]⟩
  | .detailsIncorrect id => ⟨.error, "payment details incorrect, payment failed", [order id]⟩
  | .paymentToQueue id f => ⟨.warn, "payment error, going to queue", [order id, failure f]⟩
  | .messageOver id m => ⟨.trace, "message time for order over, returning", [order id, message m]⟩
  | .messageNotNeeded id m => ⟨.trace, "message no longer needed", [order id, message m]⟩
  | .messageDelivered id tx m => ⟨.info, "message sent", [order id, request tx, message m]⟩
  | .messageToQueue id m f =>
    ⟨.warn, "error in sending message, queueing task and adding to employee handle",
      [order id, message m, failure f]⟩
  | .messageGivenUp id m f => ⟨.debug, "giving up on message", [order id, message m, failure f]⟩
  | .employeeOver id => ⟨.trace, "employee handle time for order over, returning", [order id]⟩
  | .escalated id => ⟨.info, "added order to employee database", [order id]⟩
  | .employeeToQueue id f =>
    ⟨.warn, "error in adding to employee db, queueing task", [order id, failure f]⟩
  | .queueOver id t => ⟨.trace, "queue time for order over, not queueing", [order id, task t]⟩
  | .taskAlreadyDone id t =>
    ⟨.trace, "not queueing task since task already done", [order id, task t]⟩
  | .noStore id t => ⟨.warn, "no queue store configured, dropping task", [order id, task t]⟩
  | .addOutage id f =>
    ⟨.warn, "error in connecting to queue db, trying again", [order id, failure f]⟩
  | .queued id t => ⟨.info, "task added to queue", [order id, task t]⟩
  | .paymentNotQueued id f =>
    ⟨.error, "unable to queue payment task, payment failed", [order id, failure f]⟩
  | .taskNotQueued id t f =>
    ⟨.error, "unable to queue task, adding to employee handle", [order id, task t, failure f]⟩
  | .drainOutage f =>
    ⟨.warn, "error in accessing queue db to do tasks, trying again", [failure f]⟩
  | .drainGivenUp f => ⟨.debug, "giving up on draining queue", [failure f]⟩
  | .visiting id t => ⟨.trace, "started doing queued task", [order id, task t]⟩
  | .taskTimedOut id t => ⟨.trace, "queued task timed out, dequeueing", [order id, task t]⟩
  | .queuedPaymentSettled id =>
    ⟨.trace, "queued payment already settled, dequeueing", [order id]⟩
  | .retryingPayment id => ⟨.debug, "retrying payment from queue", [order id]⟩
  | .messageTypeMissing id =>
    ⟨.warn, "messaging task without message type, dequeueing", [order id]⟩
  | .queuedMessageNotNeeded id m =>
    ⟨.trace, "queued message no longer needed, dequeueing", [order id, message m]⟩
  | .retryingMessage id m => ⟨.debug, "retrying message from queue", [order id, message m]⟩
  | .alreadyEscalated id =>
    ⟨.trace, "order already with employee handle, dequeueing", [order id]⟩
  | .retryingEmployee id => ⟨.debug, "retrying employee handle from queue", [order id]⟩
  | .drained => ⟨.trace, "queue is empty, drain loop stopping", []⟩
  | .dequeueOutage f =>
    ⟨.warn, "error in connecting to queue db to dequeue, trying again", [failure f]⟩
  | .dequeueGivenUp f => ⟨.debug, "giving up on dequeue", [failure f]⟩
  | .dequeued id t => ⟨.trace, "dequeued task", [order id, task t]⟩
  | .shippingStored tx item =>
    ⟨.debug, "shipping request stored", [transaction tx, ("item", .text item)]⟩
  | .paymentRecorded tx amount =>
    ⟨.debug, "payment recorded", [transaction tx, ("amount", .real amount)]⟩
  | .messageSpoken tx m => ⟨.info, m.text, [request tx, ("code", .whole m.code)]⟩
  | .parked id => ⟨.debug, "order parked for employee review", [order id]⟩
  | .jobPanicked task => ⟨.error, "inline task panicked", [("task", .text task)]⟩
  | .poolStarted pool workers =>
    ⟨.info, "worker pool started", [("pool", .text pool), ("workers", .whole workers)]⟩
  | .poolRunning pool task => ⟨.debug, "running task", [("pool", .text pool), ("task", .text task)]⟩
  | .poolPanicked pool task =>
    ⟨.error, "task panicked", [("pool", .text pool), ("task", .text task)]⟩
  | .poolDropping pool task =>
    ⟨.warn, "worker pool shut down, dropping task", [("pool", .text pool), ("task", .text task)]⟩
  | .poolStopped pool => ⟨.info, "worker pool stopped", [("pool", .text pool)]⟩
  | .scenarioRunning scenario => ⟨.info, "running scenario", [("scenario", .text scenario)]⟩
  | .scenarioUnsettled scenario =>
    ⟨.warn, "background work still running, reporting current state",
      [("scenario", .text scenario)]⟩

end Remark
end Fulfilment
