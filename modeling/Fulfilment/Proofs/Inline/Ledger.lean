import Fulfilment.Proofs.Stage.Change

/-! One order in a run in which jobs run on the spot, with a queue store that works: what matters of
the world is put down in a ledger, and what an action can do to it is said once.

* `Ledger`, `World.ledger`: the flags of the order, the queue store and its counter, the failures
  the payment service has left, and whether the order was shipped.
* `Ledger.Step`: what an action leads to. -/
namespace Fulfilment

set_option autoImplicit false

/-! ## The ledger -/

/-- The order without its notice and its lock. -/
def Order.bare (x : Order) : Order := { x with notice := none, locked := false }

theorem Order.needsMessage_bare (m : MessageType) (x : Order) :
    x.bare.needsMessage m = x.needsMessage m := by
  cases m <;> rfl

theorem Task.isSettled_payment {o : OrderRef} {x : Order} (h : x.payment ≠ .trying) :
    (Task.payment o).isSettled x = true := by
  simpa [isSettled, payment] using h

theorem Task.isSettled_messaging {o : OrderRef} {m : MessageType} {x : Order}
    (h : x.needsMessage m = false) : (Task.messaging o m).isSettled x = true := by
  simp [isSettled, messaging, h]

theorem Task.isSettled_employeeDb {o : OrderRef} {x : Order} (h : x.escalated = true) :
    (Task.employeeDb o).isSettled x = true := h

structure Ledger where
  order : Order
  store : List Task
  counted : Option Nat
  script : Faults
  shipped : Bool

/-! ## What actions are about -/

/-- The task that a work is the attempt of. -/
def Work.task? : Work → Option Task
  | .payment o => some (.payment o)
  | .messaging o m => some (.messaging o m)
  | .escalation o => some (.employeeDb o)
  | .add t => some t
  | _ => none

/-- The task that an action sees to. -/
def Action.task? : Action → Option Task
  | .pay _ o => some (.payment o)
  | .deferPayment _ o => some (.payment o)
  | .tell _ o m => some (.messaging o m)
  | .escalate _ o => some (.employeeDb o)
  | .enqueue _ t => some t
  | .attempt j _ => j.work.task?
  | _ => none

/-- The work that an action spawns a job for. -/
def Action.work? : Action → Option Work
  | .pay _ o => some (.payment o)
  | .tell _ o m => some (.messaging o m)
  | .escalate _ o => some (.escalation o)
  | .enqueue _ t => some (.add t)
  | .drain _ => some .drain
  | .dequeue _ => some .dequeue
  | _ => none

/-- Another look at the queue is to come. -/
def Action.drains : Action → Bool
  | .drain _ => true
  | .settleDrain _ => true
  | .attempt ⟨_, .drain⟩ _ => true
  | _ => false

/-- The head of the queue is about to be removed. -/
def Action.removes : Action → Bool
  | .dequeue _ => true
  | .attempt ⟨_, .dequeue⟩ _ => true
  | _ => false

/-- Waiting, and ends. -/
def Action.isIdle : Action → Bool
  | .pause _ => true
  | .finish _ => true
  | .placed _ => true
  | _ => false

theorem task?_of_idle {a : Action} (h : a.isIdle = true) : a.task? = none := by
  cases a <;> first | rfl | cases h

theorem drains_of_idle {a : Action} (h : a.isIdle = true) : a.drains = false := by
  cases a <;> first | rfl | cases h

theorem drains_attempt {c : CoordinatorRef} {work : Work} {n : UInt32}
    (h : (Action.attempt ⟨c, work⟩ n).drains = true) : work = .drain := by
  cases work <;> first | rfl | cases h

section Spawning
variable {a : Action} {work : Work} (h : a.work? = some work) (c : CoordinatorRef) (n : UInt32)
include h

theorem task?_of_work? : a.task? = (Action.attempt ⟨c, work⟩ n).task? := by
  cases a <;> cases h <;> rfl

theorem drains_of_work? : a.drains = (Action.attempt ⟨c, work⟩ n).drains := by
  cases a <;> cases h <;> rfl

theorem removes_of_work? : a.removes = (Action.attempt ⟨c, work⟩ n).removes := by
  cases a <;> cases h <;> rfl

end Spawning

/-- Only a message without its type would be removed in place of its stage. -/
theorem retry_removes (c : CoordinatorRef) {t : Task} {x : Order} (h : t.isSettled x = false) :
    (t.retry c).removes = false := by
  simp only [Task.retry]
  cases htype : t.type with
  | payment => rfl
  | employeeDb => rfl
  | messaging =>
    cases hm : t.message with
    | some m => rfl
    | none =>
      simp only [Task.isSettled, htype, hm] at h
      cases h

/-! ## Steps -/

/-- A failure of the payment service is met by attempts to be paid only. -/
def Ledger.Pops (l : Ledger) (work : Work) (f : Failure) (script : Faults) : Prop :=
  l.script = if work.service = .payment then f :: script else script

inductive Ledger.Step (c : CoordinatorRef) (o : OrderRef) :
    Ledger → Action → Ledger → List Action → Prop
  | idle (l : Ledger) (a : Action) (ha : a.isIdle = true) : Step c o l a l []
  | placing (l : Ledger) :
      Step c o l (.place c o) l [.attempt ⟨c, .shipping o⟩ 0, .placed o]
  | spawned (l : Ledger) (a : Action) (work : Work) (ha : a.work? = some work) :
      Step c o l a l [.attempt ⟨c, work⟩ 0, .finish ⟨c, work⟩]
  | alreadyDone (l : Ledger) (t : Task) (ht : t.isSettled l.order = true) :
      Step c o l (.enqueue c t) l []
  | deferred (l : Ledger) :
      Step c o l (.deferPayment c o) l [.enqueue c (.payment o), .escalate c o]
  | notDeferred (l : Ledger) (hp : l.order.payment ≠ .trying) :
      Step c o l (.deferPayment c o) l []
  | drained (l : Ledger) (h : l.counted.getD 0 = 0) : Step c o l (.settleDrain c) l []
  | drainsOn (l : Ledger) (d : Span) : Step c o l (.settleDrain c) l [.pause d, .drain c]
  | again (l : Ledger) (work : Work) (n m : UInt32) (d : Span) (f : Failure) (script : Faults)
      (hw : work.service ≠ .queue) (hf : f.isOutage = true) (hs : l.Pops work f script) :
      Step c o l (.attempt ⟨c, work⟩ n) { l with script } [.pause d, .attempt ⟨c, work⟩ m]
  | settled (l : Ledger) (work : Work) (n : UInt32) (t : Task) (script : Faults)
      (hw : work.task? = some t) (ht : t.isSettled l.order = true)
      (hs : l.order.payment = .trying → script = l.script) :
      Step c o l (.attempt ⟨c, work⟩ n) { l with script } []
  | shipped (l : Ledger) (n : UInt32) :
      Step c o l (.attempt ⟨c, .shipping o⟩ n) { l with shipped := true } [.pay c o]
  | turnedAway (l : Ledger) (n : UInt32) (more : List Action)
      (hmore : ∀ b ∈ more, b = .escalate c o) :
      Step c o l (.attempt ⟨c, .shipping o⟩ n) l more
  | paid (l : Ledger) (n : UInt32) (hp : l.order.payment = .trying) (hs : l.script = []) :
      Step c o l (.attempt ⟨c, .payment o⟩ n)
        { l with order := { l.order with payment := .done } } [.tell c o .paymentSuccess]
  | rejected (l : Ledger) (n : UInt32) (script : Faults) (hp : l.order.payment = .trying)
      (hs : l.script = .paymentDetailsError :: script) :
      Step c o l (.attempt ⟨c, .payment o⟩ n)
        { l with script, order := { l.order with payment := .notDone } } [.tell c o .paymentFail]
  | notPaid (l : Ledger) (n : UInt32) (f : Failure) (script : Faults) (more : List Action)
      (hf : f ≠ .paymentDetailsError) (hs : l.script = f :: script)
      (hmore : ∀ b ∈ more, b = .tell c o .paymentTrying) :
      Step c o l (.attempt ⟨c, .payment o⟩ n) { l with script } (more ++ [.deferPayment c o])
  | told (l : Ledger) (n : UInt32) (m : MessageType) (hm : l.order.needsMessage m = true) :
      Step c o l (.attempt ⟨c, .messaging o m⟩ n)
        { l with order := { l.order with sent := .ofMessage m } } []
  | handed (l : Ledger) (n : UInt32) :
      Step c o l (.attempt ⟨c, .escalation o⟩ n)
        { l with order := { l.order with escalated := true } } []
  | putOff (l : Ledger) (work : Work) (n : UInt32) (t : Task) (more : List Action)
      (hw : work.task? = some t) (hmore : ∀ b ∈ more, b = .escalate c o) :
      Step c o l (.attempt ⟨c, work⟩ n) l (.enqueue c t :: more)
  | added (l : Ledger) (n : UInt32) (t : Task) :
      Step c o l (.attempt ⟨c, .add t⟩ n)
        { l with store := l.store ++ [t], counted := l.counted.map (· + 1) } [.drain c]
  | unneeded (l : Ledger) (n : UInt32) : Step c o l (.attempt ⟨c, .drain⟩ n) l [.settleDrain c]
  | nothingThere (l : Ledger) (work : Work) (n : UInt32) (hw : work.task? = none)
      (h : l.store = []) : Step c o l (.attempt ⟨c, work⟩ n) l []
  | dropped (l : Ledger) (n : UInt32) (t : Task) (rest : List Task) (now : Instant)
      (hs : l.store = t :: rest) (ht : t.firstAttempt = none → t.isSettled l.order = true) :
      Step c o l (.attempt ⟨c, .drain⟩ n) { l with store := t.markFirstAttempt now :: rest }
        [.dequeue c, .settleDrain c]
  | retried (l : Ledger) (n : UInt32) (t : Task) (rest : List Task) (now : Instant)
      (hs : l.store = t :: rest) (ht : t.isSettled l.order = false) :
      Step c o l (.attempt ⟨c, .drain⟩ n) { l with store := t.markFirstAttempt now :: rest }
        [t.retry c, .settleDrain c]
  | removed (l : Ledger) (n : UInt32) (t : Task) (rest : List Task) (hs : l.store = t :: rest) :
      Step c o l (.attempt ⟨c, .dequeue⟩ n)
        { l with store := rest, counted := l.counted.map (· - 1) } []

end Fulfilment
