import Fulfilment.Stage.Action

/-!
One attempt of a job.

Main definitions:
- `attempt`: the next scripted failure of the service if there is one, else check, call and change
  of the flags, all at once.
- `failed`: after a failed attempt, wait and repeat or hand the failure over.
- `handOver`: what a failure that is not repeated leads to.
- `succeeded`: what an accepted call leads to.
-/
namespace Fulfilment

set_option autoImplicit false

/-! ## Check -/

/-- Whether the call of a job would still change anything. -/
def needed (j : Job) (w : World) : Bool :=
  match j.work with
  | .payment o => (w.order o).payment = .trying
  | .messaging o m => (w.order o).needsMessage m
  | .escalation o => !(w.order o).escalated
  | .drain => 0 < w.queuedItems j.owner
  | _ => true

def callOf (work : Work) (w : World) : Call :=
  match work with
  | .shipping o => .shipping o (w.order o).item (w.order o).customer.address
  | .payment o => .payment o (w.order o).price
  | .messaging o m => .messaging o m
  | .escalation o => .employee o
  | .add t => .add t
  | .drain => .peek
  | .dequeue => .dequeue

/-! ## Call -/

/-- What came of check and call. -/
inductive Verdict where
  /-- Nothing was left to do. -/
  | skipped
  | accepted (r : Receipt)
  | refused (f : Failure)
  | panicked
  /-- Other jobs run before the collaborator answers. -/
  | interrupted (r : Reply)

def World.accept (w : World) (c : Call) (r : Receipt) : World × Verdict :=
  (w.record (.answered c r), .accepted r)

def World.refuse (w : World) (c : Call) (f : Failure) : World × Verdict :=
  (w.record (.refused c f), .refused f)

/-- The own answer of the collaborator, and the change of the order's flags that goes with it. -/
def fulfil (work : Work) (empty : Bool) (w : World) : World × Verdict :=
  let call := callOf work w
  match work with
  | .shipping o =>
    let (tx, collaborators) :=
      w.collaborators.ship (w.order o).item (w.order o).customer.address w.now
    ({ w with collaborators }.remark (.shippingStored tx (w.order o).item)).accept call
      (.transaction tx)
  | .payment o =>
    let (tx, collaborators) := w.collaborators.pay (w.order o).price w.now
    let (w, v) := ({ w with collaborators }.remark (.paymentRecorded tx (w.order o).price)).accept
      call (.transaction tx)
    (w.setPayment o .done, v)
  | .messaging o m =>
    let (tx, collaborators) := w.collaborators.deliver m w.now
    let (w, v) := ({ w with collaborators }.remark (.messageSpoken tx m)).accept call
      (.transaction tx)
    (w.setSent o (.ofMessage m), v)
  | .escalation o =>
    let (new, collaborators) := w.collaborators.park (w.order o).snapshot
    let w := { w with collaborators }
    let w := if new then w.remark (.parked (w.idOf o)) else w
    let (w, v) := w.accept call .parked
    (w.markEscalated o, v)
  | .add t => { w with collaborators := w.collaborators.add t }.accept call .stored
  | .drain =>
    if empty then (w, .refused .queueEmpty)
    else
      let head := w.collaborators.head?
      let w := (w.accept call (.head head)).1
      match head with
      | none => (w, .refused .queueEmpty)
      | some _ => (w, .accepted (.head head))
  | .dequeue =>
    match w.collaborators.take? with
    | none => w.refuse call .queueEmpty
    | some (t, collaborators) => { w with collaborators }.accept call (.taken t)

/-- The answer to a call once its scripted reply has moved the clock and let other jobs run. -/
def answer (work : Work) (r : Reply) (w : World) : World × Verdict :=
  let call := callOf work w
  if r.panics then (w.record (.panicked call), .panicked)
  else
    match r.failure with
    | some f => w.refuse call f
    | none => fulfil work r.empty w

/-- Jobs that wait may run during a call, unless calls hold locks. -/
def interrupts (s : Setup) (r : Reply) : Bool :=
  0 < r.run && s.dispatch = .deferred && s.config.consistency = .relaxed

def checkAndCall (s : Setup) (j : Job) (w : World) : World × Verdict :=
  if needed j w then
    let w := w.record (.called (callOf j.work w))
    let (r, w) := w.takeReply j.work.callKind
    let w := w.advance r.advance
    if interrupts s r then (w, .interrupted r) else answer j.work r w
  else (w, .skipped)

/-! ## After a failure -/

/-- What is said when a scripted failure of the service is met. -/
def rejection (work : Work) (f : Failure) (w : World) : Remark :=
  let ofOrder (o : OrderRef) (service : String) : Remark :=
    if f.isRetryable then .outage (w.idOf o) service else .rejection (w.idOf o) service f
  match work with
  | .shipping o => ofOrder o "shipping service"
  | .payment o => ofOrder o "payment service"
  | .messaging o _ => ofOrder o "messaging service"
  | .escalation o => ofOrder o "employee handle"
  | .add t => .addOutage (w.idOf t.order) f
  | .drain => .drainOutage f
  | .dequeue => .dequeueOutage f

def shippingFailed (c : CoordinatorRef) (o : OrderRef) (f : Failure) (w : World) : Outcome :=
  match f.kind with
  | .shippingNotPossible =>
    .next ((w.showNotice o .shippingNotPossible).remark
      (.cannotShip (w.idOf o) (w.order o).customer.address)) [.escalate c o]
  | .itemUnavailable =>
    .next ((w.showNotice o .itemUnavailable).remark (.outOfStock (w.idOf o) (w.order o).item))
      [.escalate c o]
  | _ => .next ((w.showNotice o .orderNotPlaced).remark (.notPlaced (w.idOf o) f)) []

def paymentFailed (s : Setup) (c : CoordinatorRef) (o : OrderRef) (f : Failure) (w : World) :
    Outcome :=
  if f.kind = .paymentDetailsError then
    match failPayment s o (w.showNotice o .paymentDetailsInvalid) with
    | none => .stuck w
    | some (w, changed) =>
      .next (w.remark (.detailsIncorrect (w.idOf o))) (if changed then [.tell c o .paymentFail] else [])
  else if (w.order o).sent = .noneSent then
    .next ((w.showNotice o .paymentPending).remark (.paymentToQueue (w.idOf o) f))
      [.tell c o .paymentTrying, .deferPayment c o]
  else .next w [.deferPayment c o]

def messagingFailed (s : Setup) (c : CoordinatorRef) (o : OrderRef) (m : MessageType) (f : Failure)
    (w : World) : Outcome :=
  if (w.order o).needsMessage m && !w.budgetExceeded o s.config.limits.message then
    .next (w.remark (.messageToQueue (w.idOf o) m f)) [.enqueue c (.messaging o m), .escalate c o]
  else .next (w.remark (.messageGivenUp (w.idOf o) m f)) []

def escalationFailed (s : Setup) (c : CoordinatorRef) (o : OrderRef) (f : Failure) (w : World) :
    Outcome :=
  if !(w.order o).escalated && !w.budgetExceeded o s.config.limits.employee then
    .next (w.remark (.employeeToQueue (w.idOf o) f)) [.enqueue c (.employeeDb o)]
  else .next w []

def addFailed (s : Setup) (c : CoordinatorRef) (t : Task) (f : Failure) (w : World) : Outcome :=
  if t.type = .payment then
    match failPayment s t.order w with
    | none => .stuck w
    | some (w, changed) =>
      .next (w.remark (.paymentNotQueued (w.idOf t.order) f))
        (if changed then [.tell c t.order .paymentFail, .escalateTask c t f]
        else [.escalateTask c t f])
  else .next w [.escalateTask c t f]

/-- What a failure that is not repeated leads to. -/
def handOver (s : Setup) (j : Job) (f : Failure) (w : World) : Outcome :=
  match j.work with
  | .shipping o => shippingFailed j.owner o f w
  | .payment o => paymentFailed s j.owner o f w
  | .messaging o m => messagingFailed s j.owner o m f w
  | .escalation o => escalationFailed s j.owner o f w
  | .add t => addFailed s j.owner t f w
  | .drain => .next (w.remark (.drainGivenUp f)) []
  | .dequeue => .next (w.remark (.dequeueGivenUp f)) []

/-- Only an outage is repeated; each wait takes one draw. -/
def failed (s : Setup) (j : Job) (failures : UInt32) (f : Failure) (w : World) : Outcome :=
  let failures := failures + 1
  if Retry.repeats s.config.retry.retries failures f.isOutage then
    let (jitter, w) := w.drawJitter
    .next w [.pause (Backoff.delay failures s.config.retry.maxDelay jitter), .attempt j failures]
  else handOver s j f w

/-! ## After success -/

/-- The head of the queue is dropped once it was in play too long or its stage is settled, else its
stage is attempted again. -/
def visit (s : Setup) (c : CoordinatorRef) (t : Task) (w : World) : Outcome :=
  let id := w.idOf t.order
  let w := w.remark (.visiting id t)
  let first := t.firstVisit w.now
  let w := { w with collaborators := w.collaborators.markHead w.now }
  if s.config.limits.queueTask ≤ w.now.since first then
    .next (w.remark (.taskTimedOut id t)) [.dequeue c, .settleDrain c]
  else
    match t.type, t.message with
    | .payment, _ =>
      if (w.order t.order).payment = .trying then
        .next (w.remark (.retryingPayment id)) [.pay c t.order, .settleDrain c]
      else .next (w.remark (.queuedPaymentSettled id)) [.dequeue c, .settleDrain c]
    | .messaging, none => .next (w.remark (.messageTypeMissing id)) [.dequeue c, .settleDrain c]
    | .messaging, some m =>
      if (w.order t.order).needsMessage m then
        .next (w.remark (.retryingMessage id m)) [.tell c t.order m, .settleDrain c]
      else .next (w.remark (.queuedMessageNotNeeded id m)) [.dequeue c, .settleDrain c]
    | .employeeDb, _ =>
      if (w.order t.order).escalated then
        .next (w.remark (.alreadyEscalated id)) [.dequeue c, .settleDrain c]
      else .next (w.remark (.retryingEmployee id)) [.escalate c t.order, .settleDrain c]

/-- What an accepted call leads to. -/
def succeeded (s : Setup) (j : Job) (r : Receipt) (w : World) : Outcome :=
  match j.work, r with
  | .shipping o, .transaction tx => .next (w.remark (.shipped (w.idOf o) tx)) [.pay j.owner o]
  | .payment o, .transaction tx =>
    .next ((w.remark (.paid (w.idOf o) tx)).showNotice o .paymentSuccessful)
      [.tell j.owner o .paymentSuccess]
  | .messaging o m, .transaction tx => .next (w.remark (.messageDelivered (w.idOf o) tx m)) []
  | .escalation o, _ => .next (w.remark (.escalated (w.idOf o))) []
  | .add t, _ =>
    .next ((w.countUp j.owner).remark (.queued (w.idOf t.order) t)) [.drain j.owner]
  | .drain, .head (some t) => visit s j.owner t w
  | .dequeue, .taken t => .next ((w.countDown j.owner).remark (.dequeued (w.idOf t.order) t)) []
  | _, _ => .next w []

/-- What follows when nothing was left to do. -/
def skipped (j : Job) (w : World) : Outcome :=
  match j.work with
  | .payment o => .next (w.remark (.paymentSettled (w.idOf o))) []
  | .messaging o m => .next (w.remark (.messageNotNeeded (w.idOf o) m)) []
  | .drain => .next w [.settleDrain j.owner]
  | _ => .next w []

def settle (s : Setup) (j : Job) (failures : UInt32) (v : Verdict) (w : World) : Outcome :=
  match v with
  | .skipped => skipped j w
  | .accepted r => succeeded s j r w
  | .refused f => failed s j failures f w
  | .panicked => .panic w
  | .interrupted r => .next w [.serve r.run, .conclude j failures r]

/-! ## Attempt -/

def attempt (s : Setup) (j : Job) (failures : UInt32) (w : World) : Outcome :=
  let (fault, w) := w.popFault j.work.service
  match fault with
  | some f => failed s j failures f (w.remark (rejection j.work f w))
  | none =>
    match guarded s j.work.checked? (checkAndCall s j) w with
    | none => .stuck w
    | some (w, v) => settle s j failures v w

/-- The rest of an interrupted attempt. -/
def conclude (s : Setup) (j : Job) (failures : UInt32) (r : Reply) (w : World) : Outcome :=
  let (w, v) := answer j.work r w
  settle s j failures v w

end Fulfilment
