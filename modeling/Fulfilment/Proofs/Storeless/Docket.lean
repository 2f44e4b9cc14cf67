import Fulfilment.Proofs.History.WindDown
import Fulfilment.Proofs.Message.History
import Fulfilment.Proofs.Payment.Standing

/-! What becomes of an order without a queue store, told by the scripts of the services alone.

* `Faults.result`, `Faults.left`: what a bounded number of repetitions comes to, and what it leaves.
* `Ending`, `FaultScripts.ending`: how the placement of a new order ends.
* `Docket`, `Docket.place`: the same stage by stage, for an order in any state.
* `Docket.place_ends`: for a new order the stages come to the ending. -/
namespace Fulfilment

set_option autoImplicit false

/-! ## Bounded repetition -/

namespace Faults

/-- How many outages come first. -/
def outages (faults : Faults) : Nat := (faults.takeWhile Failure.isOutage).length

/-- The failure that is handed over if outages are repeated `n` times at most, if there is one: the
first failure that is no outage, or the outage after `n` others. -/
def result (n : Nat) (faults : Faults) : Option Failure :=
  if faults.outages ≤ n then (faults.dropWhile Failure.isOutage).head?
  else some .databaseUnavailable

/-- What is not met of the script then. -/
def left (n : Nat) (faults : Faults) : Faults :=
  if faults.outages ≤ n then (faults.dropWhile Failure.isOutage).tail else faults.drop (n + 1)

/-- One of so many uses in a row is accepted. -/
def accepts (n : Nat) : (uses : Nat) → Faults → Bool
  | 0, _ => false
  | uses + 1, faults => (faults.result n).isNone || accepts n uses (faults.left n)

/-- What so many uses in a row leave of the script. -/
def remains (n : Nat) : (uses : Nat) → Faults → Faults
  | 0, faults => faults
  | uses + 1, faults => remains n uses (faults.left n)

theorem remains_succ (n uses : Nat) (faults : Faults) :
    remains n (uses + 1) faults = (remains n uses faults).left n := by
  induction uses generalizing faults with
  | zero => rfl
  | succ uses ih => exact ih (faults.left n)

theorem accepts_succ (n uses : Nat) (faults : Faults) :
    accepts n (uses + 1) faults =
      (accepts n uses faults || ((remains n uses faults).result n).isNone) := by
  induction uses generalizing faults with
  | zero => exact Bool.or_comm _ _
  | succ uses ih =>
    rw [accepts, ih (faults.left n), ← Bool.or_assoc]
    rfl

theorem outages_cons {f : Failure} (hf : f.isOutage = true) (faults : Faults) :
    outages (f :: faults) = faults.outages + 1 := by
  rw [outages, List.takeWhile_cons_of_pos hf, List.length_cons]
  rfl

theorem met_of_other {f : Failure} (hf : f.isOutage = false) (n : Nat) (faults : Faults) :
    result n (f :: faults) = some f ∧ left n (f :: faults) = faults := by
  have hnot : ¬ f.isOutage = true := by simp [hf]
  have hnone : outages (f :: faults) ≤ n := by
    rw [outages, List.takeWhile_cons_of_neg hnot]
    exact Nat.zero_le _
  rw [result, left, if_pos hnone, if_pos hnone, List.dropWhile_cons_of_neg hnot]
  exact ⟨rfl, rfl⟩

theorem met_of_last {f : Failure} (hf : f.isOutage = true) (faults : Faults) :
    result 0 (f :: faults) = some .databaseUnavailable ∧ left 0 (f :: faults) = faults := by
  have hsome : ¬ outages (f :: faults) ≤ 0 := by simp [outages_cons hf]
  rw [result, left, if_neg hsome, if_neg hsome]
  exact ⟨rfl, rfl⟩

theorem met_of_outage {f : Failure} (hf : f.isOutage = true) (n : Nat) (faults : Faults) :
    result (n + 1) (f :: faults) = faults.result n ∧
      left (n + 1) (f :: faults) = faults.left n := by
  simp only [result, left, outages_cons hf, Nat.add_le_add_iff_right,
    List.dropWhile_cons_of_pos hf, List.drop_succ_cons, and_self]

theorem eq_of_isOutage {f : Failure} (hf : f.isOutage = true) : f = .databaseUnavailable := by
  cases f <;> first | rfl | cases hf

/-- A script is some outages, the failure handed over if there is one, and what is left; an outage
is handed over after `n` others only, and where nothing is handed over nothing is left. -/
theorem exists_split (n : Nat) (faults : Faults) :
    ∃ m ≤ n, faults =
        List.replicate m .databaseUnavailable ++ ((faults.result n).toList ++ faults.left n) ∧
      (∀ f, faults.result n = some f → f.isOutage = true → m = n) ∧
      (faults.result n = none → faults.left n = []) := by
  induction faults generalizing n with
  | nil => exact ⟨0, Nat.zero_le n, rfl, fun f hf => (by cases hf), fun _ => rfl⟩
  | cons f faults ih =>
    cases hf : f.isOutage with
    | false =>
      obtain ⟨hresult, hleft⟩ := met_of_other hf n faults
      refine ⟨0, Nat.zero_le n, by rw [hresult, hleft]; rfl, fun g hg hout => ?_, fun hnone => ?_⟩
      · rw [hresult] at hg
        cases hg
        rw [hf] at hout
        cases hout
      · rw [hresult] at hnone
        cases hnone
    | true =>
      cases eq_of_isOutage hf
      cases n with
      | zero =>
        obtain ⟨hresult, hleft⟩ := met_of_last hf faults
        refine ⟨0, Nat.le_refl 0, by rw [hresult, hleft]; rfl, fun _ _ _ => rfl, fun hnone => ?_⟩
        rw [hresult] at hnone
        cases hnone
      | succ n =>
        obtain ⟨hresult, hleft⟩ := met_of_outage hf n faults
        obtain ⟨m, hm, hsplit, hlast, hnone⟩ := ih n
        rw [hresult, hleft]
        refine ⟨m + 1, Nat.succ_le_succ hm, ?_, fun g hg hout => congrArg (· + 1) (hlast g hg hout),
          hnone⟩
        rw [List.replicate_succ, List.cons_append, ← hsplit]

end Faults

/-! ## Endings -/

/-- What became of an order that was placed. -/
structure Ending where
  payment : PaymentStatus
  notice : SiteNotice
  /-- The message that was delivered. -/
  told : Option MessageType
  /-- How often the order was to be handed to an employee. -/
  referrals : Nat

def Ending.sent (e : Ending) : MessageSent :=
  match e.told with
  | none => .noneSent
  | some m => .ofMessage m

namespace FaultScripts

/-- How the placement of a new order ends, if every service is asked `n` times more at most. A
message that is not delivered is a matter for an employee, and a payment that stays pending is
another. -/
def ending (n : Nat) (f : FaultScripts) : Ending :=
  let delivered := (Faults.result n f.messaging).isNone
  let told (m : MessageType) : Option MessageType := if delivered then some m else none
  let untold := if delivered then 0 else 1
  match Faults.result n f.shipping with
  | some .shippingNotPossible => ⟨.trying, .shippingNotPossible, none, 1⟩
  | some .itemUnavailable => ⟨.trying, .itemUnavailable, none, 1⟩
  | some _ => ⟨.trying, .orderNotPlaced, none, 0⟩
  | none =>
    match Faults.result n f.payment with
    | none => ⟨.done, .paymentSuccessful, told .paymentSuccess, untold⟩
    | some .paymentDetailsError => ⟨.notDone, .paymentDetailsInvalid, told .paymentFail, untold⟩
    | some _ => ⟨.trying, .paymentPending, told .paymentTrying, untold + 1⟩

theorem get_set (f : FaultScripts) (faults : Faults) (sv sv' : Service) :
    (f.set faults sv).get sv' = if sv' = sv then faults else f.get sv' := by
  cases sv <;> cases sv' <;> rfl

theorem set_get (f : FaultScripts) (sv : Service) : f.set (f.get sv) sv = f := by
  cases sv <;> rfl

theorem set_set (f : FaultScripts) (faults faults' : Faults) (sv : Service) :
    (f.set faults sv).set faults' sv = f.set faults' sv := by
  cases sv <;> rfl

end FaultScripts

/-! ## Dockets -/

/-- What can be told of an order, and the failures that the services will still raise. -/
structure Docket where
  order : Order
  scripts : FaultScripts
  shipped : Bool
  payments : Nat
  messages : List MessageType
  /-- The records of the employee handle under its id. -/
  handed : Nat
  /-- How often it was to be handed to an employee. -/
  referrals : Nat

namespace Docket

/-- The failure that is handed over after the service was asked `n` times more at most. -/
def result (n : Nat) (sv : Service) (d : Docket) : Option Failure :=
  Faults.result n (d.scripts.get sv)

/-- The service is about to raise the failure that is handed over, or to raise none. -/
def facing (n : Nat) (sv : Service) (d : Docket) : Docket :=
  let script := (d.result n sv).toList ++ Faults.left n (d.scripts.get sv)
  { d with scripts := d.scripts.set script sv }

/-- The service was asked. -/
def met (n : Nat) (sv : Service) (d : Docket) : Docket :=
  { d with scripts := d.scripts.set (Faults.left n (d.scripts.get sv)) sv }

theorem facing_of_none {n : Nat} {sv : Service} {d : Docket} (h : d.result n sv = none) :
    d.facing n sv = d.met n sv ∧ (d.met n sv).scripts.get sv = [] := by
  obtain ⟨-, -, -, -, hleft⟩ := Faults.exists_split n (d.scripts.get sv)
  rw [facing, met, FaultScripts.get_set, if_pos rfl, h]
  exact ⟨rfl, hleft h⟩

theorem get_facing {n : Nat} {sv : Service} {d : Docket} {f : Failure}
    (h : d.result n sv = some f) :
    (d.facing n sv).scripts.get sv = f :: Faults.left n (d.scripts.get sv) := by
  rw [facing, FaultScripts.get_set, if_pos rfl, h]
  rfl

/-- Once the failure was raised, the service was asked. -/
theorem set_facing (n : Nat) (sv : Service) (d : Docket) :
    { d.facing n sv with
      scripts := (d.facing n sv).scripts.set (Faults.left n (d.scripts.get sv)) sv } =
      d.met n sv := by
  rw [facing, FaultScripts.set_set, met]

def note (i : SiteNotice) (d : Docket) : Docket := { d with order := d.order.recordNotice i }

def settle (p : PaymentStatus) (d : Docket) : Docket :=
  { d with order := { d.order with payment := p } }

def charge (d : Docket) : Docket := { d.settle .done with payments := d.payments + 1 }

def deliver (m : MessageType) (d : Docket) : Docket :=
  { d with order := { d.order with sent := .ofMessage m }, messages := d.messages ++ [m] }

/-- The employee handle keeps one record for an order. -/
def park (d : Docket) : Docket :=
  { d with order := { d.order with escalated := true }, handed := max d.handed 1 }

/-- The order is to be handed to an employee. -/
def ask (d : Docket) : Docket := { d with referrals := d.referrals + 1 }

/-! ### Stages -/

/-- The employee handle is asked once. -/
def refer (n : Nat) (d : Docket) : Docket :=
  let asked := d.ask
  let met := asked.met n .employee
  match asked.result n .employee with
  | none => if met.order.escalated then met else met.park
  | some _ => met

/-- An employee is asked if a message that is needed cannot be delivered. -/
def tell (n : Nat) (m : MessageType) (d : Docket) : Docket :=
  let met := d.met n .messaging
  if met.order.needsMessage m then
    match d.result n .messaging with
    | none => met.deliver m
    | some _ => met.refer n
  else met

/-- An employee is asked about a pending payment. -/
def defer (n : Nat) (d : Docket) : Docket :=
  if d.order.payment = .trying then d.refer n else d

/-- The payment was refused for good, or it stays pending. -/
def unpaid (n : Nat) (f : Failure) (d : Docket) : Docket :=
  if f.kind = .paymentDetailsError then
    let noted := d.note .paymentDetailsInvalid
    if noted.order.payment = .trying then (noted.settle .notDone).tell n .paymentFail else noted
  else if d.order.sent = .noneSent then
    ((d.note .paymentPending).tell n .paymentTrying).defer n
  else d.defer n

def pay (n : Nat) (d : Docket) : Docket :=
  let met := d.met n .payment
  match d.result n .payment with
  | none =>
    if met.order.payment = .trying then
      (met.charge.note .paymentSuccessful).tell n .paymentSuccess
    else met
  | some f => met.unpaid n f

/-- Shipping has not taken the order. -/
def unshipped (n : Nat) (f : Failure) (d : Docket) : Docket :=
  match f.kind with
  | .shippingNotPossible => (d.note .shippingNotPossible).refer n
  | .itemUnavailable => (d.note .itemUnavailable).refer n
  | _ => d.note .orderNotPlaced

def place (n : Nat) (d : Docket) : Docket :=
  let met := d.met n .shipping
  match d.result n .shipping with
  | none => { met with shipped := true }.pay n
  | some f => met.unshipped n f

/-! ### New orders -/

/-- Nothing was done about the order yet. -/
structure New (d : Docket) : Prop where
  payment : d.order.payment = .trying
  sent : d.order.sent = .noneSent
  escalated : d.order.escalated = false
  notice : d.order.notice = none
  shipped : d.shipped = false
  payments : d.payments = 0
  messages : d.messages = []
  handed : d.handed = 0

/-- A new order, as the docket was at first, has ended in this way. -/
structure Ends (n : Nat) (first last : Docket) : Prop where
  shipped : last.shipped = (first.result n .shipping).isNone
  payment : last.order.payment = (first.scripts.ending n).payment
  payments : last.payments = if (first.scripts.ending n).payment = .done then 1 else 0
  notice : last.order.notice = some (first.scripts.ending n).notice
  sent : last.order.sent = (first.scripts.ending n).sent
  messages : last.messages = (first.scripts.ending n).told.toList
  referrals : last.referrals = first.referrals + (first.scripts.ending n).referrals
  escalated : last.order.escalated =
    Faults.accepts n (first.scripts.ending n).referrals first.scripts.employee
  handed : last.handed = if last.order.escalated then 1 else 0

/-- How the last stages change a docket: they deliver this message, if any, and ask for an employee
so often. -/
structure Closes (n : Nat) (told : Option MessageType) (uses : Nat) (d e : Docket) : Prop where
  shipped : e.shipped = d.shipped
  payment : e.order.payment = d.order.payment
  payments : e.payments = d.payments
  notice : e.order.notice = d.order.notice
  sent : e.order.sent = told.elim d.order.sent .ofMessage
  messages : e.messages = d.messages ++ told.toList
  referrals : e.referrals = d.referrals + uses
  employee : e.scripts.employee = Faults.remains n uses d.scripts.employee
  escalated : e.order.escalated = Faults.accepts n uses d.scripts.employee
  handed : e.handed = if e.order.escalated then 1 else 0

section Closing
variable {n uses : Nat} {told : Option MessageType} {d e : Docket}

theorem Closes.none (hescalated : d.order.escalated = false) (hhanded : d.handed = 0) :
    Closes n none 0 d d where
  shipped := rfl
  payment := rfl
  payments := rfl
  notice := rfl
  sent := rfl
  messages := (List.append_nil _).symm
  referrals := rfl
  employee := rfl
  escalated := hescalated
  handed := by rw [hescalated, hhanded]; rfl

theorem Closes.met (h : Closes n told uses d e) : Closes n told uses d (e.met n .messaging) :=
  ⟨h.shipped, h.payment, h.payments, h.notice, h.sent, h.messages, h.referrals, h.employee,
    h.escalated, h.handed⟩

theorem Closes.deliver (h : Closes n .none uses d e) (m : MessageType) :
    Closes n (some m) uses d (e.deliver m) where
  shipped := h.shipped
  payment := h.payment
  payments := h.payments
  notice := h.notice
  sent := rfl
  messages := by
    have hmessages := h.messages
    rw [Option.toList_none, List.append_nil] at hmessages
    exact congrArg (· ++ [m]) hmessages
  referrals := h.referrals
  employee := h.employee
  escalated := h.escalated
  handed := h.handed

/-- The employee handle is asked once more, and keeps the one record it has. -/
theorem Closes.refer (h : Closes n told uses d e) : Closes n told (uses + 1) d (e.refer n) := by
  have hemployee : ((e.ask.met n .employee).scripts.employee) =
      Faults.remains n (uses + 1) d.scripts.employee := by
    rw [Faults.remains_succ, ← h.employee]
    rfl
  have hescalated : (Faults.accepts n (uses + 1) d.scripts.employee) =
      (e.order.escalated || (e.ask.result n .employee).isNone) := by
    rw [Faults.accepts_succ, ← h.escalated, ← h.employee]
    rfl
  have hmet : (e.ask.met n .employee).order = e.order := rfl
  simp only [Docket.refer, hmet]
  cases hresult : e.ask.result n .employee with
  | some f =>
    rw [hresult, Option.isNone_some, Bool.or_false] at hescalated
    exact ⟨h.shipped, h.payment, h.payments, h.notice, h.sent, h.messages,
      congrArg (· + 1) h.referrals, hemployee, hescalated.symm, h.handed⟩
  | none =>
    rw [hresult, Option.isNone_none, Bool.or_true] at hescalated
    have hhanded := h.handed
    cases he : e.order.escalated with
    | true =>
      exact ⟨h.shipped, h.payment, h.payments, h.notice, h.sent, h.messages,
        congrArg (· + 1) h.referrals, hemployee, he.trans hescalated.symm, h.handed⟩
    | false =>
      rw [he] at hhanded
      refine ⟨h.shipped, h.payment, h.payments, h.notice, h.sent, h.messages,
        congrArg (· + 1) h.referrals, hemployee, hescalated.symm, ?_⟩
      exact congrArg (max · 1) hhanded

/-- A message that is needed is delivered, or an employee is asked. -/
theorem Closes.tell {m : MessageType} (h : Closes n .none 0 d e)
    (hm : e.order.needsMessage m = true) :
    let delivered := (e.result n .messaging).isNone
    Closes n (if delivered then some m else .none) (if delivered then 0 else 1) d (e.tell n m) := by
  have hneeded : (e.met n .messaging).order.needsMessage m = true := hm
  simp only [Docket.tell, if_pos hneeded]
  cases e.result n .messaging with
  | none => exact h.met.deliver m
  | some f => exact h.met.refer

/-- An order that was shipped or refused in this way, and then closed, has ended. -/
theorem Closes.ends {first : Docket} {p : PaymentStatus} {i : SiteNotice}
    (h : Closes n told uses d e) (hend : first.scripts.ending n = ⟨p, i, told, uses⟩)
    (hshipped : d.shipped = (first.result n .shipping).isNone) (hpayment : d.order.payment = p)
    (hpayments : d.payments = if p = .done then 1 else 0) (hnotice : d.order.notice = some i)
    (hsent : d.order.sent = .noneSent) (hmessages : d.messages = [])
    (hreferrals : d.referrals = first.referrals)
    (hemployee : d.scripts.employee = first.scripts.employee) : Ends n first e where
  shipped := h.shipped.trans hshipped
  payment := by rw [h.payment, hpayment, hend]
  payments := by rw [h.payments, hpayments, hend]
  notice := by rw [h.notice, hnotice, hend]
  sent := by
    rw [h.sent, hsent, hend]
    cases told <;> rfl
  messages := by rw [h.messages, hmessages, hend, List.nil_append]
  referrals := by rw [h.referrals, hreferrals, hend]
  escalated := by rw [h.escalated, hemployee, hend]
  handed := h.handed

end Closing

theorem note_new {d : Docket} (h : d.order.notice = none) (i : SiteNotice) :
    (d.note i).order = { d.order with notice := some i } := by
  rw [note, Order.recordNotice, h]

section Placing
variable {n : Nat} {d : Docket}

/-- The order was shipped and the payment service asked; status and notice are as they stay. -/
structure Billed (p : PaymentStatus) (i : SiteNotice) (d b : Docket) : Prop where
  order : b.order = { d.order with payment := p, notice := some i }
  payments : b.payments = if p = .done then 1 else 0
  shipped : b.shipped = true
  messages : b.messages = d.messages
  handed : b.handed = d.handed
  referrals : b.referrals = d.referrals
  messaging : b.scripts.messaging = d.scripts.messaging
  employee : b.scripts.employee = d.scripts.employee

theorem Billed.tell {p : PaymentStatus} {i : SiteNotice} {b : Docket} (hb : Billed p i d b)
    (h : d.New) {m : MessageType} (hm : m = .paymentTrying → p = .trying) :
    let delivered := (Faults.result n d.scripts.messaging).isNone
    Closes n (if delivered then some m else none) (if delivered then 0 else 1) b (b.tell n m) := by
  have hescalated : b.order.escalated = false := by
    rw [hb.order]
    exact h.escalated
  have hneeded : b.order.needsMessage m = true := by
    rw [hb.order]
    cases m with
    | paymentTrying => simp [Order.needsMessage, hm rfl, h.sent]
    | paymentFail | paymentSuccess => simp [Order.needsMessage, h.sent, MessageSent.isTerminal]
  have htold := (Closes.none (n := n) hescalated (hb.handed.trans h.handed)).tell hneeded
  have hresult : b.result n .messaging = Faults.result n d.scripts.messaging :=
    congrArg (Faults.result n) hb.messaging
  rw [hresult] at htold
  exact htold

theorem Billed.ends {p : PaymentStatus} {i : SiteNotice} {told : Option MessageType} {uses : Nat}
    {b e : Docket} (hb : Billed p i d b) (h : d.New) (hs : d.result n .shipping = none)
    (hclosed : Closes n told uses b e) (hend : d.scripts.ending n = ⟨p, i, told, uses⟩) :
    Ends n d e := by
  refine hclosed.ends hend ?_ ?_ hb.payments ?_ ?_ (hb.messages.trans h.messages) hb.referrals
    hb.employee
  · rw [hb.shipped, hs]
    rfl
  · rw [hb.order]
  · rw [hb.order]
  · rw [hb.order]
    exact h.sent

section New
variable (h : d.New)
include h

theorem unshipped_ends {f : Failure} (hf : d.result n .shipping = some f) :
    Ends n d ((d.met n .shipping).unshipped n f) := by
  have hresult : Faults.result n d.scripts.shipping = some f := hf
  have hshipped : d.shipped = (d.result n .shipping).isNone := by rw [h.shipped, hf]; rfl
  have horder (i : SiteNotice) :
      ((d.met n .shipping).note i).order = { d.order with notice := some i } := note_new h.notice i
  have ends {i : SiteNotice} {uses : Nat} {e : Docket}
      (hclosed : Closes n .none uses ((d.met n .shipping).note i) e)
      (hend : d.scripts.ending n = ⟨.trying, i, none, uses⟩) : Ends n d e := by
    refine hclosed.ends hend hshipped ?_ h.payments ?_ ?_ h.messages rfl rfl
    · rw [horder]
      exact h.payment
    · rw [horder]
    · rw [horder]
      exact h.sent
  have noted (i : SiteNotice) :
      Closes n .none 0 ((d.met n .shipping).note i) ((d.met n .shipping).note i) := by
    refine .none ?_ h.handed
    rw [horder]
    exact h.escalated
  cases f with
  | shippingNotPossible | itemUnavailable =>
    refine ends (noted _).refer ?_
    simp only [FaultScripts.ending, hresult]
  | _ =>
    refine ends (noted _) ?_
    simp only [FaultScripts.ending, hresult]

theorem shipped_ends (hs : d.result n .shipping = none) :
    Ends n d (({ d.met n .shipping with shipped := true } : Docket).pay n) := by
  have hships : Faults.result n d.scripts.shipping = none := hs
  have hresult : ({ d.met n .shipping with shipped := true } : Docket).result n .payment =
      Faults.result n d.scripts.payment := rfl
  generalize hb : ({ d.met n .shipping with shipped := true } : Docket).met n .payment = b
  have hpending : b.order.payment = .trying := by subst hb; exact h.payment
  -- Whatever status and notice the payment service has led to, the docket shows nothing else.
  have billed {p : PaymentStatus} {i : SiteNotice} {c : Docket}
      (hc : c = { b with order := { b.order with payment := p, notice := some i },
                         payments := if p = .done then 1 else 0 }) : Billed p i d c := by
    subst hc hb
    exact ⟨rfl, rfl, rfl, rfl, rfl, rfl, rfl, rfl⟩
  have hnotice : b.order.notice = none := by subst hb; exact h.notice
  have hpayments : b.payments = 0 := by subst hb; exact h.payments
  have hsent : b.order.sent = .noneSent := by subst hb; exact h.sent
  simp only [pay, hresult, hb]
  cases hf : Faults.result n d.scripts.payment with
  | none =>
    have hpaid : Billed .done .paymentSuccessful d (b.charge.note .paymentSuccessful) := by
      refine billed ?_
      simp [charge, settle, note, Order.recordNotice, hnotice, hpayments]
    rw [if_pos hpending]
    refine hpaid.ends h hs (hpaid.tell h fun hm => absurd hm (by decide)) ?_
    simp only [FaultScripts.ending, hships, hf]
  | some f =>
    by_cases hkind : f.kind = .paymentDetailsError
    · cases f with
      | paymentDetailsError =>
        have hrefused : Billed .notDone .paymentDetailsInvalid d
            ((b.note .paymentDetailsInvalid).settle .notDone) := by
          refine billed ?_
          simp [settle, note, Order.recordNotice, hnotice, hpayments]
        have hstill : (b.note .paymentDetailsInvalid).order.payment = .trying := by
          rw [note_new hnotice]
          exact hpending
        simp only [unpaid, if_pos hkind, if_pos hstill]
        refine hrefused.ends h hs (hrefused.tell h fun hm => absurd hm (by decide)) ?_
        simp only [FaultScripts.ending, hships, hf]
      | _ => cases hkind
    · have hpends : Billed .trying .paymentPending d (b.note .paymentPending) := by
        refine billed ?_
        simp [note, Order.recordNotice, hnotice, hpayments, hpending]
      have htold := hpends.tell (n := n) h (m := .paymentTrying) fun _ => rfl
      have hstill : ((b.note .paymentPending).tell n .paymentTrying).order.payment = .trying := by
        rw [htold.payment, hpends.order]
      simp only [unpaid, if_neg hkind, if_pos hsent, defer, if_pos hstill]
      refine hpends.ends h hs htold.refer ?_
      cases f with
      | paymentDetailsError => exact absurd rfl hkind
      | _ => simp only [FaultScripts.ending, hships, hf]

/-- The stages of a new order come to the ending that is told by the scripts. -/
theorem place_ends (n : Nat) : Ends n d (d.place n) := by
  unfold place
  cases hs : d.result n .shipping with
  | none => exact shipped_ends h hs
  | some f => exact unshipped_ends h hs

end New

/-- Neither the payment nor the message about it gets through, and both are put before an
employee. -/
example :
    FaultScripts.ending 1
        { payment := [.databaseUnavailable, .databaseUnavailable], messaging := [.other "down"] } =
      ⟨.trying, .paymentPending, none, 2⟩ :=
  rfl

end Placing
end Docket
end Fulfilment
