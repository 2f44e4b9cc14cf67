import Fulfilment.Proofs.Inline.Refinement
import Fulfilment.Proofs.Message.History
import Fulfilment.Proofs.Payment.Once

/-! With a queue store that works, every stage of a placed order comes to its end, whatever failures
are scripted for the other services.

* `Run.Converging`: what a run keeps whose jobs run on the spot.
* `Run.placement_converges`: when the placement is over in time the queue is empty, a shipped order
  is paid for or has failed as its script says, the customer knows, and an order that was ever to be
  escalated is with an employee once. -/
namespace Fulfilment

set_option autoImplicit false

/-! ## Time -/

/-- An order in time at the end was in time before. -/
theorem World.Evolves.inTime {s : Setup} {w v : World} (h : w.Evolves s v)
    (hclock : w.clock ≤ World.lastClock) {o : OrderRef} (hv : v.InTime s o) : w.InTime s o := by
  have hb (b : Span) (hlate : v.budgetExceeded o b = false) : w.budgetExceeded o b = false := by
    cases hw : w.budgetExceeded o b with
    | false => rfl
    | true =>
      rw [h.budgetExceeded hclock o b hw] at hlate
      cases hlate
  exact ⟨hb _ hv.queue, hb _ hv.payment, hb _ hv.message, hb _ hv.employee⟩

namespace Run

/-! ## One step -/

/-- What a run keeps whose jobs run on the spot, the payment service having these failures at
first. -/
structure Converging (s : Setup) (c : CoordinatorRef) (o : OrderRef) (faults : Faults) (r : Run) :
    Prop where
  orderly : r.Orderly s
  steady : r.world.Steady
  exists_order : o < r.world.orders.length
  upkept : Ledger.Upkept c o faults (r.world.ledger c o) r.agenda

section Steps
variable {s : Setup} {c : CoordinatorRef} {o : OrderRef} {faults : Faults} {r : Run}

/-- A step of the run is one on its ledger. -/
theorem Converging.step_eq (hs : s.Inline) (h : r.Converging s c o faults)
    (ht : r.world.InTime s o) {a : Action} {rest : List Action} (hr : r.agenda = a :: rest) :
    ∃ todo, (r.step s).agenda = todo ++ rest ∧ Changes s r.world (r.step s).world ∧
      Ledger.Step c o (r.world.ledger c o) a ((r.step s).world.ledger c o) todo := by
  obtain ⟨w, agenda, stuck⟩ := r
  have horderly := h.orderly
  cases horderly.free
  cases hr
  have hfits : a.Fits c o (w.order o).payment :=
    h.upkept.fitting.actions a (List.mem_cons_self ..)
  have htasks : ∀ t ∈ w.collaborators.store, t.order = o := fun t hmem =>
    (h.upkept.fitting.tasks t hmem).1
  have hserve : ∀ count, a ≠ .serve count := by
    rintro count rfl
    exact hfits
  obtain ⟨v, todo, hp, hstep⟩ := perform_does (c := c) hs h.exists_order hfits htasks h.steady
    horderly.unlocked ht
  have hc := perform_changes a w horderly.unlocked horderly.replies
    (bracketed_head horderly.agenda) hserve
  rw [hp] at hc
  rw [step_cons, hp]
  exact ⟨todo, rfl, hc, hstep⟩

theorem Converging.step (hs : s.Inline) (h : r.Converging s c o faults)
    (ht : r.world.InTime s o) : (r.step s).Converging s c o faults := by
  cases hr : r.agenda with
  | nil =>
    have hsame : r.step s = r := by
      simp only [Run.step, h.orderly.free, hr, Bool.false_eq_true, if_false]
    rw [hsame]
    exact h
  | cons a rest =>
    obtain ⟨todo, htodo, hc, hstep⟩ := h.step_eq hs ht hr
    have hlen : o < (r.step s).world.orders.length :=
      hc.preserves (P := fun u => o < u.orders.length)
        (fun _ _ hu ho => by rw [hu.length]; exact ho) h.exists_order
    have hupkept := h.upkept
    rw [hr] at hupkept
    refine ⟨h.orderly.step.2, h.steady.changes hc, hlen, ?_⟩
    rw [htodo]
    exact hstep.upkept hupkept

theorem Converging.step_kept (hs : s.Inline) (h : r.Converging s c o faults)
    (ht : r.world.InTime s o) {t : Task} (hfresh : Ledger.Fresh o t)
    (hk : (r.world.ledger c o).Kept r.agenda t) :
    ((r.step s).world.ledger c o).Kept (r.step s).agenda t := by
  cases hr : r.agenda with
  | nil =>
    have hsame : r.step s = r := by
      simp only [Run.step, h.orderly.free, hr, Bool.false_eq_true, if_false]
    rw [hsame]
    exact hk
  | cons a rest =>
    obtain ⟨todo, htodo, -, hstep⟩ := h.step_eq hs ht hr
    have hnext := h.upkept.removesNext
    rw [hr] at hnext hk
    rw [htodo]
    exact hstep.kept hnext hfresh hk

/-! ## Whole runs -/

/-- A run that starts so and ends in time, at its end and what was kept at its start. -/
theorem Converging.drive (hs : s.Inline) (h : r.Converging s c o faults) (fuel : Nat)
    (ht : (r.drive s fuel).world.InTime s o) :
    (r.drive s fuel).Converging s c o faults ∧
      ∀ t, Ledger.Fresh o t → (r.world.ledger c o).Kept r.agenda t →
        ((r.drive s fuel).world.ledger c o).Kept (r.drive s fuel).agenda t := by
  have hnow : r.world.InTime s o := (h.orderly.drive fuel).1.inTime h.orderly.clock ht
  induction fuel generalizing r with
  | zero => exact ⟨h, fun _ _ hk => hk⟩
  | succ n ih =>
    simp only [Run.drive] at ht ⊢
    split at ht
    · exact ⟨by rw [if_pos ‹_›]; exact h, fun t _ hk => by rw [if_pos ‹_›]; exact hk⟩
    · next hrun =>
      rw [if_neg hrun]
      have hstep := h.step hs hnow
      have hlater := (hstep.orderly.drive n).1.inTime hstep.orderly.clock ht
      obtain ⟨hend, hkept⟩ := ih hstep ht hlater
      exact ⟨hend, fun t hfresh hk => hkept t hfresh (h.step_kept hs hnow hfresh hk)⟩

theorem Converging.at_end (h : r.Converging s c o faults) (hover : r.isOver = true) :
    r.agenda = [] := by
  simp only [isOver, h.orderly.free, Bool.false_or, List.isEmpty_iff] at hover
  exact hover

end Steps

/-! ## Placements -/

/-- A new order and a coordinator that has not done anything, with collaborators that have not
either; nothing is scripted but failures of the services other than the queue store. -/
structure Ready (c : CoordinatorRef) (o : OrderRef) (w : World) : Prop where
  clock : w.clock ≤ World.lastClock
  unlocked : w.Unlocked
  steady : w.Steady
  exists_order : o < w.orders.length
  payment : (w.order o).payment = .trying
  sent : (w.order o).sent = .noneSent
  escalated : (w.order o).escalated = false
  deeds : w.deeds = []
  store : w.collaborators.store = []
  employee : w.collaborators.employee.keys = []
  counted : w.queued[c]? = some 0

/-- How a payment ends that meets these failures, and the message about it. -/
def verdict (faults : Faults) : PaymentStatus × MessageType :=
  if .paymentDetailsError ∈ faults then (.notDone, .paymentFail) else (.done, .paymentSuccess)

section Placement
variable {s : Setup} {c : CoordinatorRef} {o : OrderRef} {w : World}

/-- The run of the placement. -/
def placement (c : CoordinatorRef) (o : OrderRef) (w : World) : Run :=
  { world := w, agenda := [.place c o] }

theorem Ready.converging (h : Ready c o w) :
    (placement c o w).Converging s c o w.faults.payment := by
  have hshipped : w.shipped o = false := by
    rw [World.shipped_eq, h.deeds]
    rfl
  refine ⟨⟨h.clock, h.unlocked, h.steady.whole, rfl, rfl⟩, h.steady, h.exists_order, ?_⟩
  refine ⟨Ledger.removesNext_of_none fun b hb => ?_, ?_, ?_, ?_, ?_⟩
  · rw [List.mem_singleton.mp hb]
    rfl
  · refine ⟨?_, .inl h.store⟩
    show w.queued[c]? = some w.collaborators.store.length
    rw [h.counted, h.store]
    rfl
  · refine ⟨fun a ha => ?_, fun t ht => ?_, fun m hm => ?_⟩
    · rw [List.mem_singleton.mp ha]
      exact ⟨rfl, rfl⟩
    · have hnil : t ∈ w.collaborators.store := ht
      rw [h.store] at hnil
      exact absurd hnil List.not_mem_nil
    · have hsent : (w.order o).sent = .ofMessage m := hm
      rw [h.sent] at hsent
      cases m <;> cases hsent
  · have hp : (w.ledger c o).order.payment = .trying := h.payment
    simp only [Ledger.Foretold, placement, hp]
    rfl
  · refine ⟨fun hs => ?_, fun m hm hfits => ?_⟩
    · have hs' : w.shipped o = true := hs
      rw [hshipped] at hs'
      cases hs'
    · have hp : (w.ledger c o).order.payment = .trying := h.payment
      have hfits' : m.Fits (w.ledger c o).order.payment := hfits
      rw [hp] at hfits'
      cases m with
      | paymentTrying => exact absurd rfl hm
      | paymentFail | paymentSuccess => cases hfits'

/-- An order that was ever to be escalated is with an employee, and was handed over once. -/
theorem Ready.handed (hs : s.Inline) (h : Ready c o w) (fuel : Nat)
    (hover : ((placement c o w).drive s fuel).isOver = true)
    (ht : ((placement c o w).drive s fuel).world.InTime s o) (k : Nat) (rest : List Action)
    (hk : ((placement c o w).drive s k).agenda = .escalate c o :: rest) :
    ((placement c o w).drive s fuel).world.handed o = 1 := by
  have hstart := h.converging (s := s)
  have hevolves := (hstart.orderly.drive fuel).1
  obtain ⟨hend, -⟩ := hstart.drive hs fuel ht
  have hempty := hend.at_end hover
  have hle : k ≤ fuel := by
    by_contra hlt
    obtain ⟨n, rfl⟩ := Nat.exists_eq_add_of_le (Nat.le_of_not_le hlt)
    rw [drive_add] at hk
    rw [drive_of_over hover, hempty] at hk
    cases hk
  obtain ⟨n, rfl⟩ := Nat.exists_eq_add_of_le hle
  have horderly := (hstart.orderly.drive k).2
  have hsplit := drive_add s k n (placement c o w)
  rw [hsplit] at ht hend hempty hevolves ⊢
  have hthen := (hstart.drive hs k ((horderly.drive n).1.inTime horderly.clock ht)).1
  have hkept := (hthen.drive hs n ht).2 (.employeeDb o) .employeeDb (by
    rw [hk]
    exact .of_head rfl)
  rw [hempty] at hkept
  have hupkept := hend.upkept
  rw [hempty] at hupkept
  have hescalated := hupkept.settled hkept
  have hparks : w.Parks o := fun he => by
    rw [h.escalated] at he
    cases he
  have hdistinct : w.Distinct := by
    rw [World.Distinct, h.employee]
    exact List.nodup_nil
  exact (hevolves.parks h.clock hparks).handed (hevolves.distinct h.clock hdistinct) hescalated

/-- When a placement whose jobs run on the spot is over, in time and with a queue store that works,
the queue is empty; a shipped order is paid for, or its payment has failed, as the failures of the
payment service tell, and the one message about that was sent; and if the order was ever to be
escalated, the employee handle has it once. -/
theorem placement_converges (s : Setup) (c : CoordinatorRef) (o : OrderRef) (w : World)
    (fuel : Nat) (hs : s.Inline) (h : Ready c o w)
    (hover : ((placement c o w).drive s fuel).isOver = true)
    (ht : ((placement c o w).drive s fuel).world.InTime s o) :
    let v := ((placement c o w).drive s fuel).world
    v.collaborators.store = [] ∧ v.queuedItems c = 0 ∧
      (v.shipped o = true →
        (v.order o).payment = (verdict w.faults.payment).1 ∧
        (v.order o).sent = .ofMessage (verdict w.faults.payment).2 ∧
        (v.messages o).filter (· ≠ .paymentTrying) = [(verdict w.faults.payment).2] ∧
        v.payments o = if (verdict w.faults.payment).1 = .done then 1 else 0) ∧
      ∀ k rest, ((placement c o w).drive s k).agenda = .escalate c o :: rest →
        v.handed o = 1 := by
  have hstart := h.converging (s := s)
  have hevolves : w.Evolves s ((placement c o w).drive s fuel).world :=
    (hstart.orderly.drive fuel).1
  have hend := (hstart.drive hs fuel ht).1
  have hupkept := hend.upkept
  rw [hend.at_end hover] at hupkept
  obtain ⟨hstore, hcounted⟩ := hupkept.at_end
  have hmessages : w.messages o = [] := by
    rw [World.messages_eq, h.deeds]
    rfl
  have hpayments : w.payments o = 0 := by
    rw [World.payments_eq, h.deeds]
    rfl
  have hremembers := hevolves.remembers h.clock (o := o)
    ⟨h.exists_order, by rw [hmessages, h.sent]; exact .nothing⟩
  have hpaid := hevolves.paidOnce h.clock (o := o)
    ⟨h.exists_order, by rw [hpayments, h.payment]; rfl⟩
  refine ⟨hstore, ?_, fun hshipped => ?_, fun k rest => h.handed hs fuel hover ht k rest⟩
  · rw [World.queuedItems, List.getD_eq_getElem?_getD]
    exact congrArg (·.getD 0) hcounted
  · have told {m : MessageType} (hm : m ≠ .paymentTrying)
        (hsent : (((placement c o w).drive s fuel).world.order o).sent = .ofMessage m) :
        (((placement c o w).drive s fuel).world.messages o).filter (· ≠ .paymentTrying) = [m] := by
      have htold := hremembers.told
      rw [hsent] at htold
      exact htold.outcomes hm
    have paid {p : PaymentStatus}
        (hp : (((placement c o w).drive s fuel).world.order o).payment = p) :
        ((placement c o w).drive s fuel).world.payments o = if p = .done then 1 else 0 := by
      rw [hpaid.count, hp]
    obtain ⟨hmem, hp, hm⟩ | ⟨hmem, hp, hm⟩ := hupkept.outcome hshipped
    · rw [verdict, if_pos hmem]
      exact ⟨hp, hm, told (by decide) hm, paid hp⟩
    · rw [verdict, if_neg hmem]
      exact ⟨hp, hm, told (by decide) hm, paid hp⟩

end Placement

/-- Nothing is attempted twice but from the queue. -/
def noRetries : Setup := { config := { retry := { retries := 0 } }, dispatch := .inline }

/-- A new order; payment and messages will each fail once. -/
def outages : World :=
  { clock := 0
    orders := [{ id := ⟨"A1"⟩, customer := ⟨"Jim", "ABCD"⟩, item := "book", price := 10,
                 createdAt := 0 }]
    faults := { payment := [.databaseUnavailable], messaging := [.databaseUnavailable] } }

theorem outages_ready : Ready 0 0 outages where
  clock := by decide
  unlocked := .of_forall (by decide)
  steady := ⟨rfl, rfl, rfl, rfl⟩
  exists_order := by decide
  payment := rfl
  sent := rfl
  escalated := rfl
  deeds := rfl
  store := rfl
  employee := rfl
  counted := rfl

theorem outages_converge :
    let v := ((placement 0 0 outages).drive noRetries 60).world
    v.collaborators.store = [] ∧ v.queuedItems 0 = 0 ∧ (v.order 0).payment = .done ∧
      (v.messages 0).filter (· ≠ .paymentTrying) = [.paymentSuccess] ∧ v.payments 0 = 1 ∧
      v.handed 0 = 1 := by
  have hinline : noRetries.Inline := ⟨rfl, rfl, by decide⟩
  obtain ⟨hstore, hcount, hshipped, hescalated⟩ := placement_converges noRetries 0 0 outages 60
    hinline outages_ready rfl ⟨rfl, rfl, rfl, rfl⟩
  obtain ⟨hpayment, -, hmessages, hpayments⟩ := hshipped rfl
  exact ⟨hstore, hcount, hpayment, hmessages, hpayments, hescalated 24 _ rfl⟩

end Run
end Fulfilment
