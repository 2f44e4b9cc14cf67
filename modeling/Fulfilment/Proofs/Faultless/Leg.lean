import Fulfilment.Proofs.Inline.Stake
import Fulfilment.Proofs.Load

/-! The way of an order where nothing fails and nothing comes too late: it is placed, shipped, paid for
and confirmed, one leg after another.

* `Leg`, `Action.leg?`: the legs, each of them one action.
* `Order.Along`: the flags of an order that has some legs behind it.
* `Travels`: everything that a leg does.
* `perform_leg`: in a clear world a leg does this, whatever other orders are on their way. -/
namespace Fulfilment

set_option autoImplicit false

/-! ## Legs -/

/-- Each service is begun, and then called. -/
inductive Leg where
  | placing
  | shipping
  | paying
  | charging
  | telling
  | delivering
  deriving DecidableEq, Repr

namespace Leg

/-- How many legs come before. -/
def rank : Leg → Nat
  | placing => 0
  | shipping => 1
  | paying => 2
  | charging => 3
  | telling => 4
  | delivering => 5

def count : Nat := 6

def next? : Leg → Option Leg
  | placing => some shipping
  | shipping => some paying
  | paying => some charging
  | charging => some telling
  | telling => some delivering
  | delivering => none

/-- What a leg changes in its order. -/
def mark : Leg → Order → Order
  | charging, x => Order.recordNotice { x with payment := .done } .paymentSuccessful
  | delivering, x => { x with sent := .paymentSuccessful }
  | _, x => x

/-- What a leg changes in the collaborators. -/
def serve (l : Leg) (x : Order) (now : Instant) (c : Collaborators) : Collaborators :=
  match l with
  | shipping => (c.ship x.item x.customer.address now).2
  | charging => (c.pay x.price now).2
  | delivering => (c.deliver .paymentSuccess now).2
  | _ => c

theorem rank_lt (l : Leg) : l.rank < count := by
  cases l <;> decide

theorem rank_injective {l k : Leg} (h : l.rank = k.rank) : l = k := by
  cases l <;> cases k <;> first | rfl | exact absurd h (by decide)

/-- The leg of the next rank comes next. -/
theorem next?_eq_some_iff (l k : Leg) : l.next? = some k ↔ k.rank = l.rank + 1 := by
  cases l <;> cases k <;> decide

theorem exists_rank {n : Nat} (h : n < count) : ∃ l : Leg, l.rank = n := by
  have hcases : n = 0 ∨ n = 1 ∨ n = 2 ∨ n = 3 ∨ n = 4 ∨ n = 5 := by
    simp only [count] at h
    omega
  obtain rfl | rfl | rfl | rfl | rfl | rfl := hcases
  · exact ⟨placing, rfl⟩
  · exact ⟨shipping, rfl⟩
  · exact ⟨paying, rfl⟩
  · exact ⟨charging, rfl⟩
  · exact ⟨telling, rfl⟩
  · exact ⟨delivering, rfl⟩

end Leg

def Action.leg? : Action → Option (Leg × OrderRef)
  | .place _ o => some (.placing, o)
  | .attempt ⟨_, .shipping o⟩ _ => some (.shipping, o)
  | .pay _ o => some (.paying, o)
  | .attempt ⟨_, .payment o⟩ _ => some (.charging, o)
  | .tell _ o .paymentSuccess => some (.telling, o)
  | .attempt ⟨_, .messaging o .paymentSuccess⟩ _ => some (.delivering, o)
  | _ => none

/-- The action is this leg of this order. -/
def Action.isAt (l : Leg) (o : OrderRef) (a : Action) : Bool := a.leg? = some (l, o)

theorem concern_isAt (l : Leg) (o : OrderRef) : Concern (Action.isAt l o) := by
  refine ⟨fun _ => rfl, fun _ => rfl, fun _ => rfl, fun _ => rfl, fun j n m => ?_⟩
  obtain ⟨c, work⟩ := j
  cases work with
  | messaging p k => cases k <;> rfl
  | _ => rfl

theorem Action.isAt_iff {l : Leg} {o : OrderRef} {a : Action} :
    a.isAt l o = true ↔ a.leg? = some (l, o) :=
  decide_eq_true_iff

theorem Action.isAt_iff_of_leg {l k : Leg} {o p : OrderRef} {a : Action}
    (h : a.leg? = some (l, o)) : a.isAt k p = true ↔ k = l ∧ p = o := by
  rw [isAt_iff, h, Option.some.injEq, Prod.mk.injEq]
  exact and_congr eq_comm eq_comm

/-! ## Orders on their way -/

/-- The flags of an order that has `n` legs behind it. -/
structure Order.Along (n : Nat) (x : Order) : Prop where
  payment : x.payment = if Leg.charging.rank < n then .done else .trying
  notice : x.notice = if Leg.charging.rank < n then some .paymentSuccessful else none
  sent : x.sent = if Leg.delivering.rank < n then .paymentSuccessful else .noneSent
  escalated : x.escalated = false

theorem Order.Along.mark {l : Leg} {x : Order} (h : x.Along l.rank) :
    (l.mark x).Along (l.rank + 1) := by
  obtain ⟨hpayment, hnotice, hsent, hescalated⟩ := h
  cases l with
  | charging =>
    refine ⟨?_, ?_, ?_, ?_⟩
    · simp [Leg.mark, Order.recordNotice, hnotice, Leg.rank]
    · simp [Leg.mark, Order.recordNotice, hnotice, Leg.rank]
    · simpa [Leg.mark, Order.recordNotice, hnotice, Leg.rank] using hsent
    · simpa [Leg.mark, Order.recordNotice, hnotice, Leg.rank] using hescalated
  | delivering => exact ⟨hpayment, hnotice, rfl, hescalated⟩
  | _ => exact ⟨hpayment, hnotice, hsent, hescalated⟩

/-- What was ordered, and by whom. -/
structure Purchase where
  customer : Customer
  item : String
  price : Float

def Order.purchase (x : Order) : Purchase := ⟨x.customer, x.item, x.price⟩

theorem Order.recordNotice_same (x : Order) (n : SiteNotice) :
    (x.recordNotice n).purchase = x.purchase ∧ (x.recordNotice n).id = x.id := by
  unfold recordNotice
  split <;> exact ⟨rfl, rfl⟩

theorem Leg.mark_same (l : Leg) (x : Order) :
    (l.mark x).purchase = x.purchase ∧ (l.mark x).id = x.id := by
  cases l with
  | charging => exact Order.recordNotice_same { x with payment := .done } .paymentSuccessful
  | _ => exact ⟨rfl, rfl⟩

/-! ## Worlds without faults -/

/-- The collaborators answer, and nothing is scripted to fail. -/
structure World.Clear (w : World) : Prop extends World.Plain w where
  faults : ∀ sv, w.faults.get sv = []

/-- No order has used up the time for its payment before it was paid for, nor the time for its
message before that was sent. -/
def World.Timely (s : Setup) (w : World) : Prop :=
  ∀ o < w.orders.length,
    ((w.order o).payment = .trying → w.budgetExceeded o s.config.limits.payment = false) ∧
      ((w.order o).sent = .noneSent → w.budgetExceeded o s.config.limits.message = false)

instance (s : Setup) (w : World) : Decidable (w.Timely s) :=
  inferInstanceAs (Decidable (∀ o < w.orders.length, _ ∧ _))

/-! ## What a leg leaves alone -/

/-- Shipping, payment and messaging are all that is called or given to the background. -/
def CallKind.isDirect : CallKind → Bool
  | .shipping | .payment | .messaging => true
  | _ => false

/-- Nothing slept, failed or panicked, and neither the queue nor an employee was used. -/
def Event.isDirect : Event → Bool
  | .spawned j => j.work.callKind.isDirect
  | .called c => c.kind.isDirect
  | .answered c _ => c.kind.isDirect
  | .dropped _ | .slept _ | .refused _ _ | .panicked _ => false
  | .started _ | .ended _ | .remarked _ => true

structure World.Undisturbed (w v : World) : Prop where
  ids : v.ids = w.ids
  queued : v.queued = w.queued
  faults : v.faults = w.faults
  journal : ∃ new, v.journal = new ++ w.journal ∧ new.all Event.isDirect = true

/-- What is left to do comes at once, before an end if it is a job, or waits. -/
inductive Leaves (next : Option Action) (w v : World) : List Action → Prop
  | todo (ends : List Action) (hends : ∀ b ∈ ends, b.isEnd = true) (hp : v.pending = w.pending) :
      Leaves next w v (next.toList ++ ends)
  | waits (j : Job) (hj : next = some (.attempt j 0)) (hp : v.pending = w.pending ++ [j]) :
      Leaves next w v []

/-- Everything that a leg of an order does. -/
structure Travels (l : Leg) (o : OrderRef) (w v : World) (todo : List Action) : Prop where
  orders : v.orders = w.orders.modify o l.mark
  collaborators : v.collaborators = l.serve (w.order o) w.now w.collaborators
  undisturbed : w.Undisturbed v
  leaves : ∃ next, next.map Action.leg? = l.next?.map (fun k => some (k, o)) ∧ Leaves next w v todo

section Legs
variable {s : Setup} {w : World}

/-- One event comes to the journal. -/
theorem World.Undisturbed.record {v : World} (h : w.Undisturbed v) {e : Event}
    (he : e.isDirect = true) : w.Undisturbed (v.record e) where
  ids := h.ids
  queued := h.queued
  faults := h.faults
  journal := by
    obtain ⟨new, hjournal, hnew⟩ := h.journal
    refine ⟨e :: new, ?_, ?_⟩
    · rw [List.cons_append, ← hjournal]
      rfl
    · rw [List.all_cons, he, hnew]
      rfl

theorem World.Undisturbed.refl (w : World) : w.Undisturbed w :=
  ⟨rfl, rfl, rfl, [], rfl, rfl⟩

theorem World.Undisturbed.trans {u v : World} (h : w.Undisturbed u) (h' : u.Undisturbed v) :
    w.Undisturbed v where
  ids := h'.ids.trans h.ids
  queued := h'.queued.trans h.queued
  faults := h'.faults.trans h.faults
  journal := by
    obtain ⟨new, hjournal, hnew⟩ := h.journal
    obtain ⟨new', hjournal', hnew'⟩ := h'.journal
    refine ⟨new' ++ new, ?_, ?_⟩
    · rw [hjournal', hjournal, List.append_assoc]
    · rw [List.all_append, hnew, hnew']
      rfl

/-- The rest of a world makes no difference. -/
theorem World.Undisturbed.of_eq {u v : World} (h : w.Undisturbed u) (hids : v.ids = u.ids)
    (hqueued : v.queued = u.queued) (hfaults : v.faults = u.faults)
    (hjournal : v.journal = u.journal) : w.Undisturbed v :=
  h.trans ⟨hids, hqueued, hfaults, [], hjournal, rfl⟩

theorem leaves_at_once {v : World} (next : Option Action) (hp : v.pending = w.pending) :
    Leaves next w v next.toList := by
  have h : Leaves next w v (next.toList ++ []) :=
    .todo [] (fun b hb => absurd hb List.not_mem_nil) hp
  rwa [List.append_nil] at h

theorem leaves_before_end {v : World} (a : Action) {b : Action} (hb : b.isEnd = true)
    (hp : v.pending = w.pending) : Leaves (some a) w v [a, b] := by
  refine .todo [b] (fun c hc => ?_) hp
  rwa [List.mem_singleton.mp hc]

/-- Where nobody is turned away, a job that is spawned waits or comes next. -/
theorem spawn_leaves (j : Job) (hj : j.work.callKind.isDirect = true) (hw : w.Open) :
    ∃ v todo, spawn s j w = .next v todo ∧ v.orders = w.orders ∧
      v.collaborators = w.collaborators ∧ w.Undisturbed v ∧
      Leaves (some (.attempt j 0)) w v todo := by
  have hspawned : w.Undisturbed (w.record (.spawned j)) := (World.Undisturbed.refl w).record hj
  by_cases hs : s.dispatch = .inline
  · exact ⟨_, _, spawn_inline hs hw j, rfl, rfl, hspawned.record rfl, leaves_before_end _ rfl rfl⟩
  · obtain ⟨stats, hspawn⟩ := spawn_waits hs hw j
    exact ⟨_, _, hspawn, rfl, rfl, hspawned.of_eq rfl rfl rfl rfl, .waits j rfl rfl⟩

/-- The first notice is recorded. -/
theorem World.showNotice_of_none {o : OrderRef} (n : SiteNotice) (h : (w.order o).notice = none) :
    w.showNotice o n =
      (w.modifyOrder o (·.recordNotice n)).remark (.noticeShown (w.idOf o) n) := by
  unfold showNotice
  rw [h]

/-! ## The legs -/

/-- A service is begun: its job is spawned, and nothing else is done. -/
theorem travels_of_spawn {l k : Leg} {o : OrderRef} {j : Job} (hw : w.Open)
    (hj : j.work.callKind.isDirect = true) (hmark : l.mark = id)
    (hserve : ∀ x now c, l.serve x now c = c) (hnext : l.next? = some k)
    (hleg : (Action.attempt j 0).leg? = some (k, o)) :
    ∃ v todo, spawn s j w = .next v todo ∧ Travels l o w v todo := by
  obtain ⟨v, todo, hv, horders, hcollaborators, hundisturbed, hleaves⟩ :=
    spawn_leaves (s := s) j hj hw
  refine ⟨v, todo, hv, ?_, ?_, hundisturbed, ⟨some (.attempt j 0), ?_, hleaves⟩⟩
  · rw [horders, hmark, List.modify_id]
  · rw [hcollaborators, hserve]
  · rw [hnext, Option.map_some, hleg, Option.map_some]

section Attempts
variable {o : OrderRef} (c : CoordinatorRef) (n : UInt32) (hw : w.Clear)
include hw

theorem attempt_shipping_travels :
    ∃ v todo, attempt s ⟨c, .shipping o⟩ n w = .next v todo ∧ Travels .shipping o w v todo := by
  have hattempt := attempt_clear (s := s) (j := ⟨c, .shipping o⟩) n hw.toPlain (hw.faults _)
  have hneeded : needed ⟨c, .shipping o⟩ w = true := rfl
  rw [if_pos hneeded] at hattempt
  refine ⟨_, _, hattempt, ?_, rfl, ?_, ⟨some (.pay c o), rfl, leaves_at_once _ rfl⟩⟩
  · exact (List.modify_id ..).symm
  · exact ⟨rfl, rfl, rfl, [.remarked _, .answered _ _, .remarked _, .called _], rfl, rfl⟩

theorem attempt_payment_travels (hx : (w.order o).Along Leg.charging.rank) :
    ∃ v todo, attempt s ⟨c, .payment o⟩ n w = .next v todo ∧ Travels .charging o w v todo := by
  have hattempt := attempt_clear (s := s) (j := ⟨c, .payment o⟩) n hw.toPlain (hw.faults _)
  have hneeded : needed ⟨c, .payment o⟩ w = true := decide_eq_true hx.payment
  rw [if_pos hneeded] at hattempt
  -- The notice is shown once the payment is done, and the order has none before.
  generalize hu : (fulfil (.payment o) false (w.record (.called (callOf (.payment o) w)))).1 = u
    at hattempt
  have hnotice (r : Remark) : ((u.remark r).order o).notice = none := by
    have horder : (u.order o).notice = none := by
      rw [← hu, order_fulfil]
      split
      · exact hx.notice
      · exact hx.notice
    exact horder
  have hshown (r : Remark) := World.showNotice_of_none .paymentSuccessful (hnotice r)
  subst hu
  refine ⟨_, _, hattempt.trans (congrArg (fun v => Outcome.next v _) (hshown _)), ?_, rfl, ?_,
    ⟨some (.tell c o .paymentSuccess), rfl, leaves_at_once _ rfl⟩⟩
  · exact List.modify_modify_eq ..
  · exact ⟨rfl, rfl, rfl, [.remarked _, .remarked _, .answered _ _, .remarked _, .called _], rfl, rfl⟩

theorem attempt_messaging_travels (hx : (w.order o).Along Leg.delivering.rank) :
    ∃ v todo, attempt s ⟨c, .messaging o .paymentSuccess⟩ n w = .next v todo ∧
      Travels .delivering o w v todo := by
  have hattempt := attempt_clear (s := s) (j := ⟨c, .messaging o .paymentSuccess⟩) n hw.toPlain
    (hw.faults _)
  have hneeded : needed ⟨c, .messaging o .paymentSuccess⟩ w = true := by
    have hsent : (w.order o).sent = .noneSent := hx.sent
    simp [needed, Order.needsMessage, hsent, MessageSent.isTerminal]
  rw [if_pos hneeded] at hattempt
  refine ⟨_, _, hattempt, rfl, rfl, ?_, ⟨none, rfl, leaves_at_once _ rfl⟩⟩
  exact ⟨rfl, rfl, rfl, [.remarked _, .answered _ _, .remarked _, .called _], rfl, rfl⟩

end Attempts

/-- A leg that an order has reached does what legs do, unless its time is over. -/
theorem perform_leg {a : Action} {l : Leg} {o : OrderRef} (hw : w.Clear)
    (ha : a.leg? = some (l, o)) (ho : o < w.orders.length) (hx : (w.order o).Along l.rank)
    (ht : w.Timely s) : ∃ v todo, perform s a w = .next v todo ∧ Travels l o w v todo := by
  cases a with
  | place c p =>
    cases ha
    refine ⟨_, _, rfl, ?_, rfl, (World.Undisturbed.refl w).record rfl,
      ⟨some (.attempt ⟨c, .shipping o⟩ 0), rfl, leaves_before_end _ rfl rfl⟩⟩
    exact (List.modify_id ..).symm
  | pay c p =>
    cases ha
    have htime := (ht o ho).1 hx.payment
    have hspawn := travels_of_spawn (s := s) (o := o) (l := .paying) (j := ⟨c, .payment o⟩) hw.isOpen
      rfl rfl (fun _ _ _ => rfl) rfl rfl
    simpa only [perform, pay, htime, Bool.false_eq_true, if_false] using hspawn
  | tell c p m =>
    cases m with
    | paymentSuccess =>
      cases ha
      have htime := (ht o ho).2 hx.sent
      have hspawn := travels_of_spawn (s := s) (o := o) (l := .telling)
        (j := ⟨c, .messaging o .paymentSuccess⟩) hw.isOpen rfl rfl (fun _ _ _ => rfl) rfl rfl
      simpa only [perform, tell, htime, Bool.false_eq_true, if_false] using hspawn
    | _ => cases ha
  | attempt j n =>
    obtain ⟨c, work⟩ := j
    cases work with
    | shipping p =>
      cases ha
      exact attempt_shipping_travels c n hw
    | payment p =>
      cases ha
      exact attempt_payment_travels c n hw hx
    | messaging p m =>
      cases m with
      | paymentSuccess =>
        cases ha
        exact attempt_messaging_travels c n hw hx
      | _ => cases ha
    | _ => cases ha
  | _ => cases ha

end Legs
end Fulfilment
