import Fulfilment.Stage.Perform

/-! What the small changes of a world leave alone: orders under changes of one order, the lock as
a flag that nothing else reads, and `World.deeds`, the part of the journal that tells what became
of orders and tasks. -/
namespace Fulfilment

set_option autoImplicit false

namespace World

/-! ## One order -/

theorem order_modifyOrder (w : World) (o p : OrderRef) (f : Order → Order) :
    (w.modifyOrder o f).order p =
      if p = o ∧ o < w.orders.length then f (w.order o) else w.order p := by
  simp only [order, modifyOrder, List.getD_eq_getElem?_getD, List.getElem?_modify]
  by_cases hp : p = o
  · subst hp
    by_cases hlt : p < w.orders.length
    · simp [hlt]
    · simp [hlt]
  · have hne : ¬ o = p := fun h => hp h.symm
    simp [hp, hne]

theorem length_modifyOrder (w : World) (o : OrderRef) (f : Order → Order) :
    (w.modifyOrder o f).orders.length = w.orders.length :=
  List.length_modify ..

/-- A part of an order that `f` does not touch is the same after `f` at any place. -/
theorem order_modifyOrder_congr {α : Type} (view : Order → α) (w : World) (o p : OrderRef)
    (f : Order → Order) (hf : ∀ x, view (f x) = view x) :
    view ((w.modifyOrder o f).order p) = view (w.order p) := by
  rw [order_modifyOrder]
  split
  · next h => rw [hf, h.1]
  · rfl

theorem modifyOrder_modifyOrder (w : World) (o : OrderRef) (f g : Order → Order) :
    (w.modifyOrder o f).modifyOrder o g = w.modifyOrder o (g ∘ f) := by
  have h : (w.orders.modify o f).modify o g = w.orders.modify o (g ∘ f) :=
    List.modify_modify_eq f g o w.orders
  simp only [modifyOrder, h]

/-- Changing an order into itself changes nothing. -/
theorem modifyOrder_eq_self (w : World) (o : OrderRef) (f : Order → Order)
    (hf : f (w.order o) = w.order o) : w.modifyOrder o f = w := by
  have h : w.orders.modify o f = w.orders := by
    apply List.ext_getElem?
    intro i
    rw [List.getElem?_modify]
    by_cases hi : o = i
    · subst hi
      cases hx : w.orders[o]? with
      | none => rfl
      | some x =>
        have hox : w.order o = x := by simp [order, List.getD_eq_getElem?_getD, hx]
        rw [hox] at hf
        simp [hf]
    · simp [hi]
  simp only [modifyOrder, h]

/-! ## The clock -/

theorem advance_zero (w : World) (h : w.clock ≤ lastClock) : w.advance 0 = w := by
  have hclock : min ((w.clock : Int) + 0).toNat lastClock = w.clock := by omega
  rw [advance, hclock]

/-! ## Deeds -/

end World

/-- A drain step has found the head of the queue finished and drops it. -/
def Remark.isDropping : Remark → Bool
  | .taskTimedOut _ _ => true
  | .queuedPaymentSettled _ => true
  | .messageTypeMissing _ => true
  | .queuedMessageNotNeeded _ _ => true
  | .alreadyEscalated _ => true
  | _ => false

/-- An accepted call that changed something, a call in which the collaborator panicked, or the
decision to drop the head of the queue. -/
def Event.isDeed : Event → Bool
  | .answered .peek _ => false
  | .answered _ _ => true
  | .panicked _ => true
  | .remarked r => r.isDropping
  | _ => false

namespace World

/-- The deeds, the latest first. -/
def deeds (w : World) : List Event := w.journal.filter Event.isDeed

theorem deeds_record (w : World) (e : Event) :
    (w.record e).deeds = if e.isDeed then e :: w.deeds else w.deeds := by
  simp only [deeds, record, List.filter_cons]

theorem any_deeds (w : World) (q : Event → Bool) (hq : ∀ e, q e = true → e.isDeed = true) :
    w.deeds.any q = w.journal.any q := by
  rw [deeds, List.any_filter]
  congr 1
  funext e
  cases he : q e with
  | false => rw [Bool.and_false]
  | true => rw [hq e he, Bool.and_true]

theorem countP_deeds (w : World) (q : Event → Bool) (hq : ∀ e, q e = true → e.isDeed = true) :
    w.deeds.countP q = w.journal.countP q := by
  rw [deeds, List.countP_filter]
  congr 1
  funext e
  cases he : q e with
  | false => rw [Bool.false_and]
  | true => rw [hq e he, Bool.true_and]

theorem filterMap_deeds {α : Type} (w : World) (f : Event → Option α)
    (hf : ∀ e, e.isDeed = false → f e = none) : w.deeds.filterMap f = w.journal.filterMap f := by
  rw [deeds, List.filterMap_filter]
  congr 1
  funext e
  cases he : e.isDeed with
  | false => exact (hf e he).symm
  | true => rfl

theorem deeds_remark (w : World) {r : Remark} (hr : r.isDropping = false) :
    (w.remark r).deeds = w.deeds := by
  rw [remark, deeds_record]
  simp [Event.isDeed, hr]

theorem deeds_remark_dropping (w : World) {r : Remark} (hr : r.isDropping = true) :
    (w.remark r).deeds = .remarked r :: w.deeds := by
  rw [remark, deeds_record]
  simp [Event.isDeed, hr]

/-! ## The lock -/

@[simp] theorem order_setLocked (w : World) (o p : OrderRef) (b : Bool) :
    (w.setLocked o b).order p =
      { w.order p with
        locked := if p = o ∧ o < w.orders.length then b else (w.order p).locked } := by
  rw [setLocked, order_modifyOrder]
  split
  · next h => rw [h.1]
  · rfl

@[simp] theorem idOf_setLocked (w : World) (o p : OrderRef) (b : Bool) :
    (w.setLocked o b).idOf p = w.idOf p := by
  simp only [idOf, order_setLocked]

theorem snapshot_setLocked (w : World) (o p : OrderRef) (b : Bool) :
    ((w.setLocked o b).order p).snapshot = (w.order p).snapshot := by
  simp only [order_setLocked, Order.snapshot]

/-- No section is between its check and its change. -/
def Unlocked (w : World) : Prop := ∀ o, (w.order o).locked = false

theorem Unlocked.of_forall {w : World} (h : ∀ x ∈ w.orders, x.locked = false) : w.Unlocked := by
  intro o
  simp only [order, List.getD_eq_getElem?_getD]
  cases hx : w.orders[o]? with
  | none => rfl
  | some x => exact h x (List.mem_of_getElem? hx)

theorem setLocked_setLocked (w : World) (o : OrderRef) (h : (w.order o).locked = false) :
    (w.setLocked o true).setLocked o false = w := by
  rw [setLocked, setLocked, modifyOrder_modifyOrder]
  apply modifyOrder_eq_self
  show { w.order o with locked := false } = w.order o
  rw [← h]

theorem Unlocked.of_orders {w v : World} (h : w.Unlocked) (hv : v.orders = w.orders) :
    v.Unlocked := by
  intro o
  have hvo : v.order o = w.order o := by rw [order, order, hv]
  rw [hvo]
  exact h o

theorem Unlocked.modifyOrder {w : World} (h : w.Unlocked) (o : OrderRef) (f : Order → Order)
    (hf : ∀ x, (f x).locked = x.locked) : (w.modifyOrder o f).Unlocked := by
  intro p
  rw [order_modifyOrder_congr Order.locked w o p f hf]
  exact h p

theorem Unlocked.showNotice {w : World} (h : w.Unlocked) (o : OrderRef) (n : SiteNotice) :
    (w.showNotice o n).Unlocked := by
  simp only [World.showNotice]
  cases (w.order o).notice with
  | some _ => exact h
  | none =>
    refine (h.modifyOrder o _ fun x => ?_).of_orders rfl
    cases hx : x.notice <;> simp only [Order.recordNotice, hx]

end World
end Fulfilment
