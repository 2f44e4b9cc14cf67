import Fulfilment.Proofs.Stage.Progress
import Fulfilment.Proofs.System

/-! Payment is taken at most once and its status is final, in whatever order jobs, requests and
failures come.

* `World.payments`: the payments accepted for an order, counted in the journal.
* `Change.payment`: a change leaves status and count alone, or settles a pending payment.
* `System.payment_settles_once`: so the count is one once the payment is done, else zero, and a
  settled status stays. -/
namespace Fulfilment

set_option autoImplicit false

/-! ## Accepted payments -/

/-- A payment for this order was accepted. -/
def Event.isPaymentOf (o : OrderRef) : Event → Bool
  | .answered (.payment p _) _ => p = o
  | _ => false

def World.payments (w : World) (o : OrderRef) : Nat := w.journal.countP (Event.isPaymentOf o)

theorem World.payments_eq (w : World) (o : OrderRef) :
    w.payments o = w.deeds.countP (Event.isPaymentOf o) := by
  rw [payments, countP_deeds]
  intro e he
  cases e with
  | answered c r => cases c <;> first | rfl | cases he
  | _ => cases he

theorem World.payments_of_deeds {w v : World} (h : v.deeds = w.deeds) (o : OrderRef) :
    v.payments o = w.payments o := by
  rw [payments_eq, payments_eq, h]

theorem payments_fulfil (work : Work) (empty : Bool) (w : World) (o : OrderRef) :
    (fulfil work empty w).1.payments o = w.payments o + if work = .payment o then 1 else 0 := by
  rw [World.payments_eq, World.payments_eq]
  by_cases hd : work = .drain
  · subst hd
    rw [deeds_fulfil_drain]
    rfl
  by_cases hq : work = .dequeue
  · subst hq
    rw [deeds_fulfil_dequeue]
    cases w.collaborators.head? <;> rfl
  obtain ⟨r, hr⟩ := deeds_fulfil work empty w hd hq
  rw [hr, List.countP_cons]
  cases work <;> simp [callOf, Event.isPaymentOf]

/-! ## One change -/

/-- The payment is left alone, fails while it is pending, or is taken while it is pending. -/
inductive PaymentMoves (o : OrderRef) (w v : World) : Prop
  | kept (hs : (v.order o).payment = (w.order o).payment) (hn : v.payments o = w.payments o)
  | failed (hw : (w.order o).payment = .trying) (hv : (v.order o).payment = .notDone)
      (hn : v.payments o = w.payments o)
  | taken (hw : (w.order o).payment = .trying) (hv : (v.order o).payment = .done)
      (hn : v.payments o = w.payments o + 1)

theorem Change.payment {s : Setup} {w v : World} (h : Change s w v) (o : OrderRef)
    (ho : o < w.orders.length) : PaymentMoves o w v := by
  cases h with
  | aside h =>
    have hv : v.order o = w.order o := by rw [World.order, World.order, h.orders]
    exact .kept (by rw [hv]) (World.payments_of_deeds h.deeds o)
  | notice p n _ =>
    refine .kept ?_ rfl
    refine World.order_modifyOrder_congr Order.payment w p o _ fun x => ?_
    cases hx : x.notice <;> simp only [Order.recordNotice, hx]
  | failed p hp =>
    have hv := w.order_modifyOrder p o fun order => { order with payment := .notDone }
    by_cases hop : o = p
    · subst hop
      rw [if_pos ⟨rfl, ho⟩] at hv
      exact .failed hp (congrArg Order.payment hv) rfl
    · rw [if_neg fun h => hop h.1] at hv
      exact .kept (congrArg Order.payment hv) rfl
  | fulfilled j empty hn =>
    have hv := order_fulfil j.work empty w o
    have hc := payments_fulfil j.work empty w o
    by_cases hj : j.work = .payment o
    · have hw : (w.order o).payment = .trying := by simpa [needed, hj] using hn
      rw [if_pos hj] at hc
      rw [if_pos ⟨by rw [hj]; rfl, ho⟩, hj] at hv
      rw [hj] at hc
      exact .taken hw (by rw [hj, hv]; rfl) (by rw [hj]; exact hc)
    · rw [if_neg hj] at hc
      refine .kept ?_ hc
      rw [hv]
      split
      · next h =>
        cases hwork : j.work with
        | payment p =>
          rw [hwork] at h hj
          cases h.1
          exact absurd rfl hj
        | _ => rfl
      · rfl
  | crashed => exact .kept rfl rfl
  | visited => exact .kept rfl rfl
  | dropped t r _ _ _ _ => exact .kept rfl (by rw [World.payments]; rfl)

/-! ## Whole runs -/

/-- The order exists, and its payments add up: one if it is paid for, else none. -/
structure World.PaidOnce (o : OrderRef) (w : World) : Prop where
  exists_order : o < w.orders.length
  count : w.payments o = if (w.order o).payment = .done then 1 else 0

theorem Change.paidOnce {s : Setup} {w v : World} (h : Change s w v) {o : OrderRef}
    (hw : w.PaidOnce o) : v.PaidOnce o := by
  refine ⟨by rw [h.length]; exact hw.exists_order, ?_⟩
  have hc := hw.count
  cases h.payment o hw.exists_order with
  | kept hs hn => rw [hn, hs, hc]
  | failed hp hv hn =>
    rw [hn, hc, hp, hv]
    rfl
  | taken hp hv hn =>
    rw [hn, hc, hp, hv]
    rfl

theorem World.Evolves.paidOnce {s : Setup} {w v : World} (h : w.Evolves s v)
    (hclock : w.clock ≤ World.lastClock) {o : OrderRef} (hw : w.PaidOnce o) : v.PaidOnce o :=
  (h.preserves hclock (fun _ _ _ hc => hc.paidOnce)
    (fun _ _ _ _ hu => ⟨hu.exists_order, hu.count⟩) hw).2

namespace System

/-- In a run that starts with a pending payment, at any two moments of it: a status that is settled
at the first is the same at the second, and at each the payments accepted for the order are one if
it is done and none otherwise. -/
theorem payment_settles_once (s : Setup) (o : OrderRef) (σ₀ σ₁ σ₂ : System)
    (moves₁ moves₂ : List Move) (h₀ : σ₀.Orderly s) (ho : o < σ₀.world.orders.length)
    (htrying : (σ₀.world.order o).payment = .trying) (hnone : σ₀.world.payments o = 0)
    (hwhole : ∀ m ∈ moves₁ ++ moves₂, m.Whole s) (h₁ : play? s moves₁ σ₀ = some σ₁)
    (h₂ : play? s moves₂ σ₁ = some σ₂) :
    ((σ₁.world.order o).payment ≠ .trying →
      (σ₂.world.order o).payment = (σ₁.world.order o).payment) ∧
    (σ₁.world.payments o = if (σ₁.world.order o).payment = .done then 1 else 0) ∧
    σ₂.world.payments o = if (σ₂.world.order o).payment = .done then 1 else 0 := by
  have hm₁ : ∀ m ∈ moves₁, m.Whole s := fun m hm => hwhole m (List.mem_append_left _ hm)
  have hm₂ : ∀ m ∈ moves₂, m.Whole s := fun m hm => hwhole m (List.mem_append_right _ hm)
  have hstart : σ₀.world.PaidOnce o := ⟨ho, by rw [hnone, htrying]; rfl⟩
  obtain ⟨he₁, ho₁⟩ := h₀.play hm₁ h₁
  obtain ⟨he₂, -⟩ := ho₁.play hm₂ h₂
  have hp₁ := he₁.paidOnce h₀.clock hstart
  have hp₂ := he₂.paidOnce ho₁.clock hp₁
  exact ⟨(he₂.later ho₁.clock o).payment, hp₁.count, hp₂.count⟩

/-- Two payment jobs for the one order there is. -/
def twoPayments : System :=
  { world :=
      { clock := 5
        orders := [{ id := ⟨"A1"⟩, customer := ⟨"Jim", "ABCD"⟩, item := "book", price := 10,
                     createdAt := 5 }]
        pending := [⟨0, .payment 0⟩, ⟨0, .payment 0⟩] } }

theorem twoPayments_orderly (s : Setup) : twoPayments.Orderly s :=
  ⟨by decide, .of_forall (by decide), by simp [World.Whole, twoPayments], by simp [twoPayments]⟩

theorem payment_settles_once_of_two :
    ∃ σ₁ σ₂, play? {} [.start 0, .start 0, .act 0] twoPayments = some σ₁ ∧
      play? {} [.act 1] σ₁ = some σ₂ ∧ (σ₁.world.order 0).payment = .done ∧
      (σ₂.world.order 0).payment = .done ∧ σ₂.world.payments 0 = 1 := by
  refine ⟨_, _, rfl, rfl, rfl, ?_⟩
  have h := payment_settles_once {} 0 twoPayments _ _ [.start 0, .start 0, .act 0] [.act 1]
    (twoPayments_orderly {}) (by decide) rfl rfl (by simp [Move.Whole]) rfl rfl
  exact ⟨h.1 (by decide), h.2.2⟩

end System
end Fulfilment
