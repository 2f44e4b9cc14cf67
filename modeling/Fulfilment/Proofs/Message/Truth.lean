import Fulfilment.Proofs.Message.Sequence
import Fulfilment.Proofs.Payment.Once

/-! The customer is never told the wrong outcome of a payment, however late a message is delivered.

* `System.Conveys`: the customer was told something, or is going to be: by an action that is
  outstanding, or by a queued task.
* `Happening.Reserved`: nobody asks for a message to the customer.
* `System.Truthful`: whatever is conveyed agrees with the payment.
* `System.outcome_told_truly`: so success is told of payments that were taken once, and failure of
  payments that were not taken and never will be. -/
namespace Fulfilment

set_option autoImplicit false

/-! ## Requests -/

/-- Neither a message nor a task that is one. -/
def Request.Reserved : Request → Prop
  | .tell _ _ _ => False
  | .enqueue _ t => t.type ≠ .messaging
  | _ => True

def Happening.Reserved : Happening → Prop
  | .move (.ask q) => q.Reserved
  | _ => True

theorem Request.Reserved.topic {q : Request} (h : q.Reserved) {x : Topic}
    (hx : q.action.topic? = some x) : x.message = none := by
  cases q with
  | tell => exact h.elim
  | enqueue c t =>
    cases hx
    exact if_neg h
  | place | pay | escalate =>
    cases hx
    rfl

theorem MessageSent.ofMessage_inj {m m' : MessageType}
    (h : MessageSent.ofMessage m = MessageSent.ofMessage m') : m = m' := by
  cases m <;> cases m' <;> first | rfl | cases h

namespace System

/-! ## What is conveyed -/

/-- The last message the customer got, or one that is to be sent. -/
def Conveys (σ : System) (o : OrderRef) (m : MessageType) : Prop :=
  (σ.world.order o).sent = .ofMessage m ∨ σ.Raises ⟨o, some m⟩

def Truthful (o : OrderRef) (σ : System) : Prop :=
  ∀ m, σ.Conveys o m → m.Fits (σ.world.order o).payment

/-- The payments taken for the order are one if it is paid for, else none. -/
def TakesOnce (o : OrderRef) (σ : System) : Prop :=
  σ.world.payments o = if (σ.world.order o).payment = .done then 1 else 0

section Happenings
variable {s : Setup} {σ τ : System} {h : Happening} {o : OrderRef}

/-- A settled payment is final; an order that is yet to come has none. -/
theorem Orderly.settled (hσ : σ.Orderly s) (hw : h.Whole s) (hτ : σ.happen? s h = some τ)
    (hp : (σ.world.order o).payment ≠ .trying) :
    (τ.world.order o).payment = (σ.world.order o).payment := by
  by_cases ho : o < σ.world.orders.length
  · exact (hσ.later hw hτ ho).1.payment hp
  · have hbefore : σ.world.order o = default := σ.world.order_beyond (Nat.le_of_not_lt ho)
    rw [hbefore] at hp
    exact absurd rfl hp

theorem Truthful.happen (ht : σ.Truthful o) (hσ : σ.Orderly s) (hk : σ.Known) (hw : h.Whole s)
    (hr : h.Reserved) (hτ : σ.happen? s h = some τ) : τ.Truthful o := by
  have before {m : MessageType} (hm : σ.Conveys o m) : m.Fits (τ.world.order o).payment :=
    (ht m hm).later (hσ.settled hw hτ)
  rintro m (hm | hm)
  · cases hσ.posts hk hw hτ o with
    | nothing hs _ =>
      rw [hs] at hm
      exact before (.inl hm)
    | message m' hraised _ hs _ _ =>
      rw [hs] at hm
      cases MessageSent.ofMessage_inj hm
      exact before (.inr hraised)
  · cases hk.comes (hσ.passage hτ) hm with
    | followed y hy hx =>
      -- The message was to be sent before, or its sender has just settled the payment.
      obtain hsame | hfits := hx.message m rfl
      · obtain ⟨p, n⟩ := y
        obtain rfl : o = p := hx.order
        obtain rfl : n = some m := hsame
        exact before (.inr hy)
      · exact hfits
    | asked q hh _ hx =>
      subst hh
      cases Request.Reserved.topic hr hx
    | ordered _ _ hnone => cases hnone

theorem Known.no_payments (hk : σ.Known) (ho : σ.world.orders.length ≤ o) :
    σ.world.payments o = 0 := by
  rw [World.payments_eq, List.countP_eq_zero]
  intro e he hpaid
  cases e with
  | answered c r =>
    cases c with
    | payment p amount =>
      have hp : p = o := of_decide_eq_true hpaid
      have hthere : p < σ.world.orders.length := hk.deeds _ he p rfl
      rw [hp] at hthere
      exact Nat.not_lt_of_le ho hthere
    | _ => cases hpaid
  | _ => cases hpaid

theorem TakesOnce.happen (ht : σ.TakesOnce o) (hσ : σ.Orderly s) (hk : σ.Known) (hw : h.Whole s)
    (hτ : σ.happen? s h = some τ) : τ.TakesOnce o := by
  have hafter := hk.happen hσ hw hτ
  cases happens_of_some hτ with
  | moved m hq hm =>
    have he := (hσ.move hw hm).1
    by_cases ho : o < σ.world.orders.length
    · exact (he.paidOnce hσ.clock ⟨ho, ht⟩).count
    · have hlate : τ.world.orders.length ≤ o := by
        rw [he.length hσ.clock]
        exact Nat.le_of_not_lt ho
      rw [TakesOnce, hafter.no_payments hlate, τ.world.order_beyond hlate]
      rfl
  | ordered c customer item price x ids draws hx hυ =>
    subst hυ
    simp only [TakesOnce, World.order_addOrder]
    split
    · next ho =>
      rw [hx.1]
      exact hk.no_payments (Nat.le_of_eq ho.symm)
    · exact ht

end Happenings

/-! ## Histories -/

/-- At any moment of a history in which nobody asks for a message: whoever was told, or is going to
be told, that the payment was successful has paid exactly once, and whoever was told, or is going to
be told, that it failed has not paid and will not. -/
theorem outcome_told_truly (s : Setup) (o : OrderRef) (σ₀ σ₁ σ₂ : System)
    (before after : List Happening) (h₀ : σ₀.Orderly s) (hknown : σ₀.Known)
    (hquiet : ∀ x, σ₀.Raises x → x.message = none)
    (htrying : (σ₀.world.order o).payment = .trying)
    (hsent : (σ₀.world.order o).sent = .noneSent) (hnone : σ₀.world.payments o = 0)
    (hwhole : ∀ h ∈ before ++ after, h.Whole s) (hreserved : ∀ h ∈ before, h.Reserved)
    (h₁ : after? s before σ₀ = some σ₁) (h₂ : after? s after σ₁ = some σ₂) :
    (σ₁.Conveys o .paymentSuccess →
      (σ₁.world.order o).payment = .done ∧ σ₁.world.payments o = 1) ∧
    (σ₁.Conveys o .paymentFail →
      (σ₁.world.order o).payment = .notDone ∧ σ₁.world.payments o = 0 ∧
        σ₂.world.payments o = 0) := by
  have hw₁ : ∀ h ∈ before, h.Whole s := fun h hh => hwhole h (List.mem_append_left _ hh)
  have hw₂ : ∀ h ∈ after, h.Whole s := fun h hh => hwhole h (List.mem_append_right _ hh)
  have htruthful : σ₀.Truthful o := by
    rintro m (hm | hm)
    · rw [hsent] at hm
      cases m <;> cases hm
    · cases hquiet _ hm
  have htakes : σ₀.TakesOnce o := by
    rw [TakesOnce, hnone, htrying]
    rfl
  obtain ⟨ho₁, hk₁, ht₁, hp₁⟩ := h₀.after_induct (P := fun υ => υ.Truthful o ∧ υ.TakesOnce o)
    (fun h hh υ ω ho hk hω hυ => ⟨hυ.1.happen ho hk (hw₁ h hh) (hreserved h hh) hω,
      hυ.2.happen ho hk (hw₁ h hh) hω⟩) hknown hw₁ h₁ ⟨htruthful, htakes⟩
  refine ⟨fun hm => ?_, fun hm => ?_⟩
  · have hdone : (σ₁.world.order o).payment = .done := ht₁ _ hm
    exact ⟨hdone, hp₁.trans (if_pos hdone)⟩
  · have hfailed : (σ₁.world.order o).payment = .notDone := ht₁ _ hm
    have hnot : ¬ (σ₁.world.order o).payment = .done := by
      rw [hfailed]
      decide
    obtain ⟨-, -, hsettled, hp₂⟩ := ho₁.after_induct
      (P := fun υ => (υ.world.order o).payment = .notDone ∧ υ.TakesOnce o)
      (fun h hh υ ω ho hk hω hυ => by
        refine ⟨?_, hυ.2.happen ho hk (hw₂ h hh) hω⟩
        rw [ho.settled (hw₂ h hh) hω (by rw [hυ.1]; decide), hυ.1]) hk₁ hw₂ h₂ ⟨hfailed, hp₁⟩
    refine ⟨hfailed, hp₁.trans (if_neg hnot), hp₂.trans (if_neg ?_)⟩
    rw [hsettled]
    decide

/-- No orders yet; payment details are going to be wrong, and messaging will be out of order. -/
def wrongDetails : System :=
  { world :=
      { clock := 5
        faults := { payment := [.paymentDetailsError], messaging := [.databaseUnavailable] } } }

theorem wrongDetails_orderly (s : Setup) : wrongDetails.Orderly s :=
  ⟨by decide, .of_forall (by decide), by simp [World.Whole, wrongDetails], by simp [wrongDetails]⟩

/-- The payment of an order is rejected, and the message about it is put off to the queue. -/
def putOffMessage : List Happening :=
  .order 0 ⟨"Jim", "ABCD"⟩ "book" 10 ::
    [.act 0, .act 0, .act 0, .start 0, .act 1, .act 1, .start 0, .act 2, .act 2, .start 0,
      .act 3].map .move

/-- The queued message is delivered. -/
def thenDelivered : List Happening :=
  [.act 3, .start 0, .act 4, .act 4, .start 0, .act 5].map .move

theorem queued_failure_told_truly :
    ∃ σ₁ σ₂, after? oneTry putOffMessage wrongDetails = some σ₁ ∧
      after? oneTry thenDelivered σ₁ = some σ₂ ∧
      σ₁.world.collaborators.store = [.messaging 0 .paymentFail] ∧
      (σ₂.world.order 0).sent = .paymentFail ∧ (σ₁.world.order 0).payment = .notDone ∧
      σ₁.world.payments 0 = 0 ∧ σ₂.world.payments 0 = 0 := by
  refine ⟨_, _, rfl, rfl, rfl, rfl, ?_⟩
  have h := outcome_told_truly oneTry 0 wrongDetails _ _ putOffMessage thenDelivered
    (wrongDetails_orderly oneTry) (known_of_nothing rfl rfl rfl)
    (fun x hx => absurd hx (raises_nothing rfl rfl x)) rfl rfl rfl
    (by simp [putOffMessage, thenDelivered, Happening.Whole, Move.Whole])
    (by simp [putOffMessage, Happening.Reserved]) rfl rfl
  exact h.2 (.inr (.inr ⟨.messaging 0 .paymentFail, List.mem_singleton.mpr rfl, rfl⟩))

end System
end Fulfilment
