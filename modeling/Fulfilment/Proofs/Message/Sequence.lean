import Fulfilment.Proofs.Books.Topic
import Fulfilment.Proofs.Message.History

/-! What a customer is told over a whole history, whatever the order of jobs, requests and failures.

* `Posted`: an action sends no message for an order, or one that is needed at that moment.
* `System.Minds`: the order remembers the last of the messages that were sent for it.
* `System.messages_in_sequence`: at most one message about a pending payment, sent while it is
  pending, then at most one about its outcome, which is the last. -/
namespace Fulfilment

set_option autoImplicit false

/-! ## One action -/

/-- No message is sent for the order, or one that the action was about and that is needed. -/
inductive Posted (a : Action) (o : OrderRef) (w v : World) : Prop
  | nothing (hs : (v.order o).sent = (w.order o).sent) (hm : v.messages o = w.messages o)
  | message (m : MessageType) (ha : a.topic? = some ⟨o, some m⟩)
      (hn : (w.order o).needsMessage m = true) (hs : (v.order o).sent = .ofMessage m)
      (hp : (v.order o).payment = (w.order o).payment)
      (hm : v.messages o = w.messages o ++ [m])

def Books.messages (b : Books) (o : OrderRef) : List MessageType :=
  (b.deeds.filterMap (Event.messageTo? o)).reverse

theorem World.messages_books (w : World) (o : OrderRef) : w.messages o = w.books.messages o :=
  w.messages_eq o

section Actions
variable {s : Setup} {w v : World} {a : Action} {todo : List Action} {o : OrderRef}

theorem Posted.of_books {b : Books} (hv : v.books = b)
    (hs : (b.order o).sent = (w.books.order o).sent) (hm : b.messages o = w.books.messages o) :
    Posted a o w v := by
  subst hv
  refine .nothing hs ?_
  rw [v.messages_books, w.messages_books, hm]

theorem Success.posted {c : CoordinatorRef} {work : Work} (n : UInt32)
    (h : Success s w.books c work v todo) (ho : o < w.orders.length) :
    Posted (.attempt ⟨c, work⟩ n) o w v := by
  cases h with
  | shipped p r _ hv => exact .of_books hv rfl rfl
  | paid p r _ hp hv =>
    refine .of_books hv ?_ rfl
    rw [Books.sent_note, Books.sent_pay]
    rfl
  | told p m r _ hn hv =>
    have horder : v.order o = if o = p ∧ p < w.orders.length then
        { w.order p with sent := .ofMessage m } else w.order o :=
      (congrArg (fun b : Books => b.order o) hv).trans (Books.order_change ..)
    by_cases hop : o = p
    · subst hop
      rw [if_pos ⟨rfl, ho⟩] at horder
      refine .message m rfl hn (congrArg Order.sent horder) ?_ ?_
      · exact (congrArg Order.payment horder :)
      rw [v.messages_books, w.messages_books, hv]
      simp [Books.messages, Books.change, Books.deed, Event.messageTo?]
    · rw [if_neg fun h => hop h.1] at horder
      refine .nothing (congrArg Order.sent horder) ?_
      have hpo : ¬ p = o := fun h => hop h.symm
      rw [v.messages_books, w.messages_books, hv]
      simp [Books.messages, Books.change, Books.deed, Event.messageTo?, hpo]
  | handed p r _ he hv =>
    exact .of_books hv (Books.order_change_congr Order.sent _ p o _ fun _ => rfl) rfl
  | added t _ hv => exact .of_books hv rfl rfl
  | visited t rest now _ hs hc hf hv => exact .of_books hv rfl rfl
  | condemned t rest now r _ hs hc hr hf hv => exact .of_books hv rfl rfl
  | removed t rest _ hs hv => exact .of_books hv rfl rfl

theorem Setback.posted {c : CoordinatorRef} {work : Work} {f : Failure}
    (h : Setback s w.books c work f v todo) : Posted a o w v := by
  cases h with
  | declined p _ hp hv =>
    refine .of_books hv ?_ rfl
    rw [Books.sent_pay, Books.sent_note]
  | turnedAway _ _ _ _ _ hv | notPlaced _ _ _ hv | declinedLate _ _ _ hv | unpaid _ _ _ _ _ hv =>
    exact .of_books hv (Books.sent_note ..) rfl
  | notQueued t _ _ _ _ hv => exact .of_books hv (Books.sent_pay ..) rfl
  | _ => next hv => exact .of_books hv rfl rfl

theorem Effect.posted (h : Effect s w a v todo) (ho : o < w.orders.length) : Posted a o w v := by
  cases h with
  | idle _ _ _ _ hv => exact .of_books hv rfl rfl
  | expired _ _ _ _ _ hv => exact .of_books hv (Books.sent_pay ..) rfl
  | succeeded c work n _ _ hs => exact hs.posted n ho
  | failed c work n f _ _ hf hs => exact hs.posted
  | _ => next hv => exact .of_books hv rfl rfl

end Actions

/-! ## One happening -/

namespace System

/-- The order remembers the last message that was sent for it; so does one that is yet to come. -/
def Minds (o : OrderRef) (σ : System) : Prop :=
  Told (σ.world.messages o) (σ.world.order o).sent

/-- A happening sends no message for the order, or one that was to be sent and is needed. -/
inductive Posts (o : OrderRef) (σ τ : System) : Prop
  | nothing (hs : (τ.world.order o).sent = (σ.world.order o).sent)
      (hm : τ.world.messages o = σ.world.messages o)
  | message (m : MessageType) (hr : σ.Raises ⟨o, some m⟩)
      (hn : (σ.world.order o).needsMessage m = true)
      (hs : (τ.world.order o).sent = .ofMessage m)
      (hp : (τ.world.order o).payment = (σ.world.order o).payment)
      (hm : τ.world.messages o = σ.world.messages o ++ [m])

section Happenings
variable {s : Setup} {σ τ : System} {h : Happening} {o : OrderRef}

theorem Known.no_messages (hk : σ.Known) (ho : σ.world.orders.length ≤ o) :
    σ.world.messages o = [] := by
  rw [World.messages_eq, List.reverse_eq_nil_iff, List.filterMap_eq_nil_iff]
  intro e he
  have hother : e.order? ≠ some o := fun hoe => Nat.not_lt_of_le ho (hk.deeds e he o hoe)
  cases e with
  | answered c r =>
    cases c with
    | messaging p m => exact if_neg fun hp => hother (congrArg some hp)
    | _ => rfl
  | _ => rfl

theorem Orderly.posts (hσ : σ.Orderly s) (hk : σ.Known) (hw : h.Whole s)
    (hτ : σ.happen? s h = some τ) (o : OrderRef) : Posts o σ τ := by
  by_cases ho : o < σ.world.orders.length
  · obtain ⟨a, v, todo, ha, he, hb, -⟩ | ⟨_, _, hb, hsame⟩ := (hσ.passage hτ).books_cases
    · have horder : τ.world.order o = v.order o := World.order_of_books hb o
      have hmessages : τ.world.messages o = v.messages o :=
        World.messages_of_deeds (World.deeds_of_books hb) o
      cases he.posted ho with
      | nothing hs hm => exact .nothing (by rw [horder, hs]) (by rw [hmessages, hm])
      | message m htopic hn hs hp hm =>
        exact .message m (.inl ⟨a, ha, htopic⟩) hn (by rw [horder, hs]) (by rw [horder, hp])
          (by rw [hmessages, hm])
    · exact .nothing (by rw [hsame o ho]) (World.messages_of_deeds (congrArg Books.deeds hb) o)
  -- The order is not there yet: nothing is about it, so nothing can be sent for it.
  · have hbefore : σ.world.order o = default := σ.world.order_beyond (Nat.le_of_not_lt ho)
    have hnone := hk.no_messages (Nat.le_of_not_lt ho)
    cases happens_of_some hτ with
    | moved m hq hm =>
      have hlen : τ.world.orders.length = σ.world.orders.length :=
        (hσ.move hw hm).1.length hσ.clock
      have hlate : τ.world.orders.length ≤ o := by
        rw [hlen]
        exact Nat.le_of_not_lt ho
      have hafter : τ.world.order o = default := τ.world.order_beyond hlate
      have hknown := hk.happen hσ hw hτ
      exact .nothing (by rw [hafter, hbefore]) (by rw [hknown.no_messages hlate, hnone])
    | ordered c customer item price x ids draws hx hυ =>
      subst hυ
      refine .nothing ?_ rfl
      rw [World.order_addOrder]
      split
      · rw [hbefore]
        exact hx.2.1
      · rfl

theorem Posts.minds (h : Posts o σ τ) (hσ : σ.Minds o) : τ.Minds o := by
  simp only [Minds] at hσ ⊢
  cases h with
  | nothing hs hm =>
    rw [hs, hm]
    exact hσ
  | message m hr hn hs hp hm =>
    rw [hs, hm]
    exact hσ.append hn

theorem Posts.terminal (h : Posts o σ τ) (ht : (σ.world.order o).sent.isTerminal = true) :
    (τ.world.order o).sent = (σ.world.order o).sent := by
  cases h with
  | nothing hs hm => exact hs
  | message m hr hn hs hp hm =>
    rw [Order.not_terminal_of_needs hn] at ht
    cases ht

theorem Posts.in_time (h : Posts o σ τ) :
    τ.world.messages o = σ.world.messages o ∨
      ∃ m, τ.world.messages o = σ.world.messages o ++ [m] ∧
        (m = .paymentTrying →
          (σ.world.order o).payment = .trying ∧ (τ.world.order o).payment = .trying) := by
  cases h with
  | nothing hs hm => exact .inl hm
  | message m hr hn hs hp hm =>
    refine .inr ⟨m, hm, fun hpending => ?_⟩
    subst hpending
    simp only [Order.needsMessage, Bool.and_eq_true, decide_eq_true_eq] at hn
    exact ⟨hn.1, by rw [hp, hn.1]⟩

end Happenings

/-! ## Histories -/

/-- What every happening of an orderly history keeps, as long as nothing is about an order that is
not there, holds at its end. -/
theorem Orderly.after_induct {s : Setup} {P : System → Prop} {σ τ : System}
    {happenings : List Happening}
    (step : ∀ h ∈ happenings, ∀ υ ω, υ.Orderly s → υ.Known → υ.happen? s h = some ω → P υ → P ω)
    (hσ : σ.Orderly s) (hk : σ.Known) (hw : ∀ h ∈ happenings, h.Whole s)
    (hτ : after? s happenings σ = some τ) (hP : P σ) : τ.Orderly s ∧ τ.Known ∧ P τ := by
  refine after?_induct (P := fun υ => υ.Orderly s ∧ υ.Known ∧ P υ) ?_ hτ ⟨hσ, hk, hP⟩
  rintro h hh υ ω hω ⟨ho, hkυ, hυ⟩
  exact ⟨ho.happen (hw h hh) hω, hkυ.happen ho (hw h hh) hω, step h hh υ ω ho hkυ hω hυ⟩

theorem Told.listed {l : List MessageType} {sent : MessageSent} (h : Told l sent) :
    l ∈ [[], [.paymentTrying], [.paymentFail], [.paymentSuccess],
      [.paymentTrying, .paymentFail], [.paymentTrying, .paymentSuccess]] ∧
    sent = (l.getLast?.map MessageSent.ofMessage).getD .noneSent := by
  cases h with
  | nothing | pending => exact ⟨by decide, rfl⟩
  | outcome m hm | both m hm =>
    cases m with
    | paymentTrying => exact absurd rfl hm
    | paymentFail | paymentSuccess => exact ⟨by decide, rfl⟩

/-- At any moment of a history in which the customer was told nothing at first: the messages that
were accepted for an order are one of six lists, the order remembers the last of them, a final one
stays the last, and whatever happens next adds one message at most, one about a pending payment only
while it is pending. -/
theorem messages_in_sequence (s : Setup) (o : OrderRef) (σ₀ σ₁ σ₂ : System)
    (before after : List Happening) (h₀ : σ₀.Orderly s) (hknown : σ₀.Known)
    (hsent : (σ₀.world.order o).sent = .noneSent) (hnone : σ₀.world.messages o = [])
    (hwhole : ∀ h ∈ before ++ after, h.Whole s) (h₁ : after? s before σ₀ = some σ₁)
    (h₂ : after? s after σ₁ = some σ₂) :
    σ₁.world.messages o ∈ [[], [.paymentTrying], [.paymentFail], [.paymentSuccess],
      [.paymentTrying, .paymentFail], [.paymentTrying, .paymentSuccess]] ∧
    (σ₁.world.order o).sent =
      ((σ₁.world.messages o).getLast?.map MessageSent.ofMessage).getD .noneSent ∧
    ((σ₁.world.order o).sent.isTerminal = true →
      (σ₂.world.order o).sent = (σ₁.world.order o).sent) ∧
    ∀ h τ, h.Whole s → σ₁.happen? s h = some τ →
      τ.world.messages o = σ₁.world.messages o ∨
        ∃ m, τ.world.messages o = σ₁.world.messages o ++ [m] ∧
          (m = .paymentTrying →
            (σ₁.world.order o).payment = .trying ∧ (τ.world.order o).payment = .trying) := by
  have hw₁ : ∀ h ∈ before, h.Whole s := fun h hh => hwhole h (List.mem_append_left _ hh)
  have hw₂ : ∀ h ∈ after, h.Whole s := fun h hh => hwhole h (List.mem_append_right _ hh)
  have hstart : σ₀.Minds o := by
    rw [Minds, hsent, hnone]
    exact .nothing
  obtain ⟨ho₁, hk₁, hm₁⟩ := h₀.after_induct (P := Minds o)
    (fun h hh υ ω ho hk hω hm => (ho.posts hk (hw₁ h hh) hω o).minds hm) hknown hw₁ h₁ hstart
  obtain ⟨hlist, hlast⟩ := Told.listed hm₁
  refine ⟨hlist, hlast, fun ht => ?_, fun h τ hw hτ => (ho₁.posts hk₁ hw hτ o).in_time⟩
  refine (ho₁.after_induct (P := fun υ => (υ.world.order o).sent = (σ₁.world.order o).sent)
    (fun h hh υ ω ho hk hω hs => ?_) hk₁ hw₂ h₂ rfl).2.2
  rw [← hs] at ht ⊢
  exact (ho.posts hk (hw₂ h hh) hω o).terminal ht

/-- No orders yet, and a payment service that will fail once. -/
def failingOnce : System :=
  { world := { clock := 5, faults := { payment := [.databaseUnavailable] } } }

/-- Nothing is attempted again. -/
def oneTry : Setup := { config := { retry := { retries := 0 } } }

theorem failingOnce_orderly (s : Setup) : failingOnce.Orderly s :=
  ⟨by decide, .of_forall (by decide), by simp [World.Whole, failingOnce], by simp [failingOnce]⟩

/-- An order comes in, its payment is put off, and the customer hears that it is pending; the next
attempt is paid. -/
def paidLater : List Happening :=
  .order 0 ⟨"Jim", "ABCD"⟩ "book" 10 ::
    [.act 0, .act 0, .act 0, .start 0, .act 1, .act 1, .start 0, .act 2, .ask (.pay 0 0), .act 3,
      .start 0, .act 4, .act 4, .start 0, .act 5].map .move

/-- Somebody asks for the customer to be told that the payment failed. -/
def askedForFailure : List Happening :=
  [.ask (.tell 0 0 .paymentFail), .act 6, .start 0, .act 7].map .move

theorem paidLater_in_sequence :
    ∃ σ₁ σ₂, after? oneTry paidLater failingOnce = some σ₁ ∧
      after? oneTry askedForFailure σ₁ = some σ₂ ∧
      σ₁.world.messages 0 = [.paymentTrying, .paymentSuccess] ∧
      (σ₁.world.order 0).sent = .paymentSuccessful ∧
      (σ₂.world.order 0).sent = .paymentSuccessful := by
  refine ⟨_, _, rfl, rfl, rfl, ?_⟩
  have h := messages_in_sequence oneTry 0 failingOnce _ _ paidLater askedForFailure
    (failingOnce_orderly oneTry) (known_of_nothing rfl rfl rfl) rfl rfl
    (by simp [paidLater, askedForFailure, Happening.Whole, Move.Whole]) rfl rfl
  exact ⟨h.2.1, h.2.2.1 rfl⟩
end System
end Fulfilment
