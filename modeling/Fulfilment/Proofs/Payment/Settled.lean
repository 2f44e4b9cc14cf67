import Fulfilment.Proofs.Payment.Traced
import Fulfilment.Proofs.Queue.Accounts

/-! Payment calls for an order whose payment is settled have no effect.

* `Order.Noticed`: an order that was paid for has a notice, in every history of new orders.
* `System.settled_payment_reruns`: all that goes back to such a call is harmless. -/
namespace Fulfilment

set_option autoImplicit false

/-! ## Settled orders -/

/-- An order whose payment was taken has a notice. -/
def Order.Noticed (x : Order) : Prop := x.payment = .done → x.notice ≠ none

theorem Books.noticed_change {b : Books} {o : OrderRef} (p : OrderRef) {f : Order → Order}
    (h : (b.order o).Noticed) (hf : ∀ x : Order, x.Noticed → (f x).Noticed) :
    ((b.change p f).order o).Noticed := by
  rw [Books.order_change]
  split
  · next hp =>
    rw [← hp.1]
    exact hf _ h
  · exact h

theorem Books.noticed_note {b : Books} {o : OrderRef} (p : OrderRef) (n : SiteNotice)
    (h : (b.order o).Noticed) : ((b.note p n).order o).Noticed := by
  refine Books.noticed_change p h fun x hx => ?_
  cases hn : x.notice with
  | none => simp [Order.Noticed, Order.recordNotice, hn]
  | some i => rwa [Order.recordNotice, hn]

theorem Books.noticed_notDone {b : Books} {o : OrderRef} (p : OrderRef)
    (h : (b.order o).Noticed) : ((b.pay p .notDone).order o).Noticed :=
  Books.noticed_change p h fun _ _ => nofun

/-- A payment that is taken is told at once. -/
theorem Books.noticed_paid {b : Books} {o : OrderRef} (p : OrderRef) (n : SiteNotice)
    (h : (b.order o).Noticed) : (((b.pay p .done).note p n).order o).Noticed := by
  by_cases hp : o = p ∧ p < b.orders.length
  · obtain ⟨rfl, hlt⟩ := hp
    have hlength : o < (b.pay o .done).orders.length := by
      rw [Books.pay, Books.length_change]
      exact hlt
    obtain ⟨i, hi⟩ := (b.pay o .done).notice_note n hlength
    intro _
    rw [hi]
    exact Option.some_ne_none i
  · have hsame : ((b.pay p .done).order o) = b.order o := by
      rw [Books.pay, Books.order_change, if_neg hp]
    refine Books.noticed_note p n ?_
    rwa [hsame]

section Noticed
variable {s : Setup} {o : OrderRef} {w v : World} {a : Action} {todo : List Action}

theorem World.noticed_of_books {b : Books} (hv : v.books = b) (hb : (b.order o).Noticed) :
    (v.order o).Noticed := by
  have horder : v.order o = b.order o := congrArg (fun b : Books => b.order o) hv
  rwa [horder]

theorem Effect.noticed (he : Effect s w a v todo) (h : (w.order o).Noticed) :
    (v.order o).Noticed := by
  have h : (w.books.order o).Noticed := h
  cases he with
  | idle _ _ _ _ hv => exact World.noticed_of_books hv h
  | expired c p _ _ _ hv => exact World.noticed_of_books hv (Books.noticed_notDone p h)
  | succeeded c work n _ _ hs =>
    cases hs with
    | paid p r _ _ hv =>
      exact World.noticed_of_books hv (Books.noticed_paid (b := w.books.deed _) p _ h)
    | told p m r _ _ hv =>
      exact World.noticed_of_books hv
        (Books.noticed_change (b := w.books.deed _) p h fun _ hx => hx)
    | handed p r _ _ hv =>
      exact World.noticed_of_books hv
        (Books.noticed_change (b := w.books.deed _) p h fun _ hx => hx)
    | _ => next hv => exact World.noticed_of_books hv h
  | failed c work n f _ _ _ hs =>
    cases hs with
    | turnedAway p f i _ _ hv => exact World.noticed_of_books hv (Books.noticed_note p i h)
    | notPlaced p f _ hv => exact World.noticed_of_books hv (Books.noticed_note p _ h)
    | declined p _ _ hv =>
      exact World.noticed_of_books hv (Books.noticed_notDone p (Books.noticed_note p _ h))
    | declinedLate p _ _ hv => exact World.noticed_of_books hv (Books.noticed_note p _ h)
    | unpaid p f _ _ _ hv => exact World.noticed_of_books hv (Books.noticed_note p _ h)
    | notQueued t f _ _ _ hv => exact World.noticed_of_books hv (Books.noticed_notDone t.order h)
    | _ => next hv => exact World.noticed_of_books hv h
  | _ => next hv => exact World.noticed_of_books hv h

end Noticed

theorem World.exists_of_settled {w : World} {o : OrderRef} (h : (w.order o).payment ≠ .trying) :
    o < w.orders.length := by
  by_contra hbeyond
  rw [w.order_beyond (Nat.le_of_not_lt hbeyond)] at h
  exact h rfl

namespace System
variable {s : Setup} {o : OrderRef} {σ τ : System} {h : Happening}

theorem noticed_happen (hσ : σ.Orderly s) (hτ : σ.happen? s h = some τ)
    (hn : (σ.world.order o).Noticed) : (τ.world.order o).Noticed := by
  cases hσ.passage hτ with
  | acted a v todo _ he hb => exact World.noticed_of_books hb (he.noticed hn)
  | shifted hb => exact World.noticed_of_books hb hn
  | asked q _ _ hw => rwa [hw]
  | ordered c customer item price x _ hx hb =>
    have horder : τ.world.order o = (Rehearsal.addOrder x σ.world).order o :=
      congrArg (fun b : Books => b.order o) hb
    rw [horder, σ.world.order_addOrder x σ.world.ids σ.world.draws o]
    split
    · intro hdone
      rw [hx.1] at hdone
      cases hdone
    · exact hn

theorem noticed_after {happenings : List Happening} (hσ : σ.Orderly s)
    (hw : ∀ h ∈ happenings, h.Whole s) (hτ : after? s happenings σ = some τ)
    (hn : (σ.world.order o).Noticed) : τ.Orderly s ∧ (τ.world.order o).Noticed :=
  after?_induct (P := fun υ => υ.Orderly s ∧ (υ.world.order o).Noticed)
    (fun h hh _ _ hτ hP => ⟨hP.1.happen (hw h hh) hτ, noticed_happen hP.1 hτ hP.2⟩) hτ ⟨hσ, hn⟩

/-- A settled payment stays settled. -/
theorem settled_happen (hσ : σ.Orderly s) (hw : h.Whole s) (hτ : σ.happen? s h = some τ)
    (hset : σ.world.Settled o) : τ.world.Settled o := by
  have hlater := (hσ.later hw hτ (World.exists_of_settled hset.payment)).1
  exact ⟨hlater.payment hset.payment ▸ hset.payment, noticed_happen hσ hτ hset.noticed⟩

/-! ## Payment calls for a settled payment -/

/-- What holds of a traced history while the payment is settled. -/
structure Rerunning (s : Setup) (o : OrderRef) (μ : Traced) : Prop where
  orderly : μ.system.Orderly s
  settled : μ.system.world.Settled o
  sound : μ.Sound o

theorem Rerunning.happen {μ ν : Traced} (hμ : Rerunning s o μ) (hw : h.Whole s)
    (hν : μ.happen? s o h = some ν) : Rerunning s o ν := by
  have hsound := hμ.sound.happen hμ.orderly hμ.settled hν
  obtain ⟨υ, hυ, rfl⟩ := Option.map_eq_some_iff.mp hν
  refine ⟨?_, ?_, hsound⟩
  · rw [Traced.next_system]
    exact hμ.orderly.happen hw hυ
  · rw [Traced.next_system]
    exact settled_happen hμ.orderly hw hυ hμ.settled

theorem Rerunning.after {happenings : List Happening} {μ ν : Traced} (hμ : Rerunning s o μ)
    (hw : ∀ h ∈ happenings, h.Whole s) (hν : Traced.after? s o happenings μ = some ν) :
    Rerunning s o ν := by
  induction happenings generalizing μ with
  | nil =>
    cases hν
    exact hμ
  | cons h happenings ih =>
    obtain ⟨υ, hυ, hν⟩ := Option.bind_eq_some_iff.mp hν
    exact ih (hμ.happen (hw h List.mem_cons_self) hυ)
      (fun k hk => hw k (List.mem_cons_of_mem _ hk)) hν

/-- Once the payment of an order that began as a new one is settled, every payment call for it that
is taken up, and all that it leads to, is harmless, in any order with whatever else happens: it
leads to payment attempts and pending messages for this order only, and changes nothing but
scripts, clock, pending jobs and the first notice of a failed payment. -/
theorem settled_payment_reruns (s : Setup) (o : OrderRef) (σ₀ σ₁ τ : System)
    (before after : List Happening) (hσ₀ : σ₀.Orderly s)
    (hnew : (σ₀.world.order o).payment = .trying) (hbefore : ∀ h ∈ before, h.Whole s)
    (hσ₁ : after? s before σ₀ = some σ₁) (hsettled : (σ₁.world.order o).payment ≠ .trying)
    (hafter : ∀ h ∈ after, h.Whole s) (hτ : after? s after σ₁ = some τ) :
    ∃ μ, Traced.after? s o after (.unmarked σ₁) = some μ ∧ μ.system = τ ∧ μ.Sound o ∧
      ∀ h ν, μ.happen? s o h = some ν → μ.goesBack o h = true →
        τ.world.Harmless o ν.system.world := by
  have hnoticed : (σ₀.world.order o).Noticed := fun hdone => by
    rw [hnew] at hdone
    cases hdone
  obtain ⟨horderly, hnoticed⟩ := noticed_after hσ₀ hbefore hσ₁ hnoticed
  have hstart : Rerunning s o (.unmarked σ₁) :=
    ⟨horderly, ⟨hsettled, hnoticed⟩, Traced.unmarked_sound o σ₁⟩
  have hmap := Traced.map_system_after? s o after (.unmarked σ₁)
  have hunmarked : (Traced.unmarked σ₁).system = σ₁ := rfl
  rw [hunmarked, hτ] at hmap
  obtain ⟨μ, hμ, rfl⟩ := Option.map_eq_some_iff.mp hmap
  have hrerunning := hstart.after hafter hμ
  exact ⟨μ, hμ, rfl, hrerunning.sound, fun h ν hν hback =>
    hrerunning.sound.harmless hrerunning.orderly hrerunning.settled hν hback⟩

/-- An order is shipped and paid for; its message is still to come. -/
def paidFor : List Happening :=
  .order 0 ⟨"Jim", "ABCD"⟩ "book" 10 ::
    [.act 0, .act 0, .act 0, .act 0, .start 0, .act 1].map .move

/-- The payment is asked for once more, and the job for it starts before a failure. -/
def askedAgain : List Happening :=
  [.fault .payment .paymentDetailsError, .ask (.pay 0 0), .act 2, .start 0].map .move

theorem askedAgain_harmless :
    ∃ σ₁ τ μ ν, after? {} paidFor newShop = some σ₁ ∧ (σ₁.world.order 0).payment = .done ∧
      after? {} askedAgain σ₁ = some τ ∧
      Traced.after? {} 0 askedAgain (.unmarked σ₁) = some μ ∧
      μ.goesBack 0 (.move (.act 3)) = true ∧ μ.happen? {} 0 (.move (.act 3)) = some ν ∧
      ν.system.world.faults.payment = [] ∧ τ.world.Harmless 0 ν.system.world := by
  have hrun : ∃ σ₁ τ μ ν, after? {} paidFor newShop = some σ₁ ∧
      (σ₁.world.order 0).payment = .done ∧ after? {} askedAgain σ₁ = some τ ∧
      Traced.after? {} 0 askedAgain (.unmarked σ₁) = some μ ∧
      μ.goesBack 0 (.move (.act 3)) = true ∧ μ.happen? {} 0 (.move (.act 3)) = some ν ∧
      ν.system.world.faults.payment = [] :=
    ⟨_, _, _, _, rfl, rfl, rfl, rfl, rfl, rfl, rfl⟩
  obtain ⟨σ₁, τ, μ, ν, hσ₁, hdone, hτ, hμ, hback, hν, hfaults⟩ := hrun
  obtain ⟨μ', hμ', -, -, hstep⟩ := settled_payment_reruns {} 0 newShop σ₁ τ paidFor askedAgain
    (newShop_orderly {}) rfl (by simp [paidFor, Happening.Whole, Move.Whole]) hσ₁
    (by rw [hdone]; decide) (by simp [askedAgain, Happening.Whole, Move.Whole]) hτ
  rw [hμ] at hμ'
  cases hμ'
  exact ⟨σ₁, τ, μ, ν, hσ₁, hdone, hτ, hμ, hback, hν, hfaults, hstep _ ν hν hback⟩

end System
end Fulfilment
