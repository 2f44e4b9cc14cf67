import Fulfilment.Proofs.Notice.Agreement
import Fulfilment.Proofs.Notice.Bill
import Fulfilment.Proofs.Payment.Limbo

/-! Whether the customer of an order that was placed has been shown a notice when all is at rest,
if neither shipping nor payment panics.

* `System.firstBill?`: the world in which the payment is taken up for the first time.
* `System.Reaches`: one opening is under way until the order is refused, its payment is taken up too
  late, or its customer is shown how the payment went.
* `System.notice_absent_iff`: so there is no notice exactly if the payment was first taken up when
  its time was over.
* `System.late_order_unnoticed`: so it is when shipping takes that long. -/
namespace Fulfilment

set_option autoImplicit false

/-! ## Happenings -/

theorem Acts.turns {s : Setup} {σ τ : System} {i : Nat} {a : Action}
    {rest todo more l : List Action} {v : World} (h : Acts s σ τ i a rest v todo more)
    (hl : Yields σ.world v todo l) : σ.Turns τ a l := by
  intro p hp
  have hload := h.load hp.concern
  have hyields := hl p hp
  omega

namespace System

/-- The action that is performed, if a thread takes a step. -/
def enacted? (σ : System) : Happening → Option Action
  | .move m => σ.performed? m
  | .order _ _ _ _ => none

section Happenings
variable {s : Setup} {σ τ : System} {h : Happening} {o : OrderRef} {n : Nat}

theorem mem_of_enacted {a : Action} (ha : σ.enacted? h = some a) : a ∈ σ.outstanding := by
  cases h with
  | move m =>
    cases m with
    | act i =>
      obtain ⟨agenda, hi, hhead⟩ := Option.bind_eq_some_iff.mp ha
      exact mem_outstanding.mpr (.inl (List.mem_flatten.mpr
        ⟨agenda, List.mem_of_getElem? hi, List.mem_of_head? hhead⟩))
    | _ => cases ha
  | order => cases ha

theorem enacted_of_acts {i : Nat} {a : Action} {rest todo more : List Action} {v : World}
    (h : Acts s σ τ i a rest v todo more) : σ.enacted? (.move (.act i)) = some a := by
  simp only [enacted?, performed?, h.thread, Option.bind_some, List.head?_cons]

/-- What is no opening of the order leaves it, and its openings, as they are. -/
theorem Opening.bystander (hop : σ.Opening o n) {i : Nat} {a : Action}
    {rest todo more : List Action} {v : World} (hacts : Acts s σ τ i a rest v todo more)
    (ha : a.opens o = false) :
    τ.world.order o = σ.world.order o ∧ ∀ p, Openings o p → τ.load p = σ.load p := by
  have hnone : ∀ st, a.errand? ≠ some ⟨o, st⟩ := fun st hst => by
    have hopens := hop.actions a (outstanding_of_acts hacts) st hst
    rw [ha] at hopens
    cases hopens
  refine ⟨?_, fun p hp => ?_⟩
  · rw [World.order_of_books hacts.books]
    obtain hv | ⟨st, hst, -⟩ := hacts.effect.keeps o
    · exact hv
    · exact absurd hst (hnone st)
  · have hpa : p a = false := not_of_opens (hp.opens a) ha
    have hload := hacts.load hp.concern
    have hle := hop.load_acted hp.toEarly (fun _ _ h => opens_retry (hp.opens _ h)) hacts.effect hload
    have hge : σ.world.waiting p ≤ v.waiting p := by
      obtain hv | ⟨j, -, hv⟩ := pending_of_effect hacts.effect
      · exact Nat.le_of_eq (World.waiting_of_pending hv p).symm
      · exact World.waiting_mono ⟨[j], hv.symm⟩ p
    simp only [hpa, Bool.false_eq_true, if_false] at hload
    omega

/-- A happening is an action, or it adds to the openings of an order just its placement. -/
theorem acts_or_enters (hσ : σ.Orderly s) (hq : h.PlacesOnly o) (hτ : σ.happen? s h = some τ)
    (hx : (σ.world.order o).Unopened) :
    (∃ i a rest v todo more, h = .move (.act i) ∧ Acts s σ τ i a rest v todo more) ∨
      (τ.world.order o).Unopened ∧ (σ.enacted? h).any (Action.bills o) = false ∧
        ∀ p, Openings o p → τ.load p = enters o σ h τ + σ.load p := by
  have kept {b : Books} (hb : τ.world.books = b) (ho : b.orders = σ.world.books.orders) :
      (τ.world.order o).Unopened := by
    have horders : τ.world.orders = σ.world.orders := (congrArg Books.orders hb).trans ho
    rw [World.order, horders]
    exact hx
  cases hσ.motion hτ with
  | acted i a rest v todo more ha => exact .inl ⟨i, a, rest, v, todo, more, rfl, ha⟩
  | rested i old more hi hold hw ht =>
    refine .inr ⟨by rwa [hw], ?_, fun p hp => ?_⟩
    · obtain ⟨rfl, -⟩ | ⟨count, rfl⟩ := hold <;> simp [enacted?, performed?, hi, Action.bills]
    · exact (load_of_rest hp.concern hi hold hw ht).trans (Nat.zero_add _).symm
  | served i k rest j hj hi hb ht =>
    refine .inr ⟨kept hb rfl, ?_, fun p hp => ?_⟩
    · simp [enacted?, performed?, hi, Action.bills]
    · exact (load_of_served hp.concern hj hi hb ht).trans (Nat.zero_add _).symm
  | started k j hj hb ht =>
    exact .inr ⟨kept hb rfl, rfl, fun p hp =>
      (load_of_started hp.concern hj hb ht).trans (Nat.zero_add _).symm⟩
  | asked q hlen hw ht =>
    refine .inr ⟨by rwa [hw], rfl, fun p hp => ?_⟩
    rw [load_of_new (by rw [hw]) ht, Nat.add_comm]
    by_cases hqo : q.order = o
    · obtain ⟨c, rfl⟩ := hq q rfl hqo
      have hone : enters o σ (.move (.ask (.place c o))) τ = 1 := if_pos rfl
      rw [hone]
      exact congrArg (· + σ.load p) (if_pos (hp.place c))
    · have hnone : enters o σ (.move (.ask q)) τ = 0 := if_neg hqo
      rw [hnone, hp.request hqo]
      rfl
  | scripted m hm hb ht =>
    have hw : τ.world.pending = σ.world.pending := World.pending_of_books hb
    refine .inr ⟨kept hb rfl, ?_, fun p hp => ?_⟩
    · cases m <;> first | rfl | cases hm
    · have hnone : enters o σ (.move m) τ = 0 := by cases m <;> first | rfl | cases hm
      rw [hnone, Nat.zero_add, load, load, ht, World.waiting_of_pending hw]
  | ordered c customer item price x hfresh hb ht =>
    refine .inr ⟨order_of_new hτ hx, rfl, fun p hp => ?_⟩
    have hw : τ.world.pending = σ.world.pending := congrArg Books.pending hb
    rw [load_of_new hw ht, Nat.add_comm, enters]
    by_cases ho : σ.world.orders.length = o
    · rw [if_pos ho, ho, if_pos (hp.place c)]
    · have hno : (Action.place c σ.world.orders.length).opens o = false := decide_eq_false ho
      rw [if_neg ho, not_of_opens (hp.opens _) hno]
      rfl

end Happenings

/-! ## How far the order has come -/

/-- How far an order has come that is still to be placed so many times, and whose payment was first
taken up in this world, if it was. -/
inductive Reaches (s : Setup) (o : OrderRef) (n : Nat) (σ : System) : Option World → Prop
  | approaching (hx : (σ.world.order o).Unopened) (hn : n + σ.load (Action.unbilled o) = 1) :
      Reaches s o n σ none
  | refused (i : SiteNotice) (hi : i.isRefusal = true) (hn : (σ.world.order o).notice = some i) :
      Reaches s o n σ none
  | billed (w : World) (hw : w.budgetExceeded o s.config.limits.payment = false)
      (hx : (σ.world.order o).Unopened) (hn : n = 0) (hu : σ.load (Action.unbilled o) = 0)
      (hl : σ.load (Action.opens o) = 1) : Reaches s o n σ (some w)
  | shown (w : World) (hw : w.budgetExceeded o s.config.limits.payment = false) (i : SiteNotice)
      (hn : (σ.world.order o).notice = some i) : Reaches s o n σ (some w)
  | abandoned (w : World) (hw : w.budgetExceeded o s.config.limits.payment = true)
      (hn : (σ.world.order o).notice = none) (hp : (σ.world.order o).payment = .notDone) :
      Reaches s o n σ (some w)

/-- What happenings keep throughout. -/
structure Attended (s : Setup) (o : OrderRef) (n : Nat) (σ : System) : Prop where
  orderly : σ.Orderly s
  known : σ.Known
  isOpen : σ.world.Open
  sound : σ.world.Sound
  phase : σ.Phase o n

/-- The replies that are scripted leave calls whole and are no panics of shipping or payment, and
the order is only asked to be placed. -/
structure Fair (s : Setup) (o : OrderRef) (h : Happening) : Prop where
  whole : h.Whole s
  places : h.PlacesOnly o
  sound : h.Sound

section Steps
variable {s : Setup} {σ τ : System} {h : Happening} {o : OrderRef} {n : Nat} {w : World}

theorem Attended.happen (hσ : σ.Attended s o (enters o σ h τ + n)) (hf : Fair s o h)
    (hτ : σ.happen? s h = some τ) : τ.Attended s o n := by
  refine ⟨hσ.orderly.happen hf.whole hτ, hσ.known.happen hσ.orderly hf.whole hτ,
    hσ.orderly.open_happen hτ hσ.isOpen, fun k r hr hk => ?_,
    (hσ.phase.happen hσ.orderly hσ.known hf.whole hf.places hτ).1⟩
  obtain hr | rfl := hσ.orderly.replies_happen hτ hr
  · exact hσ.sound k r hr hk
  · exact hf.sound hk

theorem Phase.opened (hph : σ.Phase o n) (hx : (σ.world.order o).Unopened) : σ.Opening o n := by
  cases hph with
  | opening hop => exact hop
  | refused i _ hn | shown i hn _ =>
    rw [hx.notice] at hn
    cases hn
  | expired _ hp =>
    rw [hx.payment] at hp
    cases hp

/-- A placement goes on, or the order is refused. -/
theorem Attended.ship (hσ : σ.Attended s o n) {i : Nat} {a : Action} {rest todo more : List Action}
    {v : World} (hacts : Acts s σ τ i a rest v todo more) (hships : a.ships o = true)
    (hx : (σ.world.order o).Unopened) (hn : n + σ.load (Action.unbilled o) = 1) :
    τ.Reaches s o n none := by
  have ho := hσ.known.exists_opened (outstanding_of_acts hacts) (opens_of_ships hships)
  have horder : τ.world.order o = v.order o := World.order_of_books hacts.books o
  have hunbilled : a.unbilled o = true := by rw [Action.unbilled, hships, Bool.true_or]
  obtain ⟨b, hb, hy, hv⟩ | ⟨i, hi, hv⟩ := hacts.effect.ships_on hships ho hx.notice hσ.sound
  · have hturn := (hacts.turns hy).spends (openings_unbilled o).matter hunbilled
      (List.forall_mem_singleton.mpr hb)
    refine .approaching (by rw [horder, hv]; exact hx) ?_
    rw [← hn, Nat.succ.inj hturn]
  · exact .refused i hi (by rw [horder, hv])

/-- Where the payment is taken up, its time decides. -/
theorem Attended.bill (hσ : σ.Attended s o n) {i : Nat} {c : CoordinatorRef}
    {rest todo more : List Action} {v : World} (hacts : Acts s σ τ i (.pay c o) rest v todo more)
    (hx : (σ.world.order o).Unopened) (hn : n + σ.load (Action.unbilled o) = 1) :
    τ.Reaches s o n (some σ.world) := by
  have ha := outstanding_of_acts hacts
  have hbills : (Action.pay c o).bills o = true := decide_eq_true rfl
  have hopens := opens_of_bills hbills
  have ho := hσ.known.exists_opened ha hopens
  have horder : τ.world.order o = v.order o := World.order_of_books hacts.books o
  cases ht : σ.world.budgetExceeded o s.config.limits.payment with
  | true =>
    obtain ⟨rfl, rfl⟩ := hacts.outcome.unique
      (.inl (perform_bills_late c hσ.orderly.unlocked hx.payment ht))
    have hpaid : τ.world.order o = { σ.world.order o with payment := .notDone } :=
      horder.trans (σ.world.books.order_pay .notDone ho)
    refine .abandoned _ ht ?_ ?_
    · rw [hpaid]
      exact hx.notice
    · rw [hpaid]
  | false =>
    obtain ⟨hy, hv⟩ := hacts.effect.bills_on hx.payment hσ.isOpen ht
    have honce := (hσ.phase.opened hx).once
    have hpos : 0 < σ.load (Action.opens o) := load_pos_of_mem ha hopens
    have hattempt : (Action.attempt ⟨c, .payment o⟩ 0).opens o = true := decide_eq_true rfl
    have hunbilled := hacts.turns hy _ (openings_unbilled o).matter
    have hspent := (hacts.turns hy).spends (openings_opens o).matter hopens
      (List.forall_mem_singleton.mpr hattempt)
    -- The attempt that is spawned is an opening, but none before the payment.
    have hup : (Action.pay c o).unbilled o = true := by rw [Action.unbilled, hbills, Bool.or_true]
    have hdown : (Action.attempt ⟨c, .payment o⟩ 0).unbilled o = false := rfl
    rw [if_pos hup, List.countP_singleton, hdown] at hunbilled
    simp only [Bool.false_eq_true, if_false, Nat.add_zero] at hunbilled
    refine .billed _ ht (by rw [horder, hv]; exact hx) (by omega) (by omega) ?_
    rw [Nat.succ.inj hspent]
    omega

/-- Until the payment is taken up. -/
theorem Attended.approach (hσ : σ.Attended s o (enters o σ h τ + n)) (hf : Fair s o h)
    (hτ : σ.happen? s h = some τ) (hx : (σ.world.order o).Unopened)
    (hn : enters o σ h τ + n + σ.load (Action.unbilled o) = 1) :
    τ.Reaches s o n (if (σ.enacted? h).any (Action.bills o) = true then some σ.world else none) := by
  obtain ⟨i, a, rest, v, todo, more, rfl, hacts⟩ | ⟨hτx, hany, hload⟩ :=
    acts_or_enters hσ.orderly hf.places hτ hx
  · have hzero : enters o σ (.move (.act i)) τ + n = n := Nat.zero_add n
    rw [hzero] at hn hσ
    have hop := hσ.phase.opened hx
    rw [enacted_of_acts hacts, Option.any_some]
    by_cases hopens : a.opens o = true
    · by_cases hu : a.unbilled o = true
      · obtain hships | hbills := Bool.or_eq_true_iff.mp hu
        · have hbills : ¬ a.bills o = true := by
            cases a <;> first | exact Bool.false_ne_true | cases hships
          rw [if_neg hbills]
          exact hσ.ship hacts hships hx hn
        · rw [if_pos hbills]
          obtain ⟨c, rfl⟩ := pay_of_bills hbills
          exact hσ.bill hacts hx hn
      · -- An attempt to be paid would be a second opening.
        have hlt : σ.load (Action.unbilled o) < σ.load (Action.opens o) :=
          load_lt_load (outstanding_of_acts hacts) (by simpa using hu) hopens
            fun _ => opens_of_unbilled
        have honce := hop.once
        omega
    · have hbills : ¬ a.bills o = true := fun hbills => hopens (opens_of_bills hbills)
      obtain ⟨hv, hsame⟩ := hop.bystander hacts (by simpa using hopens)
      rw [if_neg hbills]
      exact .approaching (by rwa [hv]) (by rw [hsame _ (openings_unbilled o), hn])
  · rw [hany]
    exact .approaching hτx (by rw [hload _ (openings_unbilled o)]; omega)

/-- While attempts to be paid are made. -/
theorem Attended.charge (hσ : σ.Attended s o (enters o σ h τ + n)) (hf : Fair s o h)
    (hτ : σ.happen? s h = some τ) (hx : (σ.world.order o).Unopened) {w : World}
    (hw : w.budgetExceeded o s.config.limits.payment = false)
    (hnone : enters o σ h τ + n = 0) (hu : σ.load (Action.unbilled o) = 0)
    (hl : σ.load (Action.opens o) = 1) : τ.Reaches s o n (some w) := by
  obtain ⟨henters, hn⟩ := Nat.add_eq_zero_iff.mp hnone
  obtain ⟨i, a, rest, v, todo, more, rfl, hacts⟩ | ⟨hτx, -, hload⟩ :=
    acts_or_enters hσ.orderly hf.places hτ hx
  · have ha := outstanding_of_acts hacts
    have horder : τ.world.order o = v.order o := World.order_of_books hacts.books o
    by_cases hopens : a.opens o = true
    · have hbilled : a.unbilled o = false := by
        by_contra hunbilled
        have hpos := load_pos_of_mem ha (by simpa using hunbilled)
        omega
      obtain ⟨c, k, rfl⟩ := attempts_payment hopens hbilled
      obtain ⟨hy, hv⟩ | ⟨i, hi⟩ :=
        hacts.effect.pays_on (hσ.known.exists_opened ha hopens) hx hσ.sound
      · have hsame (p : Action → Bool) (hp : Matter p) : τ.load p = σ.load p := by
          have hturn := hacts.turns hy p hp
          rw [List.countP_singleton] at hturn
          omega
        exact .billed w hw (by rw [horder, hv]; exact hx) hn
          (by rw [hsame _ (openings_unbilled o).matter, hu])
          (by rw [hsame _ (openings_opens o).matter, hl])
      · exact .shown w hw i (by rw [horder, hi])
    · obtain ⟨hv, hsame⟩ := (hσ.phase.opened hx).bystander hacts (by simpa using hopens)
      exact .billed w hw (by rwa [hv]) hn (by rw [hsame _ (openings_unbilled o), hu])
        (by rw [hsame _ (openings_opens o), hl])
  · exact .billed w hw hτx hn (by rw [hload _ (openings_unbilled o), henters, hu])
      (by rw [hload _ (openings_opens o), henters, hl])

/-- A refused order is not paid for, and its customer was shown why. -/
theorem Attended.refusal (hσ : σ.Attended s o (enters o σ h τ + n)) (hτ : σ.happen? s h = some τ)
    {i : SiteNotice} (hi : i.isRefusal = true) (hn : (σ.world.order o).notice = some i) :
    ¬ (σ.enacted? h).any (Action.bills o) = true ∧ τ.Reaches s o n none := by
  have hp : Passage s h σ τ := hσ.orderly.passage hτ
  refine ⟨fun hbills => ?_, .refused i hi (keeps_notice hp hn)⟩
  have hpays : σ.Runs ⟨o, .payment⟩ := by
    cases ha : σ.enacted? h with
    | none =>
      rw [ha] at hbills
      cases hbills
    | some a =>
      rw [ha, Option.any_some] at hbills
      obtain ⟨c, rfl⟩ := pay_of_bills hbills
      exact .inl ⟨_, mem_of_enacted ha, rfl⟩
  cases hσ.phase with
  | opening hop =>
    rw [hop.order.notice] at hn
    cases hn
  | refused _ _ _ _ _ _ _ runs => cases runs _ hpays
  | expired hnone =>
    rw [hnone] at hn
    cases hn
  | shown i' hn' hs =>
    rw [hn'] at hn
    cases hn
    rw [hs.not_refusal] at hi
    cases hi

/-- Once the payment was taken up, it stays so, and so does what came of it. -/
theorem Reaches.happen (h₀ : σ.Reaches s o (enters o σ h τ + n) (some w))
    (hσ : σ.Attended s o (enters o σ h τ + n)) (hf : Fair s o h) (hτ : σ.happen? s h = some τ) :
    τ.Reaches s o n (some w) := by
  have hp : Passage s h σ τ := hσ.orderly.passage hτ
  cases h₀ with
  | billed _ hw hx hn hu hl => exact hσ.charge hf hτ hx hw hn hu hl
  | shown _ hw i hn => exact .shown w hw i (keeps_notice hp hn)
  | abandoned _ hw hn hpay =>
    have hsettled := hσ.orderly.settled hf.whole hτ (o := o) (by rw [hpay]; decide)
    refine .abandoned w hw ?_ (hsettled.trans hpay)
    cases hσ.phase with
    | opening hop =>
      rw [hop.order.payment] at hpay
      cases hpay
    | refused i _ hsome | shown i hsome _ =>
      rw [hsome] at hn
      cases hn
    | expired _ _ once runs =>
      have hzero := Nat.add_eq_zero_iff.mp once
      exact (Phase.expired_passage hp hzero.1 hn hpay hzero.2 runs).2.trans hn

end Steps

/-! ## Histories -/

/-- The world in which the payment of the order is taken up for the first time. -/
def firstBill? (s : Setup) (o : OrderRef) : List Happening → System → Option World
  | [], _ => none
  | h :: happenings, σ =>
    if (σ.enacted? h).any (Action.bills o) then some σ.world
    else (σ.happen? s h).bind (firstBill? s o happenings)

section Histories
variable {s : Setup} {o : OrderRef} {σ τ : System} {happenings : List Happening}

theorem Reaches.after {w : World} (hσ : σ.Attended s o (total s (enters o) happenings σ))
    (hr : σ.Reaches s o (total s (enters o) happenings σ) (some w))
    (hf : ∀ h ∈ happenings, Fair s o h) (hτ : after? s happenings σ = some τ) :
    τ.Reaches s o 0 (some w) := by
  have hboth : τ.Attended s o 0 ∧ τ.Reaches s o 0 (some w) := by
    refine after?_total (P := fun υ n => υ.Attended s o n ∧ υ.Reaches s o n (some w)) []
      (fun h hh υ ω n hω hυ => ?_) hτ (by rw [List.append_nil]; exact ⟨hσ, hr⟩)
    exact ⟨hυ.1.happen (hf h hh) hω, hυ.2.happen hυ.1 (hf h hh) hω⟩
  exact hboth.2

theorem Attended.after (hσ : σ.Attended s o (total s (enters o) happenings σ))
    (hr : σ.Reaches s o (total s (enters o) happenings σ) none)
    (hf : ∀ h ∈ happenings, Fair s o h) (hτ : after? s happenings σ = some τ) :
    τ.Reaches s o 0 (firstBill? s o happenings σ) := by
  induction happenings generalizing σ with
  | nil =>
    cases hτ
    exact hr
  | cons h happenings ih =>
    simp only [after?, Option.bind_eq_some_iff] at hτ
    obtain ⟨υ, hυ, hτ⟩ := hτ
    rw [total_cons happenings hυ] at hσ hr
    have hfirst := hf h (List.mem_cons_self ..)
    have hrest : ∀ k ∈ happenings, Fair s o k := fun k hk => hf k (List.mem_cons_of_mem _ hk)
    have hwatched := hσ.happen hfirst hυ
    have hstep : υ.Reaches s o (total s (enters o) happenings υ)
        (if (σ.enacted? h).any (Action.bills o) = true then some σ.world else none) := by
      cases hr with
      | approaching hx hn => exact hσ.approach hfirst hυ hx hn
      | refused i hi hn =>
        obtain ⟨hbills, hrefused⟩ := hσ.refusal hυ hi hn
        rw [if_neg hbills]
        exact hrefused
    simp only [firstBill?]
    split
    · next hbills =>
      rw [if_pos hbills] at hstep
      exact hstep.after hwatched hrest hτ
    · next hbills =>
      rw [if_neg hbills] at hstep
      rw [hυ, Option.bind_some]
      exact ih hwatched hstep hrest hτ

end Histories

/-- At rest, an order that was placed once, of which nothing else was asked, and over which neither
shipping nor payment panicked, has no notice exactly if the time for its payment was over when the
payment was first taken up. -/
theorem notice_absent_iff (s : Setup) (o : OrderRef) (σ τ : System) (happenings : List Happening)
    (hσ : σ.Orderly s) (hk : σ.Known) (hopen : σ.world.Open) (hsound : σ.world.Sound)
    (hidle : ∀ st, ¬ σ.Runs ⟨o, st⟩) (hnew : (σ.world.order o).Unopened)
    (hunshipped : σ.world.shipped o = false) (hwhole : ∀ h ∈ happenings, h.Whole s)
    (hplaces : ∀ h ∈ happenings, h.PlacesOnly o) (hcalm : ∀ h ∈ happenings, h.Sound)
    (honce : total s (enters o) happenings σ = 1) (hτ : after? s happenings σ = some τ)
    (hrest : τ.Idle) :
    (τ.world.order o).notice = none ↔ ∃ w, firstBill? s o happenings σ = some w ∧
      w.budgetExceeded o s.config.limits.payment = true := by
  have hop : σ.Opening o (total s (enters o) happenings σ) :=
    opening_of_nothing hidle hnew hunshipped (Nat.le_of_eq honce)
  have hnone : σ.load (Action.unbilled o) = 0 := by
    have hopening := hop.once
    have hle := load_mono (σ := σ) fun a => opens_of_unbilled (o := o) (a := a)
    omega
  have hreaches := Attended.after ⟨hσ, hk, hopen, hsound, .opening hop⟩
    (.approaching hnew (by rw [honce, hnone]))
    (fun h hh => ⟨hwhole h hh, hplaces h hh, hcalm h hh⟩) hτ
  generalize firstBill? s o happenings σ = bill at hreaches
  cases hreaches with
  | approaching _ hn =>
    rw [hrest.load] at hn
    cases hn
  | billed _ _ _ _ _ hl =>
    rw [hrest.load] at hl
    cases hl
  | refused i _ hn => simp [hn]
  | shown w hw i hn => simp [hn, hw]
  | abandoned w hw hn _ => simp [hn, hw]

/-- No orders yet, and shipping will be out of order once. -/
def slowShipping : System :=
  { world := { clock := 5, faults := { shipping := [.databaseUnavailable] } } }

theorem slowShipping_orderly (s : Setup) : slowShipping.Orderly s :=
  ⟨by decide, .of_forall (by decide), by simp [World.Whole, slowShipping], by simp [slowShipping]⟩

/-- An order is shipped at the second attempt. -/
def shippedLater : List Happening :=
  .order 0 ⟨"Jim", "ABCD"⟩ "book" 10 :: [.act 0, .act 0, .act 0, .act 0].map .move

/-- It is paid, and the customer is told. -/
def thenPaid : List Happening :=
  [.act 0, .act 0, .start 0, .act 1, .act 1, .act 1, .start 0, .act 2, .act 2].map .move

theorem order_in_time_noticed :
    ∃ τ, after? oneRetry (shippedLater ++ thenPaid) slowShipping = some τ ∧ τ.Idle ∧
      (τ.world.order 0).notice ≠ none := by
  refine ⟨_, rfl, ⟨rfl, by decide⟩, ?_⟩
  have h := notice_absent_iff oneRetry 0 slowShipping _ (shippedLater ++ thenPaid)
    (slowShipping_orderly oneRetry) (known_of_nothing rfl rfl rfl) ⟨rfl, rfl⟩
    (by simp [World.Sound, slowShipping]) (fun _ => runs_nothing rfl rfl _) ⟨rfl, rfl, rfl⟩ rfl
    (by simp [shippedLater, thenPaid, Happening.Whole, Move.Whole])
    (by simp [shippedLater, thenPaid, Happening.PlacesOnly])
    (by simp [shippedLater, thenPaid, Happening.Sound]) (by decide) rfl ⟨rfl, by decide⟩
  intro hn
  obtain ⟨w, hw, hlate⟩ := h.mp hn
  have hbill : (firstBill? oneRetry 0 (shippedLater ++ thenPaid) slowShipping).any
      (·.budgetExceeded 0 oneRetry.config.limits.payment) = false := rfl
  rw [hw, Option.any_some, hlate] at hbill
  cases hbill

/-- Its payment fails, and the customer is told. -/
def thenFailed : List Happening :=
  [.act 0, .act 0, .act 0, .start 0, .act 1, .act 1].map .move

/-- The time for the payment passes while the shipping of an order is retried: the payment fails,
and no notice is shown. -/
theorem late_order_unnoticed :
    ∃ τ, after? oneSecond (shippedLater ++ thenFailed) slowShipping = some τ ∧
      τ.Idle ∧ τ.world.shipped 0 = true ∧ (τ.world.order 0).payment = .notDone ∧
      (τ.world.order 0).sent = .paymentFail ∧ (τ.world.order 0).notice = none :=
  ⟨_, rfl, ⟨rfl, by decide⟩, rfl, rfl, rfl, rfl⟩

end System
end Fulfilment
