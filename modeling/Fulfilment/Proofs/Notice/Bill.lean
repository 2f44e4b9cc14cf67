import Fulfilment.Proofs.Notice.Opening

/-! An order up to the moment its payment is taken up, and after it, one action at a time.

* `Action.bills`: the payment of an order is taken up.
* `Action.unbilled`: the placement of an order, up to that moment.
* `Openings`: a kind of openings of which there is never one more than was placed.
* `Effect.ships_on`, `Effect.bills_on`, `Effect.pays_on`: unless shipping or payment panics, an
  opening goes on, in time, until the customer is shown a notice. -/
namespace Fulfilment

set_option autoImplicit false

/-! ## Kinds of openings -/

/-- The payment of the order is taken up. -/
def Action.bills (o : OrderRef) : Action → Bool
  | .pay _ p => p = o
  | _ => false

/-- The order is being placed, and its payment was not taken up yet. -/
def Action.unbilled (o : OrderRef) (a : Action) : Bool := a.ships o || a.bills o

theorem pay_of_bills {o : OrderRef} {a : Action} (h : a.bills o = true) : ∃ c, a = .pay c o := by
  cases a with
  | pay c p =>
    obtain rfl : p = o := of_decide_eq_true h
    exact ⟨c, rfl⟩
  | _ => cases h

theorem opens_of_bills {o : OrderRef} {a : Action} (h : a.bills o = true) : a.opens o = true := by
  obtain ⟨c, rfl⟩ := pay_of_bills h
  exact h

theorem opens_of_unbilled {o : OrderRef} {a : Action} (h : a.unbilled o = true) :
    a.opens o = true := by
  obtain h | h := Bool.or_eq_true_iff.mp h
  · exact opens_of_ships h
  · exact opens_of_bills h

theorem not_of_opens {o : OrderRef} {a : Action} {p : Action → Bool}
    (h : p a = true → a.opens o = true) (ha : a.opens o = false) : p a = false := by
  by_contra hp
  have hopens := h (by simpa using hp)
  rw [ha] at hopens
  cases hopens

/-- What opens an order whose payment was taken up is an attempt to be paid. -/
theorem attempts_payment {o : OrderRef} {a : Action} (h : a.opens o = true)
    (hu : a.unbilled o = false) : ∃ c n, a = .attempt ⟨c, .payment o⟩ n := by
  obtain ⟨hs, hb⟩ := Bool.or_eq_false_iff.mp hu
  cases a with
  | place c p =>
    rw [ships_place] at hs
    rw [Action.opens, hs] at h
    cases h
  | pay c p =>
    rw [Action.bills] at hb
    rw [Action.opens, hb] at h
    cases h
  | attempt j n =>
    obtain ⟨c, work⟩ := j
    cases work with
    | shipping p =>
      have hs' : decide (p = o) = false := by simpa [Action.ships, Action.side?] using hs
      rw [Action.opens, hs'] at h
      cases h
    | payment p =>
      obtain rfl : p = o := of_decide_eq_true h
      exact ⟨c, n, rfl⟩
    | _ => cases h
  | _ => cases h

/-- A kind of openings of the order, its placement among them, that come from one another only. -/
structure Openings (o : OrderRef) (p : Action → Bool) : Prop extends Early p where
  matter : Matter p
  opens : ∀ a, p a = true → a.opens o = true
  place : ∀ c, p (.place c o) = true

theorem openings_opens (o : OrderRef) : Openings o (Action.opens o) where
  toEarly := early_opens o
  matter := by
    refine ⟨fun a ha => ?_, fun j n m => (early_opens o).concern.attempt j n m⟩
    cases a with
    | attempt j n =>
      obtain ⟨c, work⟩ := j
      cases work <;> first | rfl | cases ha
    | _ => first | rfl | cases ha
  opens _ h := h
  place _ := decide_eq_true rfl

theorem openings_unbilled (o : OrderRef) : Openings o (Action.unbilled o) := by
  have hmatter : Matter (Action.unbilled o) := by
    refine ⟨fun a ha => not_of_opens opens_of_unbilled ((openings_opens o).matter.quiet a ha),
      fun j n m => ?_⟩
    obtain ⟨c, work⟩ := j
    cases work <;> rfl
  refine ⟨⟨hmatter.concern, fun _ _ => rfl, fun c p n h => ?_, fun a j hj h => ?_, fun a ha =>
    not_of_opens opens_of_unbilled ((early_opens o).late a ha)⟩, hmatter,
    fun _ => opens_of_unbilled, fun c => ?_⟩
  · have hpo : p = o := by simpa [Action.unbilled, Action.ships, Action.side?, Action.bills] using h
    simp [Action.unbilled, Action.ships, Action.side?, hpo]
  · obtain ⟨c, work⟩ := j
    have hw := hj.work
    cases a <;> cases hw <;> cases h
  · rw [Action.unbilled, ships_place]
    simp

theorem Openings.request {o : OrderRef} {p : Action → Bool} (hp : Openings o p) {q : Request}
    (hq : q.order ≠ o) : p q.action = false := by
  by_contra h
  obtain ⟨st, hst⟩ := errand_of_opens (hp.opens q.action (by simpa using h))
  exact hq (Request.errand_order hst).symm

/-! ## Panics -/

/-- No reply that is scripted for shipping or payment is a panic. -/
def World.Sound (w : World) : Prop :=
  ∀ k r, (k, r) ∈ w.replies → k = .shipping ∨ k = .payment → r.panics = false

def Happening.Sound : Happening → Prop
  | .move (.reply k r) => k = .shipping ∨ k = .payment → r.panics = false
  | _ => True

/-! ## Actions -/

section Actions
variable {s : Setup} {o : OrderRef} {w v : World} {a : Action} {todo : List Action}

/-- A placement goes on, or the customer is shown why the order is not placed. -/
theorem Effect.ships_on (h : Effect s w a v todo) (ha : a.ships o = true)
    (ho : o < w.orders.length) (hn : (w.order o).notice = none) (hw : w.Sound) :
    (∃ b, b.unbilled o = true ∧ Yields w v todo [b] ∧ v.order o = w.order o) ∨
      ∃ i, i.isRefusal = true ∧ (v.order o).notice = some i := by
  have goes {b : Action} (hb : b.ships o = true) (hv : v.books = w.books)
      (hy : Yields w v todo [b]) :
      ∃ b, b.unbilled o = true ∧ Yields w v todo [b] ∧ v.order o = w.order o :=
    ⟨b, by rw [Action.unbilled, hb, Bool.true_or], hy, World.order_of_books hv o⟩
  have noted {i : SiteNotice} (hi : i.isRefusal = true) (hv : v.books = w.books.note o i) :
      ∃ i, i.isRefusal = true ∧ (v.order o).notice = some i := by
    have hnoted := congrArg Order.notice (w.books.order_note i ho hn)
    exact ⟨i, hi, (congrArg (fun b : Books => (b.order o).notice) hv).trans hnoted⟩
  cases a with
  | place c p =>
    obtain rfl : p = o := order_of_side ha
    cases h with
    | placing _ _ _ hv =>
      have hships : (Action.attempt ⟨c, .shipping p⟩ 0).ships p = true := decide_eq_true rfl
      refine .inl (goes hships hv (.of_pending (World.pending_of_books hv) fun q hq => ?_))
      simp only [List.countP_cons, List.countP_nil, hq.quiet (.placed p) rfl, Bool.false_eq_true,
        if_false, Nat.add_zero]
    | idle _ _ hidle => cases hidle
    | passed _ hpass => exact hpass.elim
    | waiting j _ hj | started j _ hj | lost j _ hj => cases hj.work
  | attempt j n =>
    obtain ⟨c, work⟩ := j
    cases work with
    | shipping p =>
      obtain rfl : p = o := order_of_side ha
      cases h with
      | again _ _ m d f _ hf hv =>
        exact .inl (goes ha hv (yields_retry (World.pending_of_books hv)))
      | crashed _ _ r _ hr hp hv =>
        rw [hw _ r hr (.inl rfl)] at hp
        cases hp
      | unneeded _ _ _ hneeded => cases hneeded
      | succeeded _ _ _ _ _ hs =>
        cases hs with
        | shipped _ r _ hv =>
          refine .inl ⟨.pay c p, ?_, yields_self (congrArg Books.pending hv :),
            congrArg (fun b : Books => b.order p) hv⟩
          simp [Action.unbilled, Action.bills]
      | failed _ _ _ f _ _ hf hs =>
        cases hs with
        | turnedAway _ _ i _ hi hv =>
          refine .inr (noted ?_ hv)
          obtain rfl | rfl := hi <;> rfl
        | notPlaced _ _ _ hv => exact .inr (noted rfl hv)
        | unseen _ _ _ hprobes => cases hprobes
      | idle _ _ hidle => cases hidle
      | passed _ hpass => exact hpass.elim
      | waiting j _ hj | started j _ hj | lost j _ hj => cases hj.work
    | _ => cases ha
  | _ => cases ha

/-- An attempt to be paid is made again, or the customer is shown how it went. -/
theorem Effect.pays_on {c : CoordinatorRef} {n : UInt32}
    (h : Effect s w (.attempt ⟨c, .payment o⟩ n) v todo)
    (ho : o < w.orders.length) (hx : (w.order o).Unopened) (hw : w.Sound) :
    Yields w v todo [.attempt ⟨c, .payment o⟩ n] ∧ v.order o = w.order o ∨
      ∃ i, (v.order o).notice = some i := by
  have noted (b : Books) (i : SiteNotice) (hb : b.orders.length = w.orders.length)
      (hv : (v.order o).notice = ((b.note o i).order o).notice) :
      ∃ i, (v.order o).notice = some i := by
    rw [hv]
    exact b.notice_note i (by rw [hb]; exact ho)
  cases h with
  | again _ _ m d f _ hf hv =>
    exact .inl ⟨yields_retry (World.pending_of_books hv), World.order_of_books hv o⟩
  | crashed _ _ r _ hr hp hv =>
    rw [hw _ r hr (.inr rfl)] at hp
    cases hp
  | unneeded _ _ _ hneeded =>
    have hsettled : decide ((w.order o).payment = .trying) = false := hneeded
    rw [hx.payment] at hsettled
    cases hsettled
  | succeeded _ _ _ _ _ hs =>
    cases hs with
    | paid _ r _ hp hv =>
      exact .inr (noted _ .paymentSuccessful (Books.length_change ..)
        (congrArg (fun b : Books => (b.order o).notice) hv))
  | failed _ _ _ f _ _ hf hs =>
    cases hs with
    | declined _ _ hp hv =>
      refine .inr (noted w.books .paymentDetailsInvalid rfl
        ((congrArg (fun b : Books => (b.order o).notice) hv).trans ?_))
      exact Books.order_change_congr Order.notice _ o o _ fun _ => rfl
    | declinedLate _ _ hp hv =>
      exact .inr (noted _ _ rfl (congrArg (fun b : Books => (b.order o).notice) hv))
    | unpaid _ _ _ hf hs hv =>
      exact .inr (noted _ _ rfl (congrArg (fun b : Books => (b.order o).notice) hv))
    | stillUnpaid _ _ _ hf hs hv => exact absurd hx.sent hs
    | unseen _ _ _ hprobes => cases hprobes
  | idle _ _ hidle => cases hidle
  | passed _ hpass => exact hpass.elim
  | waiting j _ hj | started j _ hj | lost j _ hj => cases hj.work

/-- A payment that is taken up in time is attempted. -/
theorem Effect.bills_on {c : CoordinatorRef} (h : Effect s w (.pay c o) v todo)
    (hp : (w.order o).payment = .trying) (hw : w.Open)
    (ht : w.budgetExceeded o s.config.limits.payment = false) :
    Yields w v todo [.attempt ⟨c, .payment o⟩ 0] ∧ v.order o = w.order o := by
  have spawned {j : Job} (hj : (Action.pay c o).Spawns j) : j = ⟨c, .payment o⟩ := by
    obtain ⟨owner, work⟩ := j
    cases hj.owner
    cases hj.work
    rfl
  cases h with
  | idle _ _ hidle => cases hidle
  | waiting j _ hj hv =>
    obtain rfl := spawned hj
    refine ⟨fun p hp => ?_, congrArg (fun b : Books => b.order o) hv⟩
    have hpending : v.pending = w.pending ++ [⟨c, .payment o⟩] := congrArg Books.pending hv
    rw [World.waiting, hpending, List.countP_append, List.countP_singleton, List.countP_singleton,
      List.countP_nil, Nat.zero_add]
    rfl
  | started j _ hj hv =>
    obtain rfl := spawned hj
    refine ⟨.of_pending (World.pending_of_books hv) fun p hp => ?_, World.order_of_books hv o⟩
    simp only [List.countP_cons, List.countP_nil, hp.quiet (.finish _) rfl, Bool.false_eq_true,
      if_false, Nat.add_zero]
  | lost _ _ _ hclosed => exact absurd hw hclosed
  | passed _ hpass => exact absurd hp hpass.1
  | expired _ _ _ _ hlate =>
    rw [ht] at hlate
    cases hlate

/-- One that is taken up too late fails. -/
theorem perform_bills_late (c : CoordinatorRef) (hw : w.Unlocked)
    (hp : (w.order o).payment = .trying)
    (ht : w.budgetExceeded o s.config.limits.payment = true) :
    perform s (.pay c o) w = .next
      ((w.setPayment o .notDone).remark (.paymentExpired ((w.setPayment o .notDone).idOf o)))
      [.tell c o .paymentFail] := by
  simp only [perform, pay, if_pos ht, failPayment_eq s o w hw, failPending_trying w hp]

end Actions

theorem Order.Shows.not_refusal {i : SiteNotice} {p : PaymentStatus} (h : Order.Shows i p) :
    i.isRefusal = false := by
  cases h <;> rfl

end Fulfilment
