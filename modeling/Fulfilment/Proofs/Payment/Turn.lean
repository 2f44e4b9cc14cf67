import Fulfilment.Proofs.Payment.Standing

/-! What each action that bears on an order's payment comes to: the placement, the attempts to be
paid, the deferral of the payment, and the escalation. -/
namespace Fulfilment

set_option autoImplicit false

/-! ## Kinds -/

inductive Side where
  | shipping
  | payment
  | employee
  deriving DecidableEq

/-- What an action that is not quiet has to do with which order, the queue apart. -/
def Action.side? : Action → Option (Side × OrderRef)
  | .place _ o => some (.shipping, o)
  | .attempt ⟨_, .shipping o⟩ _ => some (.shipping, o)
  | .pay _ o => some (.payment, o)
  | .attempt ⟨_, .payment o⟩ _ => some (.payment, o)
  | .deferPayment _ o => some (.payment, o)
  | .escalate _ o => some (.employee, o)
  | .attempt ⟨_, .escalation o⟩ _ => some (.employee, o)
  | _ => none

/-- The order is on its way to shipping. -/
def Action.ships (o : OrderRef) (a : Action) : Bool := a.side? = some (.shipping, o)

/-- The payment is under way. -/
def Action.pays (o : OrderRef) (a : Action) : Bool := a.side? = some (.payment, o)

/-- An employee is about to be informed. -/
def Action.informs (o : OrderRef) (a : Action) : Bool := a.side? = some (.employee, o)

def Action.defers (o : OrderRef) : Action → Bool
  | .deferPayment _ p => p = o
  | _ => false

theorem order_of_side {x y : Side} {p o : OrderRef}
    (h : decide (some (x, p) = some (y, o)) = true) : p = o :=
  congrArg Prod.snd (Option.some.inj (of_decide_eq_true h))

/-- What an action has to do with an order, it has to do with it on one side only. -/
theorem side_unique {x y : Side} {o : OrderRef} {a : Action}
    (h : decide (a.side? = some (x, o)) = true) (hne : x ≠ y) :
    decide (a.side? = some (y, o)) = false := by
  rw [of_decide_eq_true h]
  simp [hne]

theorem side?_of_quiet {a : Action} (ha : a.isQuiet = true) : a.side? = none := by
  cases a with
  | attempt j n =>
    obtain ⟨c, work⟩ := j
    cases work <;> first | rfl | cases ha
  | _ => first | rfl | cases ha

theorem matter_side (side : Side) (o : OrderRef) :
    Matter fun a => a.side? = some (side, o) := by
  refine ⟨fun a ha => ?_, fun j n m => ?_⟩
  · simp [side?_of_quiet ha]
  · obtain ⟨c, work⟩ := j
    cases work <;> rfl

theorem matter_ships (o : OrderRef) : Matter (Action.ships o) := matter_side .shipping o

theorem matter_pays (o : OrderRef) : Matter (Action.pays o) := matter_side .payment o

theorem matter_informs (o : OrderRef) : Matter (Action.informs o) := matter_side .employee o

/-! ## Yields -/

section Yields
variable {w v : World} {p : Action → Bool}

theorem yields_retry {d : Span} {j : Job} {n m : UInt32} (h : v.pending = w.pending) :
    Yields w v [.pause d, .attempt j n] [.attempt j m] := by
  refine .of_pending h fun p hp => ?_
  simp only [List.countP_cons, List.countP_nil, hp.quiet (.pause d) rfl, hp.attempt j n m,
    Bool.false_eq_true, if_false, Nat.add_zero]

theorem yields_tell {c : CoordinatorRef} {o : OrderRef} {m : MessageType} {l : List Action}
    (h : v.pending = w.pending) : Yields w v (.tell c o m :: l) l := by
  refine .of_pending h fun p hp => ?_
  simp only [List.countP_cons, hp.quiet (.tell c o m) rfl, Bool.false_eq_true, if_false,
    Nat.add_zero]

theorem yields_self {l : List Action} (h : v.pending = w.pending) : Yields w v l l :=
  .of_pending h fun _ _ => rfl

end Yields

/-! ## Notices -/

theorem pending_showNotice (u : World) (p : OrderRef) (n : SiteNotice) :
    (u.showNotice p n).pending = u.pending := by
  simp only [World.showNotice]
  cases (u.order p).notice <;> rfl

theorem length_showNotice (u : World) (p : OrderRef) (n : SiteNotice) :
    (u.showNotice p n).orders.length = u.orders.length := by
  simp only [World.showNotice]
  cases (u.order p).notice with
  | some _ => rfl
  | none => exact u.length_modifyOrder p _

section Turns
variable {s : Setup} {o : OrderRef} {w : World}

/-! ## Placement -/

/-- The placement goes on, has the order shipped, or ends without. -/
inductive ShipTurn (o : OrderRef) (w v : World) (todo : List Action) : Prop
  | again (b : Action) (hb : b.ships o = true) (hy : Yields w v todo [b])
      (hst : v.standing o = w.standing o)
  | accepted (c : CoordinatorRef) (hy : Yields w v todo [.pay c o])
      (hp : (v.order o).payment = (w.order o).payment) (hi : v.informed o = w.informed o)
      (hc : v.crashed o = w.crashed o)
  | turnedAway (l : List Action) (hl : ∀ b ∈ l, b.informs o = true) (hy : Yields w v todo l)
      (hst : v.standing o = w.standing o)

theorem failed_ships (c : CoordinatorRef) (n : UInt32) (f : Failure) {u : World}
    (hu : u.holdings = w.holdings) :
    ∃ v todo, failed s ⟨c, .shipping o⟩ n f u = .next v todo ∧ ShipTurn o w v todo := by
  have hpend := World.pending_of_holdings hu
  have hst := World.standing_of_holdings hu o
  have hshow (notice : SiteNotice) : (u.showNotice o notice).standing o = w.standing o := by
    rw [World.standing_showNotice, hst]
  have hshown (notice : SiteNotice) : (u.showNotice o notice).pending = w.pending := by
    rw [pending_showNotice, hpend]
  simp only [failed]
  split
  · exact ⟨_, _, rfl, .again (.attempt ⟨c, .shipping o⟩ 0) (decide_eq_true rfl)
      (yields_retry hpend) hst⟩
  · simp only [handOver, shippingFailed]
    cases f.kind with
    | shippingNotPossible | itemUnavailable =>
      exact ⟨_, _, rfl, .turnedAway [.escalate c o] (by simp [Action.informs, Action.side?])
        (yields_self (hshown _)) (hshow _)⟩
    | _ => exact ⟨_, _, rfl, .turnedAway [] (by simp) (yields_self (hshown _)) (hshow _)⟩

theorem attempt_ships (c : CoordinatorRef) (n : UInt32) (hu : w.Unlocked) (hw : w.Whole s) :
    ∃ v todo, (attempt s ⟨c, .shipping o⟩ n w).ComesTo v todo ∧ ShipTurn o w v todo := by
  have h := attempt_course (s := s) ⟨c, .shipping o⟩ n w hu hw
  generalize attempt s ⟨c, .shipping o⟩ n w = x at h
  cases h with
  | fault f rest v _ _ _ hv _ =>
    obtain ⟨v', todo, hx, ht⟩ := failed_ships (s := s) (o := o) c n f hv
    exact ⟨v', todo, .inl hx, ht⟩
  | skipped _ hn => cases hn
  | refused r f v _ _ _ hv _ =>
    obtain ⟨v', todo, hx, ht⟩ := failed_ships (s := s) (o := o) c n f hv
    exact ⟨v', todo, .inl hx, ht⟩
  | panicked r v _ _ hv =>
    have hst : (v.record (.panicked (callOf (.shipping o) v))).standing o = w.standing o :=
      World.standing_of_holdings hv o
    have hpend : v.pending = w.pending := World.pending_of_holdings hv
    exact ⟨_, [], .inr ⟨rfl, rfl⟩, .turnedAway [] (by simp) (yields_self hpend) hst⟩
  | accepted r v empty _ _ _ hv hr _ =>
    cases hr
    have hst := World.standing_of_holdings hv o
    have hpend : v.pending = w.pending := World.pending_of_holdings hv
    obtain ⟨hp, hi, -, hc⟩ := World.standing_parts hst
    exact ⟨_, _, .inl rfl, .accepted c (yields_self hpend) hp hi hc⟩
  | emptied v empty _ _ _ hr _ _ => cases hr

theorem perform_ships {a : Action} (ha : a.ships o = true) (hu : w.Unlocked) (hw : w.Whole s) :
    ∃ v todo, (perform s a w).ComesTo v todo ∧ ShipTurn o w v todo := by
  cases a with
  | place c p =>
    have hp : p = o := order_of_side ha
    subst hp
    refine ⟨_, _, .inl rfl, .again (.attempt ⟨c, .shipping p⟩ 0) (decide_eq_true rfl) ?_ rfl⟩
    refine .of_pending rfl fun q hq => ?_
    simp only [List.countP_cons, List.countP_nil, hq.quiet (.placed p) rfl, Bool.false_eq_true,
      if_false, Nat.add_zero]
  | attempt j n =>
    obtain ⟨c, work⟩ := j
    cases work with
    | shipping p =>
      have hp : p = o := order_of_side ha
      subst hp
      exact attempt_ships c n hu hw
    | _ => cases ha
  | _ => cases ha

/-! ## Payment -/

/-- The payment of the order goes on, is settled, or is left where a panic left it. -/
inductive PayTurn (o : OrderRef) (w v : World) (todo : List Action) : Prop
  | again (b : Action) (hb : b.pays o = true) (hy : Yields w v todo [b])
      (hst : v.standing o = w.standing o)
  | settled (p : PaymentStatus) (hy : Yields w v todo []) (hp : (v.order o).payment = p)
      (hne : p ≠ .trying) (hc : v.crashed o = w.crashed o)
  | crashed (hy : Yields w v todo []) (hp : (v.order o).payment = (w.order o).payment)
      (hi : v.informed o = w.informed o) (hc : v.crashed o = true)

theorem payment_setPayment (u : World) (p : PaymentStatus) (ho : o < u.orders.length) :
    ((u.setPayment o p).order o).payment = p := by
  rw [World.setPayment, World.order_modifyOrder, if_pos ⟨rfl, ho⟩]

theorem failPending_trying (u : World) (hp : (u.order o).payment = .trying) :
    failPending o u = (u.setPayment o .notDone, true) := by
  rw [failPending, if_pos hp]

theorem failed_pays (c : CoordinatorRef) (n : UInt32) (f : Failure) {u : World}
    (hu : u.holdings = w.holdings) (hlock : u.Unlocked) (ho : o < w.orders.length)
    (hp : (w.order o).payment = .trying) :
    ∃ v todo, failed s ⟨c, .payment o⟩ n f u = .next v todo ∧ PayTurn o w v todo := by
  have hpend := World.pending_of_holdings hu
  have hst := World.standing_of_holdings hu o
  have hlen : u.orders.length = w.orders.length := by rw [World.orders_of_holdings hu]
  have hshow (notice : SiteNotice) : (u.showNotice o notice).standing o = w.standing o := by
    rw [World.standing_showNotice, hst]
  have hshown (notice : SiteNotice) : (u.showNotice o notice).pending = w.pending := by
    rw [pending_showNotice, hpend]
  simp only [failed]
  split
  · exact ⟨_, _, rfl, .again (.attempt ⟨c, .payment o⟩ 0) (decide_eq_true rfl)
      (yields_retry hpend) hst⟩
  · simp only [handOver, paymentFailed]
    split
    · obtain ⟨hpay, -, -, hcrash⟩ := World.standing_parts (hshow .paymentDetailsInvalid)
      have hv : o < (u.showNotice o .paymentDetailsInvalid).orders.length := by
        rw [length_showNotice, hlen]
        exact ho
      rw [failPayment_eq s o _ (hlock.showNotice o _), failPending_trying _ (hpay.trans hp)]
      have hfailed := payment_setPayment (u.showNotice o .paymentDetailsInvalid) .notDone hv
      exact ⟨_, _, rfl, .settled .notDone (yields_tell (hshown .paymentDetailsInvalid)) hfailed
        (by decide) hcrash⟩
    · split
      · exact ⟨_, _, rfl, .again (.deferPayment c o) (decide_eq_true rfl)
          (yields_tell (hshown .paymentPending)) (hshow .paymentPending)⟩
      · exact ⟨_, _, rfl, .again (.deferPayment c o) (decide_eq_true rfl)
          (yields_self hpend) hst⟩

theorem attempt_pays (c : CoordinatorRef) (n : UInt32) (hu : w.Unlocked) (hw : w.Whole s)
    (ho : o < w.orders.length) (hp : (w.order o).payment = .trying) :
    ∃ v todo, (attempt s ⟨c, .payment o⟩ n w).ComesTo v todo ∧ PayTurn o w v todo := by
  have h := attempt_course (s := s) ⟨c, .payment o⟩ n w hu hw
  generalize attempt s ⟨c, .payment o⟩ n w = x at h
  cases h with
  | fault f rest v _ _ _ hv hc =>
    obtain ⟨v', todo, hx, ht⟩ := failed_pays (s := s) c n f hv (hc.unlocked hu) ho hp
    exact ⟨v', todo, .inl hx, ht⟩
  | skipped _ hn =>
    have hn' : decide ((w.order o).payment = .trying) = false := hn
    simp [hp] at hn'
  | refused r f v _ _ _ hv hc =>
    obtain ⟨v', todo, hx, ht⟩ := failed_pays (s := s) c n f hv (hc.unlocked hu) ho hp
    exact ⟨v', todo, .inl hx, ht⟩
  | panicked r v _ _ hv =>
    have hst := World.standing_of_holdings hv o
    have hpend : v.pending = w.pending := World.pending_of_holdings hv
    obtain ⟨hpay, hinf, -, -⟩ := World.standing_parts hst
    refine ⟨_, [], .inr ⟨rfl, rfl⟩, .crashed (yields_self hpend) hpay hinf ?_⟩
    simp [World.crashed, World.record, Event.isCrashOf, callOf]
  | accepted r v empty _ _ _ hv hr _ =>
    have hst := World.standing_of_holdings hv o
    have hpend : (fulfil (.payment o) empty v).1.pending = w.pending := by
      rw [fulfil_pending, World.pending_of_holdings hv]
    have hlen : o < v.orders.length := by
      rw [World.orders_of_holdings hv]
      exact ho
    have hdone : ((fulfil (.payment o) empty v).1.order o).payment = .done := by
      rw [order_fulfil, if_pos ⟨rfl, hlen⟩]
      rfl
    have hcrash : (fulfil (.payment o) empty v).1.crashed o = w.crashed o :=
      (World.standing_parts hst).2.2.2
    cases hr
    generalize (fulfil (.payment o) empty v).1 = u at hpend hdone hcrash
    have hshow := World.standing_showNotice (u.remark (.paid (u.idOf o)
      (v.collaborators.pay (v.order o).price v.now).1)) o o .paymentSuccessful
    obtain ⟨hpay, -, -, hc⟩ := World.standing_parts hshow
    refine ⟨_, _, .inl rfl, .settled .done (yields_tell ?_) (hpay.trans hdone) (by decide)
      (hc.trans hcrash)⟩
    rw [pending_showNotice]
    exact hpend
  | emptied v empty _ _ _ hr _ _ => cases hr

theorem perform_pays {a : Action} (ha : a.pays o = true) (hd : a.defers o = false)
    (hu : w.Unlocked) (hw : w.Whole s) (hopen : w.Open) (ho : o < w.orders.length)
    (hp : (w.order o).payment = .trying) :
    ∃ v todo, (perform s a w).ComesTo v todo ∧ PayTurn o w v todo := by
  cases a with
  | pay c p =>
    have hpo : p = o := order_of_side ha
    subst hpo
    simp only [perform, pay]
    split
    · rw [failPayment_eq s p w hu, failPending_trying w hp]
      exact ⟨_, _, .inl rfl, .settled .notDone (yields_tell rfl) (payment_setPayment w .notDone ho)
        (by decide) rfl⟩
    · obtain ⟨v, todo, hs, hst, hy⟩ := spawn_yields (s := s) ⟨c, .payment p⟩ w hopen
      exact ⟨v, todo, .inl hs, .again (.attempt ⟨c, .payment p⟩ 0)
        (decide_eq_true rfl) hy (hst p)⟩
  | attempt j n =>
    obtain ⟨c, work⟩ := j
    cases work with
    | payment p =>
      have hpo : p = o := order_of_side ha
      subst hpo
      exact attempt_pays c n hu hw ho hp
    | _ => simp [Action.pays, Action.side?] at ha
  | deferPayment c p =>
    have hpo : p = o := order_of_side ha
    simp [Action.defers, hpo] at hd
  | _ => simp [Action.pays, Action.side?] at ha

/-- A pending payment is put off in time, and an employee is to be informed; after its time nothing
is done about it. -/
theorem perform_defers (c : CoordinatorRef) (hp : (w.order o).payment = .trying) :
    perform s (.deferPayment c o) w =
      .next w (if w.budgetExceeded o s.config.limits.payment then []
        else [.enqueue c (.payment o), .escalate c o]) := by
  simp only [perform, deferPayment, hp]
  cases w.budgetExceeded o s.config.limits.payment <;> rfl

/-! ## Escalation -/

/-- The escalation goes on, comes too late, or the order is marked as escalated. -/
inductive InformTurn (s : Setup) (o : OrderRef) (w v : World) (todo : List Action) : Prop
  | again (b : Action) (hb : b.informs o = true) (hy : Yields w v todo [b])
      (hs : v.shipped o = w.shipped o)
  | late (hlate : w.budgetExceeded o s.config.limits.employee = true) (hy : Yields w v todo [])
      (hs : v.shipped o = w.shipped o)
  | escalated (hy : Yields w v todo []) (he : (v.order o).escalated = true)
      (hs : v.shipped o = w.shipped o)

theorem attempt_informs (c : CoordinatorRef) (n : UInt32) (hu : w.Unlocked) (hw : w.Whole s)
    (hparks : w.Answers .employee .employee) (ho : o < w.orders.length) :
    ∃ v todo, attempt s ⟨c, .escalation o⟩ n w = .next v todo ∧ InformTurn s o w v todo := by
  have h := attempt_course (s := s) ⟨c, .escalation o⟩ n w hu hw
  generalize attempt s ⟨c, .escalation o⟩ n w = x at h
  cases h with
  | fault f rest v hf _ _ _ _ =>
    have hnil : w.faults.get .employee = f :: rest := hf
    rw [hparks.faults] at hnil
    cases hnil
  | skipped _ hn =>
    have he : (!(w.order o).escalated) = false := hn
    exact ⟨_, _, rfl, .escalated (yields_self rfl) (by simpa using he) rfl⟩
  | refused r f v hr hf _ _ _ =>
    rw [(hparks.replies r hr).2] at hf
    cases hf
  | panicked r v hr hp _ =>
    rw [(hparks.replies r hr).1] at hp
    cases hp
  | accepted r v empty _ _ _ hv hr _ =>
    have hpend : (fulfil (.escalation o) empty v).1.pending = w.pending := by
      rw [fulfil_pending, World.pending_of_holdings hv]
    have hlen : o < v.orders.length := by
      rw [World.orders_of_holdings hv]
      exact ho
    have he : ((fulfil (.escalation o) empty v).1.order o).escalated = true := by
      rw [order_fulfil, if_pos ⟨rfl, hlen⟩]
      rfl
    have hs : (fulfil (.escalation o) empty v).1.shipped o = w.shipped o := by
      obtain ⟨-, -, hship, -⟩ := World.standing_parts (World.standing_of_holdings hv o)
      rw [shipped_fulfil, hship]
      rfl
    have hx : succeeded s ⟨c, .escalation o⟩ r (fulfil (.escalation o) empty v).1 =
        .next ((fulfil (.escalation o) empty v).1.remark
          (.escalated ((fulfil (.escalation o) empty v).1.idOf o))) [] := rfl
    exact ⟨_, _, hx, .escalated (yields_self hpend) he hs⟩
  | emptied v empty _ _ _ hr _ _ => cases hr

theorem perform_informs {a : Action} (ha : a.informs o = true) (hu : w.Unlocked) (hw : w.Whole s)
    (hopen : w.Open) (hparks : w.Answers .employee .employee) (ho : o < w.orders.length) :
    ∃ v todo, perform s a w = .next v todo ∧ InformTurn s o w v todo := by
  cases a with
  | escalate c p =>
    have hpo : p = o := order_of_side ha
    subst hpo
    simp only [perform, escalate]
    split
    · next h => exact ⟨_, _, rfl, .late h (yields_self rfl) rfl⟩
    · obtain ⟨v, todo, hs, hst, hy⟩ := spawn_yields (s := s) ⟨c, .escalation p⟩ w hopen
      obtain ⟨-, -, hship, -⟩ := World.standing_parts (hst p)
      exact ⟨v, todo, hs, .again (.attempt ⟨c, .escalation p⟩ 0) (decide_eq_true rfl) hy hship⟩
  | attempt j n =>
    obtain ⟨c, work⟩ := j
    cases work with
    | escalation p =>
      have hpo : p = o := order_of_side ha
      subst hpo
      exact attempt_informs c n hu hw hparks ho
    | _ => simp [Action.informs, Action.side?] at ha
  | _ => simp [Action.informs, Action.side?] at ha

end Turns
end Fulfilment
