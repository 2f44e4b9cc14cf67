import Fulfilment.Proofs.Books.Errand
import Fulfilment.Proofs.Message.Truth
import Fulfilment.Proofs.Payment.Turn

/-! The opening of an order: from its placement to the end of its first payment, one action at a
time.

* `Action.opens`: the placement of an order, or its first payment.
* `Effect.early_le`: such an action leaves one of its kind to do at most.
* `Effect.opening`: it goes on, or the order is refused, its payment expires, or the customer is
  shown how the payment went. -/
namespace Fulfilment

set_option autoImplicit false

/-- The order is being placed, or paid for without having been put off. -/
def Action.opens (o : OrderRef) : Action → Bool
  | .place _ p => p = o
  | .pay _ p => p = o
  | .attempt ⟨_, .shipping p⟩ _ => p = o
  | .attempt ⟨_, .payment p⟩ _ => p = o
  | _ => false

theorem ships_place (o p : OrderRef) (c : CoordinatorRef) :
    (Action.place c p).ships o = decide (p = o) := by
  simp [Action.ships, Action.side?]

theorem opens_of_ships {o : OrderRef} {a : Action} (h : a.ships o = true) : a.opens o = true := by
  have hs : a.side? = some (.shipping, o) := of_decide_eq_true h
  cases a with
  | place => cases hs; exact decide_eq_true rfl
  | attempt j n =>
    obtain ⟨c, work⟩ := j
    cases work with
    | shipping => cases hs; exact decide_eq_true rfl
    | _ => cases hs
  | _ => cases hs

theorem Work.topic_of_errand {work : Work} {x : Errand} (h : work.errand? = some x) :
    ∃ m, work.topic? = some ⟨x.order, m⟩ := by
  cases work <;> cases h <;> exact ⟨_, rfl⟩

theorem Action.topic_of_errand {a : Action} {x : Errand} (h : a.errand? = some x) :
    ∃ m, a.topic? = some ⟨x.order, m⟩ := by
  cases a with
  | attempt j n => exact Work.topic_of_errand h
  | conclude j n r => exact Work.topic_of_errand h
  | _ => cases h <;> exact ⟨_, rfl⟩

theorem errand_of_opens {o : OrderRef} {a : Action} (h : a.opens o = true) :
    ∃ st, a.errand? = some ⟨o, st⟩ := by
  cases a with
  | place | pay =>
    cases of_decide_eq_true h
    exact ⟨_, rfl⟩
  | attempt j n =>
    obtain ⟨c, work⟩ := j
    cases work with
    | shipping | payment =>
      cases of_decide_eq_true h
      exact ⟨_, rfl⟩
    | _ => cases h
  | _ => cases h

/-! ## Kinds that are not multiplied -/

/-- What comes after a placement and its first payment, or from the queue. -/
def Action.isLate : Action → Bool
  | .tell _ _ _ => true
  | .escalate _ _ => true
  | .enqueue _ _ => true
  | .deferPayment _ _ => true
  | .escalateTask _ _ _ => true
  | .drain _ => true
  | .dequeue _ => true
  | .settleDrain _ => true
  | _ => false

/-- A kind of actions that come from a placement only, each from one of the same kind. -/
structure Early (p : Action → Bool) : Prop where
  concern : Concern p
  placed : ∀ c o, p (.attempt ⟨c, .shipping o⟩ 0) = p (.place c o)
  shipped : ∀ c o n, p (.pay c o) = true → p (.attempt ⟨c, .shipping o⟩ n) = true
  spawned : ∀ (a : Action) (j : Job), a.Spawns j → p (.attempt j 0) = true → p a = true
  late : ∀ a : Action, a.isLate = true → p a = false

theorem early_ships (o : OrderRef) : Early (Action.ships o) where
  concern := (matter_ships o).concern
  placed _ _ := rfl
  shipped _ _ _ h := by cases of_decide_eq_true h
  spawned a j hj h := by
    obtain ⟨c, work⟩ := j
    have hw := hj.work
    cases a <;> cases hw <;> cases of_decide_eq_true h
  late a ha := by cases a <;> first | rfl | cases ha

theorem early_opens (o : OrderRef) : Early (Action.opens o) where
  concern := by
    refine ⟨fun _ => rfl, fun _ => rfl, fun _ => rfl, fun _ => rfl, fun j n m => ?_⟩
    obtain ⟨c, work⟩ := j
    cases work <;> rfl
  placed _ _ := rfl
  shipped _ _ _ h := h
  spawned a j hj h := by
    obtain ⟨c, work⟩ := j
    have hw := hj.work
    cases a <;> cases hw <;> exact h
  late a ha := by cases a <;> first | rfl | cases ha

section Early
variable {s : Setup} {w v : World} {a : Action} {todo : List Action} {p : Action → Bool}

theorem Early.of_work (hp : Early p) {j : Job} (hj : a.Spawns j) :
    (if p (.attempt j 0) then 1 else 0) ≤ if p a then 1 else 0 := by
  by_cases h : p (.attempt j 0) = true
  · exact Nat.le_of_eq (by rw [if_pos h, if_pos (hp.spawned a j hj h)])
  · rw [if_neg h]
    exact Nat.zero_le _

/-! ### What is left to do -/

theorem countP_le_of_none (h : ∀ d ∈ todo, p d = false) (n : Nat) : todo.countP p ≤ n := by
  have hzero : todo.countP p = 0 := List.countP_eq_zero.mpr fun d hd => by rw [h d hd]; decide
  rw [hzero]
  exact Nat.zero_le n

theorem Early.countP_late (hp : Early p) (h : todo.all Action.isLate = true) (n : Nat) :
    todo.countP p ≤ n :=
  countP_le_of_none (fun d hd => hp.late d (List.all_eq_true.mp h d hd)) n

/-- Of two actions only the first can be of the kind, and it comes from one of the kind. -/
theorem countP_pair_le {d d' : Action} (hd : p d = true → p a = true) (hd' : p d' = false) :
    [d, d'].countP p ≤ if p a then 1 else 0 := by
  simp only [List.countP_cons, List.countP_nil, hd', Bool.false_eq_true, if_false, Nat.zero_add]
  by_cases h : p d = true
  · exact Nat.le_of_eq (by rw [if_pos h, if_pos (hd h)])
  · rw [if_neg h]
    exact Nat.zero_le _

/-- Only late actions come of a failure, and no job. -/
theorem Setback.late {b : Books} {c : CoordinatorRef} {work : Work} {f : Failure}
    (h : Setback s b c work f v todo) : v.pending = b.pending ∧ todo.all Action.isLate = true := by
  cases h <;> exact ⟨(congrArg Books.pending ‹v.books = _› :), rfl⟩

theorem Success.early {b : Books} {c : CoordinatorRef} {work : Work} (hp : Early p) (n : UInt32)
    (h : Success s b c work v todo) (hstore : ∀ t ∈ b.store, ∀ c, p (t.retry c) = false) :
    v.pending = b.pending ∧ todo.countP p ≤ if p (.attempt ⟨c, work⟩ n) then 1 else 0 := by
  cases h with
  | shipped o r _ hv =>
    refine ⟨congrArg Books.pending hv, ?_⟩
    rw [List.countP_singleton]
    by_cases h : p (.pay c o) = true
    · exact Nat.le_of_eq (by rw [if_pos h, if_pos (hp.shipped c o n h)])
    · rw [if_neg h]
      exact Nat.zero_le _
  | visited t rest now _ hs _ _ hv =>
    have ht : t ∈ b.store := by
      rw [hs]
      exact List.mem_cons_self ..
    refine ⟨congrArg Books.pending hv, countP_le_of_none (List.forall_mem_cons.mpr ⟨?_, ?_⟩) _⟩
    · exact hstore t ht c
    · exact List.forall_mem_singleton.mpr (hp.late _ rfl)
  | paid | told | handed | added | condemned | removed =>
    exact ⟨(congrArg Books.pending ‹v.books = _› :), hp.countP_late rfl _⟩

/-- An action spawns one job and leaves nothing else to do, or leaves no more of the kind to do
than it was itself. -/
theorem Effect.early (hp : Early p) (h : Effect s w a v todo)
    (hstore : ∀ t ∈ w.collaborators.store, ∀ c, p (t.retry c) = false) :
    (∃ j, a.Spawns j ∧ v.pending = w.pending ++ [j] ∧ todo = []) ∨
      v.pending = w.pending ∧ todo.countP p ≤ if p a then 1 else 0 := by
  cases h with
  | waiting j _ hj hv => exact .inl ⟨j, hj, congrArg Books.pending hv, rfl⟩
  | idle _ _ ha ht hv =>
    refine .inr ⟨World.pending_of_books hv, countP_le_of_none (fun b hb => ?_) _⟩
    obtain ⟨n, rfl⟩ := ht b hb
    exact hp.concern.serve n
  | placing c o _ hv =>
    have hfirst : p (.attempt ⟨c, .shipping o⟩ 0) = true → p (.place c o) = true := fun h => by
      rwa [← hp.placed]
    exact .inr ⟨World.pending_of_books hv, countP_pair_le hfirst (hp.concern.placed o)⟩
  | started j _ hj hv =>
    exact .inr ⟨World.pending_of_books hv,
      countP_pair_le (hp.spawned a j hj) (hp.concern.finish j)⟩
  | lost | passed | expired | deferring | escalating | crashed =>
    exact .inr ⟨(congrArg Books.pending ‹v.books = _› :), hp.countP_late rfl _⟩
  | drainingOn c d _ _ hv =>
    have hnone : ∀ b ∈ [Action.pause d, .drain c], p b = false :=
      List.forall_mem_cons.mpr
        ⟨hp.concern.pause d, List.forall_mem_singleton.mpr (hp.late _ rfl)⟩
    exact .inr ⟨World.pending_of_books hv, countP_le_of_none hnone _⟩
  | again j n m d f _ _ hv =>
    refine .inr ⟨World.pending_of_books hv, ?_⟩
    simp only [List.countP_cons, List.countP_nil, hp.concern.pause d, hp.concern.attempt j m n,
      Bool.false_eq_true, if_false, Nat.zero_add, Nat.add_zero, Nat.le_refl]
  | unneeded j n _ hn hv =>
    refine .inr ⟨World.pending_of_books hv, ?_⟩
    split
    · exact hp.countP_late rfl _
    · exact Nat.zero_le _
  | succeeded c work n _ _ hs => exact .inr (hs.early hp n hstore)
  | failed c work n f _ _ hf hs => exact .inr ⟨hs.late.1, hp.countP_late hs.late.2 _⟩

/-- An action leaves to do, and to wait, no more of the kind than it was itself. -/
theorem Effect.early_le (hp : Early p) (h : Effect s w a v todo)
    (hstore : ∀ t ∈ w.collaborators.store, ∀ c, p (t.retry c) = false) :
    todo.countP p + v.waiting p ≤ w.waiting p + if p a then 1 else 0 := by
  obtain ⟨j, hj, hpending, rfl⟩ | ⟨hpending, hcount⟩ := h.early hp hstore
  · have hone := hp.of_work hj
    simp only [World.waiting, hpending, List.countP_append, List.countP_singleton, List.countP_nil]
    omega
  · rw [World.waiting_of_pending hpending]
    omega

end Early

/-! ## The order -/

/-- The order is not placed, and the customer is shown why. -/
def SiteNotice.isRefusal : SiteNotice → Bool
  | .shippingNotPossible => true
  | .itemUnavailable => true
  | .orderNotPlaced => true
  | _ => false

/-- Nothing is known of the order yet. -/
structure Order.Unopened (x : Order) : Prop where
  payment : x.payment = .trying
  sent : x.sent = .noneSent
  notice : x.notice = none

/-- The notice that is shown after an attempt to be paid agrees with the payment. -/
inductive Order.Shows : SiteNotice → PaymentStatus → Prop
  | paid : Shows .paymentSuccessful .done
  | declined : Shows .paymentDetailsInvalid .notDone
  | pending (p : PaymentStatus) : Shows .paymentPending p

theorem Order.Shows.later {i : SiteNotice} {p q : PaymentStatus} (h : Order.Shows i p)
    (hq : p ≠ .trying → q = p) : Order.Shows i q := by
  cases h with
  | paid =>
    rw [hq (by decide)]
    exact .paid
  | declined =>
    rw [hq (by decide)]
    exact .declined
  | pending => exact .pending q

/-- What an action that opens the order comes to. -/
inductive OpeningTurn (o : OrderRef) (w v : World) (a : Action) (todo : List Action) : Prop
  | on (hv : v.order o = w.order o)
      (htodo : ∀ d ∈ todo, ∀ st, d.errand? = some ⟨o, st⟩ → d.opens o = true)
      (hs : v.shipped o = w.shipped o ∨ ∃ c, todo = [.pay c o])
  | refused (i : SiteNotice) (hi : i.isRefusal = true) (ha : a.ships o = true)
      (hn : (v.order o).notice = some i) (hp : (v.order o).payment = .trying)
      (hm : (v.order o).sent = .noneSent) (hs : v.shipped o = w.shipped o)
      (hpending : v.pending = w.pending)
      (htodo : ∀ d ∈ todo, ∀ st, d.errand? = some ⟨o, st⟩ → st = .escalation)
      (hcount : todo.countP (Action.opens o) = 0)
  | expired (hn : (v.order o).notice = none) (hp : (v.order o).payment = .notDone)
      (hpending : v.pending = w.pending)
      (htodo : ∀ d ∈ todo, ∀ st, d.errand? = some ⟨o, st⟩ → st = .messaging)
      (hcount : todo.countP (Action.opens o) = 0)
  | shown (i : SiteNotice) (hn : (v.order o).notice = some i)
      (hp : Order.Shows i (v.order o).payment)
      (htrying : i = .paymentPending → (v.order o).payment = .trying)

section Turns
variable {s : Setup} {o : OrderRef} {w v : World} {a : Action} {todo : List Action}

theorem opens_of_spawns {j : Job} (hj : a.Spawns j) (ha : a.opens o = true) :
    (Action.attempt j 0).opens o = true := by
  obtain ⟨c, work⟩ := j
  have hw := hj.work
  cases a <;> cases hw <;> exact ha

/-- Nothing changes but jobs. -/
theorem OpeningTurn.still {b : Books} (hv : v.books = b) (ho : b.orders = w.books.orders)
    (hd : b.deeds = w.books.deeds)
    (htodo : ∀ d ∈ todo, ∀ st, d.errand? = some ⟨o, st⟩ → d.opens o = true) :
    OpeningTurn o w v a todo := by
  have horders : v.orders = w.orders := (congrArg Books.orders hv).trans ho
  have hdeeds : v.deeds = w.deeds := (congrArg Books.deeds hv).trans hd
  refine .on ?_ htodo (.inl (World.shipped_of_deeds hdeeds o))
  rw [World.order, World.order, horders]

theorem OpeningTurn.nothing {b : Books} (hv : v.books = b) (ho : b.orders = w.books.orders)
    (hd : b.deeds = w.books.deeds) : OpeningTurn o w v a [] :=
  .still hv ho hd fun _ hd => absurd hd List.not_mem_nil

theorem OpeningTurn.refuse (c : CoordinatorRef) (n : UInt32) (i : SiteNotice)
    (hi : i.isRefusal = true) (ho : o < w.orders.length) (hx : (w.order o).Unopened)
    (hv : v.books = w.books.note o i) (htodo : ∀ d ∈ todo, d = .escalate c o) :
    OpeningTurn o w v (.attempt ⟨c, .shipping o⟩ n) todo := by
  have horder : v.order o = { w.order o with notice := some i } :=
    (congrArg (fun b : Books => b.order o) hv).trans (w.books.order_note i ho hx.notice)
  refine .refused i hi (decide_eq_true rfl) ?_ ?_ ?_
    (World.shipped_of_deeds (congrArg Books.deeds hv) o) (congrArg Books.pending hv) ?_ ?_
  · rw [horder]
  · rw [horder]
    exact hx.payment
  · rw [horder]
    exact hx.sent
  · intro d hd st hst
    rw [htodo d hd] at hst
    cases hst
    rfl
  · refine List.countP_eq_zero.mpr fun d hd => ?_
    rw [htodo d hd]
    exact Bool.false_ne_true

/-- Of two actions one opens the order, and the other does nothing for it. -/
theorem opens_pair {d d' : Action} (hd : d.opens o = true) (hd' : d'.isMinor = true) :
    ∀ b ∈ [d, d'], ∀ st, b.errand? = some ⟨o, st⟩ → b.opens o = true := by
  refine List.forall_mem_cons.mpr ⟨fun _ _ => hd, List.forall_mem_singleton.mpr fun st hst => ?_⟩
  rw [Action.errand?_of_minor hd'] at hst
  cases hst

theorem OpeningTurn.expire (c : CoordinatorRef) (ho : o < w.orders.length)
    (hx : (w.order o).Unopened) (hv : v.books = w.books.pay o .notDone) :
    OpeningTurn o w v (.pay c o) [.tell c o .paymentFail] := by
  have horder : v.order o = { w.order o with payment := .notDone } :=
    (congrArg (fun b : Books => b.order o) hv).trans (w.books.order_pay .notDone ho)
  refine .expired ?_ ?_ (congrArg Books.pending hv) ?_ rfl
  · rw [horder]
    exact hx.notice
  · rw [horder]
  · refine List.forall_mem_singleton.mpr fun st hst => ?_
    cases hst
    rfl

/-- The customer is shown a notice that agrees with the payment. -/
theorem OpeningTurn.show_notice {i : SiteNotice} {status : PaymentStatus}
    (horder : v.order o = { w.order o with payment := status, notice := some i })
    (hp : Order.Shows i status) (htrying : i = .paymentPending → status = .trying) :
    OpeningTurn o w v a todo := by
  refine .shown i ?_ ?_ fun h => ?_
  · rw [horder]
  · rw [horder]
    exact hp
  · rw [horder]
    exact htrying h

theorem Success.opening {c : CoordinatorRef} {work : Work} {n : UInt32}
    (h : Success s w.books c work v todo) (ha : (Action.attempt ⟨c, work⟩ n).opens o = true)
    (ho : o < w.orders.length) (hx : (w.order o).Unopened) :
    OpeningTurn o w v (.attempt ⟨c, work⟩ n) todo := by
  cases h with
  | shipped p r _ hv =>
    obtain rfl : p = o := of_decide_eq_true ha
    refine .on (congrArg (fun b : Books => b.order p) hv) ?_ (.inr ⟨c, rfl⟩)
    exact List.forall_mem_singleton.mpr fun _ _ => decide_eq_true rfl
  | paid p r _ hp hv =>
    obtain rfl : p = o := of_decide_eq_true ha
    have horder := (congrArg (fun b : Books => b.order p) hv).trans
      ((w.books.deed _).order_pay_note .done .paymentSuccessful ho hx.notice)
    exact .show_notice horder .paid fun h => by cases h
  | _ => cases ha

theorem Setback.opening {c : CoordinatorRef} {work : Work} {f : Failure} {n : UInt32}
    (h : Setback s w.books c work f v todo) (ha : (Action.attempt ⟨c, work⟩ n).opens o = true)
    (ho : o < w.orders.length) (hx : (w.order o).Unopened) :
    OpeningTurn o w v (.attempt ⟨c, work⟩ n) todo := by
  cases h with
  | turnedAway p f i _ hn hv =>
    obtain rfl : p = o := of_decide_eq_true ha
    refine .refuse c n i ?_ ho hx hv (List.forall_mem_singleton.mpr rfl)
    obtain rfl | rfl := hn <;> rfl
  | notPlaced p f _ hv =>
    obtain rfl : p = o := of_decide_eq_true ha
    exact .refuse c n _ rfl ho hx hv fun _ hd => absurd hd List.not_mem_nil
  | declined p _ hp hv =>
    obtain rfl : p = o := of_decide_eq_true ha
    have horder := (congrArg (fun b : Books => b.order p) hv).trans
      (w.books.order_note_pay .paymentDetailsInvalid .notDone ho hx.notice)
    exact .show_notice horder .declined fun h => by cases h
  | declinedLate p _ hp hv =>
    obtain rfl : p = o := of_decide_eq_true ha
    exact absurd hx.payment hp
  | unpaid p f _ hf hs hv =>
    obtain rfl : p = o := of_decide_eq_true ha
    have horder := (congrArg (fun b : Books => b.order p) hv).trans
      (w.books.order_note .paymentPending ho hx.notice)
    exact .show_notice horder (.pending _) fun _ => hx.payment
  | stillUnpaid p f _ hf hs hv =>
    obtain rfl : p = o := of_decide_eq_true ha
    exact absurd hx.sent hs
  | unseen work f _ hw hv => cases work <;> first | cases ha | cases hw
  | _ => cases ha

theorem Effect.opening (h : Effect s w a v todo) (ha : a.opens o = true)
    (ho : o < w.orders.length) (hx : (w.order o).Unopened) : OpeningTurn o w v a todo := by
  cases h with
  | idle _ _ hidle _ _ => cases a <;> first | exact absurd ha Bool.false_ne_true | cases hidle
  | placing c p _ hv => exact .still hv rfl rfl (opens_pair ha rfl)
  | waiting j _ hj hv => exact .nothing hv rfl rfl
  | started j _ hj hv => exact .still hv rfl rfl (opens_pair (opens_of_spawns hj ha) rfl)
  | lost _ _ _ _ hv => exact .nothing hv rfl rfl
  | passed _ hpass hv =>
    cases a with
    | pay c p =>
      obtain rfl : p = o := of_decide_eq_true ha
      exact absurd hx.payment hpass.1
    | _ => first | exact absurd ha Bool.false_ne_true | exact hpass.elim
  | expired c p _ hp ht hv =>
    obtain rfl : p = o := of_decide_eq_true ha
    exact .expire c ho hx hv
  | deferring | escalating | drainingOn => cases ha
  | again j n m d f _ hf hv =>
    refine .still hv rfl rfl (List.forall_mem_cons.mpr ⟨fun st hst => (by cases hst), ?_⟩)
    refine List.forall_mem_singleton.mpr fun _ _ => ?_
    rw [(early_opens o).concern.attempt j m n]
    exact ha
  | unneeded j n _ hn hv =>
    obtain ⟨c, work⟩ := j
    cases work with
    | shipping => cases hn
    | payment p =>
      obtain rfl : p = o := of_decide_eq_true ha
      simp only [needed, hx.payment] at hn
      cases hn
    | _ => cases ha
  | crashed j n r _ hr hp hv =>
    refine .on (congrArg (fun b : Books => b.order o) hv)
      (fun _ hd => absurd hd List.not_mem_nil) (.inl ?_)
    have hdeeds : v.deeds = .panicked (callOf j.work w) :: w.deeds := congrArg Books.deeds hv
    rw [World.shipped_eq, World.shipped_eq, hdeeds]
    rfl
  | succeeded c work n _ _ hs => exact hs.opening ha ho hx
  | failed c work n f _ _ hf hs => exact hs.opening ha ho hx

end Turns
end Fulfilment
