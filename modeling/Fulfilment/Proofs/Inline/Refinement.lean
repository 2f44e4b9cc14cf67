import Fulfilment.Proofs.Inline.Outcome
import Fulfilment.Proofs.Payment.Turn

/-! Actions performed on a world are steps on its ledger, if jobs run on the spot, the queue store
works, replies are plain and the order is in time. -/
namespace Fulfilment

set_option autoImplicit false

/-! ## Conditions -/

/-- Jobs run on the spot, there is a queue store, and a task may stay in it for some time. -/
structure Setup.Inline (s : Setup) : Prop where
  dispatch : s.dispatch = .inline
  hasStore : s.hasStore = true
  queueTask : 0 < s.config.limits.queueTask

/-- Collaborators answer for themselves, the queue store does not fail, no job is turned away. -/
structure World.Steady (w : World) : Prop where
  replies : w.replies = []
  queue : w.faults.queue = []
  isOpen : w.Open

/-- None of the times for the order is over. -/
structure World.InTime (s : Setup) (o : OrderRef) (w : World) : Prop where
  queue : w.budgetExceeded o s.config.limits.queue = false
  payment : w.budgetExceeded o s.config.limits.payment = false
  message : w.budgetExceeded o s.config.limits.message = false
  employee : w.budgetExceeded o s.config.limits.employee = false

theorem World.InTime.of_eq {s : Setup} {o : OrderRef} {w v : World} (h : w.InTime s o)
    (ho : v.orders = w.orders) (hc : v.clock = w.clock) : v.InTime s o := by
  have hb (b : Span) : v.budgetExceeded o b = w.budgetExceeded o b := by
    simp only [budgetExceeded, order, now, ho, hc]
  exact ⟨by rw [hb, h.queue], by rw [hb, h.payment], by rw [hb, h.message],
    by rw [hb, h.employee]⟩

theorem World.Steady.whole {s : Setup} {w : World} (h : w.Steady) : w.Whole s :=
  World.whole_of_no_replies h.replies

theorem World.Steady.changes {s : Setup} {w v : World} (h : w.Steady) (hc : Changes s w v) :
    v.Steady := by
  refine ⟨hc.no_replies h.replies, ?_, hc.isOpen h.isOpen⟩
  have hf : v.faults.queue <:+ w.faults.queue := hc.faults .queue
  rw [h.queue] at hf
  exact List.suffix_nil.mp hf

/-! ## The ledger of a world -/

def World.ledger (c : CoordinatorRef) (o : OrderRef) (w : World) : Ledger where
  order := (w.order o).bare
  store := w.collaborators.store
  counted := w.queued[c]?
  script := w.faults.payment
  shipped := w.shipped o

/-- An outcome that is a step on the ledger. -/
def Outcome.Does (c : CoordinatorRef) (o : OrderRef) (l : Ledger) (a : Action) (x : Outcome) :
    Prop :=
  ∃ v todo, x = .next v todo ∧ Ledger.Step c o l a (v.ledger c o) todo

theorem Ledger.Step.does {c : CoordinatorRef} {o : OrderRef} {l l' : Ledger} {a : Action}
    {v : World} {todo : List Action} (h : Ledger.Step c o l a l' todo) (hv : v.ledger c o = l') :
    (Outcome.next v todo).Does c o l a :=
  ⟨v, todo, rfl, by rw [hv]; exact h⟩

section Ledgers
variable (c : CoordinatorRef) (o : OrderRef)

theorem World.ledger_of_holdings {w v : World} (h : v.holdings = w.holdings) :
    v.ledger c o = { w.ledger c o with script := v.faults.payment } := by
  simp only [ledger, order_of_holdings h, collaborators_of_holdings h, queued_of_holdings h,
    shipped_eq, deeds_of_holdings h]

theorem World.ledger_showNotice (w : World) (n : SiteNotice) :
    (w.showNotice o n).ledger c o = w.ledger c o := by
  simp only [showNotice]
  cases (w.order o).notice with
  | some _ => rfl
  | none =>
    have hbare : ((w.modifyOrder o (·.recordNotice n)).order o).bare = (w.order o).bare :=
      order_modifyOrder_congr Order.bare w o o _ fun x => by
        cases hx : x.notice <;> simp only [Order.recordNotice, hx, Order.bare]
    have h : (w.modifyOrder o (·.recordNotice n)).ledger c o = w.ledger c o := by
      simp only [ledger, hbare]
      rfl
    exact h

theorem World.ledger_modifyOrder (w : World) (f : Order → Order)
    (hf : ∀ x, (f x).bare = f x.bare) (ho : o < w.orders.length) :
    (w.modifyOrder o f).ledger c o = { w.ledger c o with order := f (w.ledger c o).order } := by
  have hv := w.order_modifyOrder o o f
  rw [if_pos ⟨rfl, ho⟩] at hv
  simp only [ledger, hv, hf]
  rfl

theorem World.ledger_setPayment (w : World) (p : PaymentStatus) (ho : o < w.orders.length) :
    (w.setPayment o p).ledger c o =
      { w.ledger c o with order := { (w.ledger c o).order with payment := p } } :=
  w.ledger_modifyOrder c o _ (fun _ => rfl) ho

theorem ledger_fulfil (work : Work) (empty : Bool) (w : World) :
    (fulfil work empty w).1.ledger c o =
      { order := ((fulfil work empty w).1.order o).bare
        store := match work with
          | .add t => w.collaborators.store ++ [t]
          | .dequeue => w.collaborators.store.tail
          | _ => w.collaborators.store
        counted := w.queued[c]?
        script := w.faults.payment
        shipped := decide (work = .shipping o) || w.shipped o } := by
  cases work <;>
    simp only [World.ledger, store_fulfil, fulfil_queued, fulfil_faults, shipped_fulfil]

end Ledgers

section Attempts
variable {s : Setup} {c : CoordinatorRef} {o : OrderRef} {w : World}

/-! ## Jobs -/

theorem spawn_does (hs : s.Inline) (hw : w.Open) {a : Action} {work : Work}
    (ha : a.work? = some work) : (spawn s ⟨c, work⟩ w).Does c o (w.ledger c o) a := by
  rw [spawn_inline hs.dispatch hw]
  exact ⟨_, _, rfl, .spawned _ a work ha⟩

/-! ## Failed attempts -/

section Failed
variable {v : World} {f : Failure} {n : UInt32} (hv : v.holdings = w.holdings)
include hv

theorem failed_does (work : Work) (hq : work.service ≠ .queue)
    (hp : (w.ledger c o).Pops work f v.faults.payment)
    (hover : (handOver s ⟨c, work⟩ f v).Does c o (w.ledger c o) (.attempt ⟨c, work⟩ n)) :
    (failed s ⟨c, work⟩ n f v).Does c o (w.ledger c o) (.attempt ⟨c, work⟩ n) := by
  simp only [failed]
  split
  · next hr =>
    have hf : f.isOutage = true := by
      simp only [Retry.repeats, Bool.and_eq_true] at hr
      exact hr.1
    have hl : v.drawJitter.2.ledger c o =
        { w.ledger c o with script := v.faults.payment } :=
      World.ledger_of_holdings c o (v := v.drawJitter.2) hv
    refine ⟨_, _, rfl, ?_⟩
    rw [hl]
    exact .again _ work n _ _ f _ hq hf hp
  · exact hover

theorem ledger_unpopped (hf : v.faults.payment = w.faults.payment) :
    v.ledger c o = w.ledger c o := by
  have hl := World.ledger_of_holdings c o hv
  rw [hf] at hl
  exact hl

theorem shippingFailed_does (hf : v.faults.payment = w.faults.payment) :
    (shippingFailed c o f v).Does c o (w.ledger c o) (.attempt ⟨c, .shipping o⟩ n) := by
  have hl (notice : SiteNotice) : (v.showNotice o notice).ledger c o = w.ledger c o := by
    rw [World.ledger_showNotice, ledger_unpopped hv hf]
  have ends (u : World) (more : List Action) (hu : u.ledger c o = w.ledger c o)
      (hmore : ∀ b ∈ more, b = .escalate c o) :
      (Outcome.next u more).Does c o (w.ledger c o) (.attempt ⟨c, .shipping o⟩ n) := by
    refine ⟨u, more, rfl, ?_⟩
    rw [hu]
    exact .turnedAway _ n more hmore
  simp only [shippingFailed]
  cases f.kind with
  | shippingNotPossible | itemUnavailable =>
    exact ends _ _ (hl _) fun b hb => List.mem_singleton.mp hb
  | _ => exact ends _ _ (hl _) fun b hb => absurd hb List.not_mem_nil

theorem paymentFailed_does (hu : v.Unlocked) (ho : o < w.orders.length)
    (hf : w.faults.payment = f :: v.faults.payment) :
    (paymentFailed s c o f v).Does c o (w.ledger c o) (.attempt ⟨c, .payment o⟩ n) := by
  have hl := World.ledger_of_holdings c o hv
  have hshow (notice : SiteNotice) : (v.showNotice o notice).ledger c o =
      { w.ledger c o with script := v.faults.payment } := by
    rw [World.ledger_showNotice, hl]
  simp only [paymentFailed]
  split
  · next hkind =>
    have hdetails : f = .paymentDetailsError := by cases f <;> first | rfl | cases hkind
    subst hdetails
    rw [failPayment_eq s o _ (hu.showNotice o _)]
    generalize hw' : v.showNotice o .paymentDetailsInvalid = u
    have hledger : u.ledger c o = { w.ledger c o with script := v.faults.payment } := by
      rw [← hw']
      exact hshow _
    have hpay : (u.order o).payment = (w.order o).payment :=
      congrArg (fun l : Ledger => l.order.payment) hledger
    by_cases hp : (w.order o).payment = .trying
    · have hlen : o < u.orders.length := by
        rw [← hw', length_showNotice, World.orders_of_holdings hv]
        exact ho
      have hfailed : (u.setPayment o .notDone).ledger c o =
          { w.ledger c o with
            script := v.faults.payment
            order := { (w.ledger c o).order with payment := .notDone } } := by
        rw [u.ledger_setPayment c o .notDone hlen, hledger]
      rw [failPending_trying u (hpay.trans hp)]
      refine ⟨_, _, rfl, ?_⟩
      have hstep := Ledger.Step.rejected (c := c) (o := o) (w.ledger c o) n _ hp hf
      rw [← hfailed] at hstep
      exact hstep
    · rw [failPending, if_neg (by rw [hpay]; exact hp)]
      refine ⟨_, _, rfl, ?_⟩
      have hsettled : (Task.payment o).isSettled (w.ledger c o).order = true :=
        Task.isSettled_payment hp
      have hstep := Ledger.Step.settled (c := c) (o := o) (w.ledger c o) (.payment o) n _
        v.faults.payment rfl hsettled fun h => absurd h hp
      rw [← hledger] at hstep
      exact hstep
  · next hkind =>
    have hother : f ≠ .paymentDetailsError := fun h => hkind (by rw [h]; rfl)
    split
    · refine ⟨_, _, rfl, ?_⟩
      have hstep := Ledger.Step.notPaid (c := c) (o := o) (w.ledger c o) n f _
        [.tell c o .paymentTrying] hother hf fun b hb => List.mem_singleton.mp hb
      rw [← hshow .paymentPending] at hstep
      exact hstep
    · refine ⟨_, _, rfl, ?_⟩
      have hstep := Ledger.Step.notPaid (c := c) (o := o) (w.ledger c o) n f _ [] hother hf
        fun b hb => absurd hb List.not_mem_nil
      rw [← hl] at hstep
      exact hstep

theorem messagingFailed_does (m : MessageType) (hf : v.faults.payment = w.faults.payment)
    (ht : v.InTime s o) :
    (messagingFailed s c o m f v).Does c o (w.ledger c o) (.attempt ⟨c, .messaging o m⟩ n) := by
  have hl := ledger_unpopped (c := c) (o := o) hv hf
  simp only [messagingFailed, ht.message, Bool.not_false, Bool.and_true]
  rw [← hl]
  split
  · exact ⟨_, _, rfl, .putOff _ _ n _ [.escalate c o] rfl fun b hb => List.mem_singleton.mp hb⟩
  · next hn =>
    have hneeds : (v.ledger c o).order.needsMessage m = false := by
      simpa [World.ledger, Order.needsMessage_bare] using hn
    exact ⟨_, _, rfl,
      .settled _ _ n _ _ rfl (Task.isSettled_messaging hneeds) fun _ => rfl⟩

theorem escalationFailed_does (hf : v.faults.payment = w.faults.payment) (ht : v.InTime s o) :
    (escalationFailed s c o f v).Does c o (w.ledger c o) (.attempt ⟨c, .escalation o⟩ n) := by
  have hl := ledger_unpopped (c := c) (o := o) hv hf
  simp only [escalationFailed, ht.employee, Bool.not_false, Bool.and_true]
  rw [← hl]
  split
  · exact ⟨_, _, rfl, .putOff _ _ n _ [] rfl fun b hb => absurd hb List.not_mem_nil⟩
  · next hn =>
    have hescalated : (v.ledger c o).order.escalated = true := by
      simpa [World.ledger, Order.bare] using hn
    exact ⟨_, _, rfl,
      .settled _ _ n _ _ rfl (Task.isSettled_employeeDb hescalated) fun _ => rfl⟩

end Failed

/-! ## Attempts that find nothing to do -/

theorem skipped_does (work : Work) (n : UInt32) (hwork : work.Fits o (w.order o).payment)
    (hn : needed ⟨c, work⟩ w = false) :
    (skipped ⟨c, work⟩ w).Does c o (w.ledger c o) (.attempt ⟨c, work⟩ n) := by
  cases work with
  | payment p =>
    cases hwork
    have hp : (w.order o).payment ≠ .trying := by simpa [needed] using hn
    exact ⟨_, _, rfl, .settled _ _ n _ _ rfl (Task.isSettled_payment hp) fun _ => rfl⟩
  | messaging p m =>
    obtain ⟨rfl, -⟩ := hwork
    have hm : (w.ledger c p).order.needsMessage m = false :=
      (Order.needsMessage_bare m _).trans hn
    exact ⟨_, _, rfl, .settled _ _ n _ _ rfl (Task.isSettled_messaging hm) fun _ => rfl⟩
  | escalation p =>
    cases hwork
    have he : (w.order o).escalated = true := by simpa [needed] using hn
    exact ⟨_, _, rfl, .settled _ _ n _ _ rfl (Task.isSettled_employeeDb he) fun _ => rfl⟩
  | drain => exact ⟨_, _, rfl, .unneeded _ n⟩
  | shipping | add | dequeue => cases hn

/-! ## Visits -/

theorem visit_does (hs : s.Inline) (n : UInt32) (t : Task) (rest : List Task)
    (hstore : w.collaborators.store = t :: rest) (ht : t.order = o) :
    (visit s c t w).Does c o (w.ledger c o) (.attempt ⟨c, .drain⟩ n) := by
  have hl (r : Remark) : ((w.visited t).remark r).ledger c o =
      { w.ledger c o with store := t.markFirstAttempt w.now :: rest } := by
    have hmark : (w.collaborators.markHead w.now).store = t.markFirstAttempt w.now :: rest := by
      simp only [Collaborators.markHead, hstore]
    simp only [World.visited, World.ledger, World.remark, World.record, hmark]
    rfl
  have hsettled : (t.markFirstAttempt w.now).isSettled ((w.visited t).order t.order) =
      t.isSettled (w.ledger c o).order := by
    rw [ht]
    rfl
  obtain ⟨r, -, hf, hv⟩ | ⟨r, -, hf, hv⟩ := visit_cases (s := s) c t w
  · refine ⟨_, _, hv, ?_⟩
    rw [hl]
    refine .dropped _ n t rest w.now hstore fun hfirst => ?_
    obtain hdone | ⟨first, hmark, hover⟩ := hf
    · rw [← hsettled]
      exact hdone
    · have hnow : first = w.now := by
        simpa [Task.markFirstAttempt, Task.firstVisit, hfirst] using hmark.symm
      have hzero : (w.visited t).now.since first = 0 := by
        rw [hnow]
        exact congrArg Int.toNat (Int.sub_self w.now)
      rw [hzero] at hover
      exact absurd hs.queueTask (Nat.not_lt.mpr hover)
  · refine ⟨_, _, hv, ?_⟩
    rw [hl]
    refine .retried _ n t rest w.now hstore ?_
    rw [← hsettled]
    cases hdone : (t.markFirstAttempt w.now).isSettled ((w.visited t).order t.order) with
    | false => rfl
    | true => exact absurd (Or.inl hdone) hf

/-! ## Accepted calls -/

theorem counted_modify (w : World) (f : Nat → Nat) :
    (w.queued.modify c f)[c]? = w.queued[c]?.map f := by
  rw [List.getElem?_modify]
  simp

section Accepted
variable {n : UInt32} {r : Receipt} {empty : Bool}

/-- What an accepted call about the order marks on the ledger. -/
theorem ledger_marked (work : Work) (empty : Bool) (ho : o < w.orders.length)
    (hwork : work.checked? = some o) :
    (fulfil work empty w).1.ledger c o =
      { w.ledger c o with order := (work.mark (w.order o)).bare } := by
  have hv := order_fulfil work empty w o
  rw [if_pos ⟨hwork, ho⟩] at hv
  rw [ledger_fulfil, hv]
  cases work with
  | payment | messaging | escalation => rfl
  | shipping | add | drain | dequeue => cases hwork

theorem accepted_does (hs : s.Inline) (work : Work) (ho : o < w.orders.length)
    (hwork : work.Fits o (w.order o).payment)
    (htasks : ∀ t ∈ w.collaborators.store, t.order = o) (hn : needed ⟨c, work⟩ w = true)
    (hfaults : w.faults.get work.service = []) (hr : (fulfil work empty w).2 = .accepted r) :
    (succeeded s ⟨c, work⟩ r (fulfil work empty w).1).Does c o (w.ledger c o)
      (.attempt ⟨c, work⟩ n) := by
  cases work with
  | shipping p =>
    cases hwork
    cases hr
    have hl : (fulfil (.shipping o) empty w).1.ledger c o =
        { w.ledger c o with shipped := true } := by
      rw [ledger_fulfil]
      simp only [decide_true, Bool.true_or]
      rfl
    exact (Ledger.Step.shipped (w.ledger c o) n).does hl
  | payment p =>
    cases hwork
    cases hr
    have hp : (w.order o).payment = .trying := by simpa [needed] using hn
    have hl := ledger_marked (c := c) (.payment o) empty ho rfl
    generalize (fulfil (.payment o) empty w).1 = u at hl
    have hshow := (u.remark (.paid (u.idOf o)
      (w.collaborators.pay (w.order o).price w.now).1)).ledger_showNotice c o .paymentSuccessful
    exact (Ledger.Step.paid (w.ledger c o) n hp hfaults).does (hshow.trans hl)
  | messaging p m =>
    obtain ⟨rfl, -⟩ := hwork
    cases hr
    have hm : (w.ledger c p).order.needsMessage m = true :=
      (Order.needsMessage_bare m _).trans hn
    have hl := ledger_marked (c := c) (.messaging p m) empty ho rfl
    exact (Ledger.Step.told (w.ledger c p) n m hm).does hl
  | escalation p =>
    cases hwork
    have hl := ledger_marked (c := c) (.escalation o) empty ho rfl
    exact (Ledger.Step.handed (w.ledger c o) n).does hl
  | add t =>
    cases hr
    have hl : ((fulfil (.add t) empty w).1.countUp c).ledger c o =
        { w.ledger c o with
          store := (w.ledger c o).store ++ [t]
          counted := (w.ledger c o).counted.map (· + 1) } := by
      have hc := counted_modify (c := c) w (· + 1)
      simp only [World.countUp, World.ledger, fulfil, World.accept, World.record, hc]
      rfl
    exact (Ledger.Step.added (w.ledger c o) n t).does hl
  | drain =>
    cases hstore : w.collaborators.store with
    | nil => cases empty <;> simp [fulfil, Collaborators.head?, hstore] at hr
    | cons t rest =>
      have hhead : w.collaborators.head? = some t := by
        rw [Collaborators.head?, hstore]
        rfl
      have hempty : empty = false := by
        cases empty with
        | false => rfl
        | true => cases hr
      subst hempty
      simp only [fulfil, hhead, Bool.false_eq_true, if_false] at hr ⊢
      cases hr
      have ht : t.order = o := htasks t (by rw [hstore]; exact List.mem_cons_self ..)
      exact visit_does (w := (w.accept .peek (.head (some t))).1) hs n t rest hstore ht
  | dequeue =>
    cases hstore : w.collaborators.store with
    | nil =>
      simp only [fulfil, Collaborators.take?, hstore] at hr
      cases hr
    | cons t rest =>
      have htake : w.collaborators.take? =
          some (t, { w.collaborators with store := rest }) := by
        simp only [Collaborators.take?, hstore]
      simp only [fulfil, htake] at hr ⊢
      cases hr
      have hc := counted_modify (c := c) w (· - 1)
      refine (Ledger.Step.removed (w.ledger c o) n t rest hstore).does ?_
      simp only [World.countDown, World.ledger, World.accept, World.record, World.remark, hc]
      rfl

/-- A look at the queue, or a removal, that finds nothing. -/
theorem emptied_does (work : Work) (hr : (fulfil work false w).2 = .refused .queueEmpty) :
    (failed s ⟨c, work⟩ n .queueEmpty (fulfil work false w).1).Does c o (w.ledger c o)
      (.attempt ⟨c, work⟩ n) := by
  have hrepeats (limit attempts : UInt32) :
      Retry.repeats limit attempts (Failure.isOutage .queueEmpty) = false := rfl
  simp only [failed, hrepeats, Bool.false_eq_true, if_false]
  cases work with
  | shipping | payment | messaging | add => cases hr
  | escalation => cases hr
  | drain =>
    cases hstore : w.collaborators.store with
    | nil =>
      have hhead : w.collaborators.head? = none := by
        rw [Collaborators.head?, hstore]
        rfl
      simp only [fulfil, hhead, Bool.false_eq_true, if_false]
      exact (Ledger.Step.nothingThere (w.ledger c o) .drain n rfl hstore).does rfl
    | cons t rest =>
      simp only [fulfil, Collaborators.head?, hstore] at hr
      cases hr
  | dequeue =>
    cases hstore : w.collaborators.store with
    | nil =>
      have htake : w.collaborators.take? = none := by simp only [Collaborators.take?, hstore]
      simp only [fulfil, htake]
      exact (Ledger.Step.nothingThere (w.ledger c o) .dequeue n rfl hstore).does rfl
    | cons t rest =>
      simp only [fulfil, Collaborators.take?, hstore] at hr
      cases hr

end Accepted

/-! ## All attempts -/

/-- A scripted failure is taken off the script of the service it is met at. -/
theorem pops_of_fault {v : World} (work : Work) {f : Failure} {rest : Faults}
    (hf : w.faults.get work.service = f :: rest)
    (hv : v.faults = w.faults.set rest work.service) :
    (w.ledger c o).Pops work f v.faults.payment := by
  rw [Ledger.Pops, hv]
  cases work <;> first | rfl | exact hf

theorem attempt_does (hs : s.Inline) (work : Work) (n : UInt32) (ho : o < w.orders.length)
    (hwork : work.Fits o (w.order o).payment)
    (htasks : ∀ t ∈ w.collaborators.store, t.order = o) (hw : w.Steady) (hu : w.Unlocked)
    (ht : w.InTime s o) :
    (attempt s ⟨c, work⟩ n w).Does c o (w.ledger c o) (.attempt ⟨c, work⟩ n) := by
  have unanswered {k : CallKind} {r : Reply} (h : (k, r) ∈ w.replies) : False := by
    rw [hw.replies] at h
    exact List.not_mem_nil h
  have h := attempt_course (s := s) ⟨c, work⟩ n w hu hw.whole
  generalize attempt s ⟨c, work⟩ n w = x at h
  cases h with
  | fault f rest v hf hfaults hreplies hv hc hclock =>
    have hpops := pops_of_fault (c := c) (o := o) work hf hfaults
    have htv : v.InTime s o := ht.of_eq (World.orders_of_holdings hv) hclock
    have hq : work.service ≠ .queue := fun hq => by
      have hnil : w.faults.get work.service = [] := by rw [hq]; exact hw.queue
      rw [hnil] at hf
      cases hf
    refine failed_does hv work hq hpops ?_
    cases work with
    | shipping p =>
      cases hwork
      exact shippingFailed_does hv hpops.symm
    | payment p =>
      cases hwork
      exact paymentFailed_does hv (hc.unlocked hu) ho hpops
    | messaging p m =>
      obtain ⟨rfl, -⟩ := hwork
      exact messagingFailed_does hv m hpops.symm htv
    | escalation p =>
      cases hwork
      exact escalationFailed_does hv hpops.symm htv
    | add | drain | dequeue => exact absurd rfl hq
  | skipped _ hn => exact skipped_does work n hwork hn
  | refused r f v hr _ _ _ _ => exact (unanswered hr).elim
  | panicked r v hr _ _ => exact (unanswered hr).elim
  | accepted r v empty hn hf hfaults hv hr _ =>
    have hl := ledger_unpopped (c := c) (o := o) hv (by rw [hfaults])
    have ho' : o < v.orders.length := by
      rw [World.orders_of_holdings hv]
      exact ho
    have hwork' : work.Fits o (v.order o).payment := by
      rw [World.order_of_holdings hv]
      exact hwork
    have htasks' : ∀ t ∈ v.collaborators.store, t.order = o := by
      rw [World.collaborators_of_holdings hv]
      exact htasks
    rw [← hl]
    exact accepted_does hs work ho' hwork' htasks' hn (by rw [hfaults]; exact hf) hr
  | emptied v empty _ hfaults hv hr hempty _ =>
    have hplain : empty = false := by
      cases hb : empty with
      | false => rfl
      | true =>
        obtain ⟨r, hr⟩ := hempty hb
        exact (unanswered hr).elim
    subst hplain
    have hl := ledger_unpopped (c := c) (o := o) hv (by rw [hfaults])
    rw [← hl]
    exact emptied_does work hr

/-! ## All actions -/

theorem perform_does (hs : s.Inline) {a : Action} (ho : o < w.orders.length)
    (ha : a.Fits c o (w.order o).payment)
    (htasks : ∀ t ∈ w.collaborators.store, t.order = o) (hw : w.Steady) (hu : w.Unlocked)
    (ht : w.InTime s o) : (perform s a w).Does c o (w.ledger c o) a := by
  cases a with
  | place d p =>
    obtain ⟨rfl, rfl⟩ := ha
    exact (Ledger.Step.placing _).does rfl
  | pay d p =>
    obtain ⟨rfl, rfl⟩ := ha
    simp only [perform, pay, ht.payment, Bool.false_eq_true, if_false]
    exact spawn_does hs hw.isOpen rfl
  | tell d p m =>
    obtain ⟨rfl, rfl, -⟩ := ha
    simp only [perform, tell, ht.message, Bool.false_eq_true, if_false]
    exact spawn_does hs hw.isOpen rfl
  | escalate d p =>
    obtain ⟨rfl, rfl⟩ := ha
    simp only [perform, escalate, ht.employee, Bool.false_eq_true, if_false]
    exact spawn_does hs hw.isOpen rfl
  | enqueue d t =>
    obtain ⟨rfl, hto, -⟩ := ha
    subst hto
    simp only [perform, enqueue, ht.queue, Bool.false_eq_true, if_false, hs.hasStore, if_true]
    split
    · next hdone => exact (Ledger.Step.alreadyDone _ t hdone).does rfl
    · exact spawn_does hs hw.isOpen rfl
  | deferPayment d p =>
    obtain ⟨rfl, rfl⟩ := ha
    simp only [perform, deferPayment, ht.payment, Bool.not_false, Bool.and_true, decide_eq_true_eq]
    split
    · exact (Ledger.Step.deferred _).does rfl
    · next hp => exact (Ledger.Step.notDeferred (w.ledger d p) hp).does rfl
  | drain d =>
    cases ha
    simp only [perform, hs.hasStore, if_true]
    exact spawn_does hs hw.isOpen rfl
  | dequeue d =>
    cases ha
    simp only [perform, hs.hasStore, if_true]
    exact spawn_does hs hw.isOpen rfl
  | settleDrain d =>
    cases ha
    simp only [perform, settleDrain]
    split
    · next hc =>
      have hcounted : (w.ledger c o).counted.getD 0 = 0 := by
        rw [World.queuedItems, List.getD_eq_getElem?_getD] at hc
        exact hc
      exact (Ledger.Step.drained _ hcounted).does rfl
    · exact (Ledger.Step.drainsOn _ _).does rfl
  | attempt j n =>
    obtain ⟨d, work⟩ := j
    obtain ⟨rfl, hwork⟩ := ha
    exact attempt_does hs work n ho hwork htasks hw hu ht
  | pause d =>
    have hserves : ¬ (s.dispatch = .deferred ∧ 0 < s.sleepRuns) := by
      rw [hs.dispatch]
      exact fun h => by cases h.1
    simp only [perform, pause, if_neg hserves]
    refine (Ledger.Step.idle _ _ rfl).does ?_
    split <;> rfl
  | finish j =>
    simp only [perform, finished, hs.dispatch]
    exact (Ledger.Step.idle _ _ rfl).does rfl
  | placed p => exact (Ledger.Step.idle _ _ rfl).does rfl
  | escalateTask | conclude | serve => exact ha.elim

end Attempts
end Fulfilment
