import Fulfilment.Proofs.Books.Basic

/-! What an action does, said once: the change it makes in the books, and what it leaves to do.

* `Success`: what becomes of an accepted call.
* `Setback`: what a failure that is handed over leads to.
* `Effect`: all that performing an action can come to, in any mode of dispatch and with any scripts.
* `perform_effect`: an action performed as a whole has such an effect. -/
namespace Fulfilment

set_option autoImplicit false

/-! ## Failures -/

/-- The service has the failure scripted, by itself or in reply to a call. -/
def World.Fails (w : World) (work : Work) (f : Failure) : Prop :=
  (∃ rest, w.faults.get work.service = f :: rest) ∨
    ∃ r, (work.callKind, r) ∈ w.replies ∧ r.failure = some f

/-- A look into the queue store, or a removal from it. -/
def Work.probes : Work → Bool
  | .drain => true
  | .dequeue => true
  | _ => false

/-! ## Tasks -/

/-- The same task, perhaps visited since. -/
def Task.Becomes (t u : Task) : Prop := u = t ∨ ∃ now, u = t.markFirstAttempt now

theorem Task.markFirstAttempt_twice (t : Task) (now later : Instant) :
    (t.markFirstAttempt now).markFirstAttempt later = t.markFirstAttempt now := rfl

theorem Task.Becomes.mark {t u : Task} (h : t.Becomes u) (now : Instant) :
    t.Becomes (u.markFirstAttempt now) := by
  obtain rfl | ⟨first, rfl⟩ := h
  · exact .inr ⟨now, rfl⟩
  · exact .inr ⟨first, t.markFirstAttempt_twice first now⟩

/-! ## Effects -/

section Effects
variable (s : Setup)

inductive Success (b : Books) (c : CoordinatorRef) : Work → World → List Action → Prop
  | shipped (o : OrderRef) (r : Receipt) (v : World)
      (hv : v.books =
        b.deed (.answered (.shipping o (b.order o).item (b.order o).customer.address) r)) :
      Success b c (.shipping o) v [.pay c o]
  | paid (o : OrderRef) (r : Receipt) (v : World) (hp : (b.order o).payment = .trying)
      (hv : v.books = ((b.deed (.answered (.payment o (b.order o).price) r)).pay o .done).note o
        .paymentSuccessful) :
      Success b c (.payment o) v [.tell c o .paymentSuccess]
  | told (o : OrderRef) (m : MessageType) (r : Receipt) (v : World)
      (hm : (b.order o).needsMessage m = true)
      (hv : v.books = (b.deed (.answered (.messaging o m) r)).change o fun x =>
        { x with sent := .ofMessage m }) :
      Success b c (.messaging o m) v []
  | handed (o : OrderRef) (r : Receipt) (v : World) (he : (b.order o).escalated = false)
      (hv : v.books =
        { (b.deed (.answered (.employee o) r)).change o fun x => { x with escalated := true } with
          employee := (b.employee.insertIfAbsent (b.order o).id (b.order o).snapshot).2 }) :
      Success b c (.escalation o) v []
  | added (t : Task) (v : World)
      (hv : v.books =
        { b.deed (.answered (.add t) .stored) with
          store := b.store ++ [t]
          added := b.added ++ [t.type]
          queued := b.queued.modify c (· + 1) }) :
      Success b c (.add t) v [.drain c]
  | visited (t : Task) (rest : List Task) (now : Instant) (v : World) (hs : b.store = t :: rest)
      (hc : 0 < b.counted c) (hf : ¬ (t.markFirstAttempt now).Finished s v)
      (hv : v.books = { b with store := t.markFirstAttempt now :: rest }) :
      Success b c .drain v [t.retry c, .settleDrain c]
  | condemned (t : Task) (rest : List Task) (now : Instant) (r : Remark) (v : World)
      (hs : b.store = t :: rest) (hc : 0 < b.counted c) (hr : r.isDropping = true)
      (hf : (t.markFirstAttempt now).Finished s v)
      (hv : v.books = { b.deed (.remarked r) with store := t.markFirstAttempt now :: rest }) :
      Success b c .drain v [.dequeue c, .settleDrain c]
  | removed (t : Task) (rest : List Task) (v : World) (hs : b.store = t :: rest)
      (hv : v.books =
        { b.deed (.answered .dequeue (.taken t)) with
          store := rest
          queued := b.queued.modify c (· - 1) }) :
      Success b c .dequeue v []

inductive Setback (b : Books) (c : CoordinatorRef) : Work → Failure → World → List Action → Prop
  | turnedAway (o : OrderRef) (f : Failure) (n : SiteNotice) (v : World)
      (hn : n = .shippingNotPossible ∨ n = .itemUnavailable) (hv : v.books = b.note o n) :
      Setback b c (.shipping o) f v [.escalate c o]
  | notPlaced (o : OrderRef) (f : Failure) (v : World) (hv : v.books = b.note o .orderNotPlaced) :
      Setback b c (.shipping o) f v []
  | declined (o : OrderRef) (v : World) (hp : (b.order o).payment = .trying)
      (hv : v.books = (b.note o .paymentDetailsInvalid).pay o .notDone) :
      Setback b c (.payment o) .paymentDetailsError v [.tell c o .paymentFail]
  | declinedLate (o : OrderRef) (v : World) (hp : (b.order o).payment ≠ .trying)
      (hv : v.books = b.note o .paymentDetailsInvalid) :
      Setback b c (.payment o) .paymentDetailsError v []
  | unpaid (o : OrderRef) (f : Failure) (v : World) (hf : f ≠ .paymentDetailsError)
      (hs : (b.order o).sent = .noneSent) (hv : v.books = b.note o .paymentPending) :
      Setback b c (.payment o) f v [.tell c o .paymentTrying, .deferPayment c o]
  | stillUnpaid (o : OrderRef) (f : Failure) (v : World) (hf : f ≠ .paymentDetailsError)
      (hs : (b.order o).sent ≠ .noneSent) (hv : v.books = b) :
      Setback b c (.payment o) f v [.deferPayment c o]
  | undelivered (o : OrderRef) (m : MessageType) (f : Failure) (v : World)
      (hm : (b.order o).needsMessage m = true)
      (ht : v.budgetExceeded o s.config.limits.message = false) (hv : v.books = b) :
      Setback b c (.messaging o m) f v [.enqueue c (.messaging o m), .escalate c o]
  | givenUp (o : OrderRef) (m : MessageType) (f : Failure) (v : World)
      (hm : (b.order o).needsMessage m = false ∨
        v.budgetExceeded o s.config.limits.message = true) (hv : v.books = b) :
      Setback b c (.messaging o m) f v []
  | unattended (o : OrderRef) (f : Failure) (v : World) (he : (b.order o).escalated = false)
      (ht : v.budgetExceeded o s.config.limits.employee = false) (hv : v.books = b) :
      Setback b c (.escalation o) f v [.enqueue c (.employeeDb o)]
  | leftAlone (o : OrderRef) (f : Failure) (v : World)
      (he : (b.order o).escalated = true ∨
        v.budgetExceeded o s.config.limits.employee = true) (hv : v.books = b) :
      Setback b c (.escalation o) f v []
  | notQueued (t : Task) (f : Failure) (v : World) (htype : t.type = .payment)
      (hp : (b.order t.order).payment = .trying) (hv : v.books = b.pay t.order .notDone) :
      Setback b c (.add t) f v [.tell c t.order .paymentFail, .escalateTask c t f]
  | notAdded (t : Task) (f : Failure) (v : World)
      (hp : t.type = .payment → (b.order t.order).payment ≠ .trying) (hv : v.books = b) :
      Setback b c (.add t) f v [.escalateTask c t f]
  | unseen (work : Work) (f : Failure) (v : World) (hw : work.probes = true) (hv : v.books = b) :
      Setback b c work f v []

/-- The coordinator that an action belongs to. -/
def Action.owner? : Action → Option CoordinatorRef
  | .place c _ => some c
  | .pay c _ => some c
  | .tell c _ _ => some c
  | .escalate c _ => some c
  | .enqueue c _ => some c
  | .deferPayment c _ => some c
  | .escalateTask c _ _ => some c
  | .drain c => some c
  | .dequeue c => some c
  | .settleDrain c => some c
  | .attempt j _ => some j.owner
  | .conclude j _ _ => some j.owner
  | _ => none

/-- The job that an action spawns. -/
structure Action.Spawns (a : Action) (j : Job) : Prop where
  owner : a.owner? = some j.owner
  work : a.work? = some j.work

/-- The action finds nothing to do. -/
def Action.Passes (w : World) : Action → Prop
  | .pay _ o =>
    (w.order o).payment ≠ .trying ∧ w.budgetExceeded o s.config.limits.payment = true
  | .tell _ o _ => w.budgetExceeded o s.config.limits.message = true
  | .escalate _ o => w.budgetExceeded o s.config.limits.employee = true
  | .enqueue _ t =>
    w.budgetExceeded t.order s.config.limits.queue = true ∨
      t.isSettled (w.order t.order) = true ∨ s.hasStore = false
  | .deferPayment _ o =>
    (w.order o).payment ≠ .trying ∨ w.budgetExceeded o s.config.limits.payment = true
  | .drain _ => s.hasStore = false
  | .dequeue _ => s.hasStore = false
  | .settleDrain c => w.queuedItems c = 0
  | _ => False

inductive Effect (w : World) : Action → World → List Action → Prop
  | idle {a : Action} (v : World) (todo : List Action) (ha : a.isIdle = true)
      (ht : ∀ b ∈ todo, ∃ n, b = .serve n) (hv : v.books = w.books) : Effect w a v todo
  | placing (c : CoordinatorRef) (o : OrderRef) (v : World) (hv : v.books = w.books) :
      Effect w (.place c o) v [.attempt ⟨c, .shipping o⟩ 0, .placed o]
  | waiting {a : Action} (j : Job) (v : World) (hj : a.Spawns j)
      (hv : v.books = { w.books with pending := w.pending ++ [j] }) : Effect w a v []
  | started {a : Action} (j : Job) (v : World) (hj : a.Spawns j) (hv : v.books = w.books) :
      Effect w a v [.attempt j 0, .finish j]
  | lost {a : Action} (j : Job) (v : World) (hj : a.Spawns j) (hw : ¬ w.Open)
      (hv : v.books = w.books) : Effect w a v []
  | passed {a : Action} (v : World) (ha : a.Passes s w) (hv : v.books = w.books) : Effect w a v []
  | expired (c : CoordinatorRef) (o : OrderRef) (v : World) (hp : (w.order o).payment = .trying)
      (ht : w.budgetExceeded o s.config.limits.payment = true)
      (hv : v.books = w.books.pay o .notDone) : Effect w (.pay c o) v [.tell c o .paymentFail]
  | deferring (c : CoordinatorRef) (o : OrderRef) (v : World)
      (hp : (w.order o).payment = .trying)
      (ht : w.budgetExceeded o s.config.limits.payment = false) (hv : v.books = w.books) :
      Effect w (.deferPayment c o) v [.enqueue c (.payment o), .escalate c o]
  | escalating (c : CoordinatorRef) (t : Task) (f : Failure) (v : World)
      (hv : v.books = w.books) : Effect w (.escalateTask c t f) v [.escalate c t.order]
  | drainingOn (c : CoordinatorRef) (d : Span) (v : World) (hc : w.queuedItems c ≠ 0)
      (hv : v.books = w.books) : Effect w (.settleDrain c) v [.pause d, .drain c]
  | again (j : Job) (n m : UInt32) (d : Span) (f : Failure) (v : World) (hf : w.Fails j.work f)
      (hv : v.books = w.books) : Effect w (.attempt j n) v [.pause d, .attempt j m]
  | unneeded (j : Job) (n : UInt32) (v : World) (hn : needed j w = false)
      (hv : v.books = w.books) :
      Effect w (.attempt j n) v (if j.work = .drain then [.settleDrain j.owner] else [])
  | crashed (j : Job) (n : UInt32) (r : Reply) (v : World)
      (hr : (j.work.callKind, r) ∈ w.replies) (hp : r.panics = true)
      (hv : v.books = w.books.deed (.panicked (callOf j.work w))) : Effect w (.attempt j n) v []
  | succeeded (c : CoordinatorRef) (work : Work) (n : UInt32) (v : World) (todo : List Action)
      (h : Success s w.books c work v todo) : Effect w (.attempt ⟨c, work⟩ n) v todo
  | failed (c : CoordinatorRef) (work : Work) (n : UInt32) (f : Failure) (v : World)
      (todo : List Action) (hf : w.Fails work f ∨ work.probes = true)
      (h : Setback s w.books c work f v todo) : Effect w (.attempt ⟨c, work⟩ n) v todo

end Effects

/-- No lock is taken twice, and the world after the action and what is left to do have the property;
nothing is left to do after a panic. -/
def Outcome.Meets (P : World → List Action → Prop) : Outcome → Prop
  | .next v todo => P v todo
  | .panic v => P v []
  | .stuck _ => False

theorem Outcome.Meets.mono {P Q : World → List Action → Prop} {x : Outcome} (h : x.Meets P)
    (hPQ : ∀ v todo, P v todo → Q v todo) : x.Meets Q := by
  cases x with
  | next v todo => exact hPQ v todo h
  | panic v => exact hPQ v [] h
  | stuck v => exact h

section Performing
variable {s : Setup}

/-! ## Jobs -/

theorem spawn_effect {a : Action} {j : Job} (hj : a.Spawns j) (w : World) :
    (spawn s j w).Meets (Effect s w a) := by
  have hspawned : (w.record (.spawned j)).books = w.books := w.books_record rfl
  have enlisted (u : World) (hu : u.books = w.books) : Effect s w a (u.enlist j) [] := by
    refine .waiting j _ hj ?_
    rw [← World.pending_of_books hu, ← hu]
    rfl
  -- The job waits, starts at once, or is lost where jobs are turned away.
  simp only [spawn]
  split
  · exact enlisted _ hspawned
  · split
    · next hexhausted =>
      refine .lost j _ hj (fun hopen => ?_) ((World.books_record _ rfl).trans hspawned)
      have hnone : (w.record (.spawned j)).allowance = none := hopen.1
      simp [World.isExhausted, hnone] at hexhausted
    · have hspent : (w.record (.spawned j)).spendAllowance.books = w.books := hspawned
      generalize hu : (w.record (.spawned j)).spendAllowance = u at hspent
      simp only [launch]
      split
      · exact .started j _ hj ((u.books_record rfl).trans hspent)
      · split
        · next hclosed =>
          refine .lost j _ hj (fun hopen => ?_) ((World.books_remark _ rfl).trans hspent)
          have hfalse : u.closed = false := by
            rw [← hu]
            exact hopen.2
          rw [hfalse] at hclosed
          cases hclosed
        · exact enlisted { u with stats := u.stats.accepted } hspent
      · exact enlisted u hspent

/-! ## Accepted calls -/

theorem visit_success (c : CoordinatorRef) (t : Task) (rest : List Task) (w : World)
    (hs : w.collaborators.store = t :: rest) (hc : 0 < w.queuedItems c) :
    (visit s c t w).Meets (Success s w.books c .drain) := by
  have hmark : w.collaborators.markHead w.now =
      { w.collaborators with store := t.markFirstAttempt w.now :: rest } := by
    simp only [Collaborators.markHead, hs]
  have hvisited : (w.visited t).books =
      { w.books with store := t.markFirstAttempt w.now :: rest } := by
    rw [World.visited, hmark, World.books, World.books]
    rfl
  obtain ⟨r, hr, hf, hv⟩ | ⟨r, hr, hf, hv⟩ := visit_cases (s := s) c t w
  · rw [hv]
    refine .condemned t rest w.now r _ hs hc hr hf ?_
    rw [World.books_remark_dropping _ hr, hvisited]
    rfl
  · rw [hv]
    exact .visited t rest w.now _ hs hc hf ((World.books_remark _ hr).trans hvisited)

theorem succeeded_success (c : CoordinatorRef) (work : Work) (r : Receipt) (empty : Bool)
    (w : World) (hn : needed ⟨c, work⟩ w = true) (hr : (fulfil work empty w).2 = .accepted r) :
    (succeeded s ⟨c, work⟩ r (fulfil work empty w).1).Meets (Success s w.books c work) := by
  cases work with
  | shipping o =>
    cases hr
    exact .shipped o _ _ rfl
  | payment o =>
    cases hr
    have hp : (w.order o).payment = .trying := by simpa [needed] using hn
    refine .paid o (.transaction (w.collaborators.pay (w.order o).price w.now).1) _ hp ?_
    rw [World.books_showNotice]
    rfl
  | messaging o m =>
    cases hr
    exact .told o m _ _ hn rfl
  | escalation o =>
    have he : (w.order o).escalated = false := by simpa [needed] using hn
    have hemployee := employee_fulfil (.escalation o) empty w
    have hstore := store_fulfil (.escalation o) empty w
    have horders := orders_fulfil (.escalation o) empty w
    have hqueued := fulfil_queued (.escalation o) empty w
    have hpending := fulfil_pending (.escalation o) empty w
    have hadded : (fulfil (.escalation o) empty w).1.collaborators.added =
        w.collaborators.added := by rw [collaborators_fulfil]; rfl
    obtain ⟨x, hdeeds⟩ := deeds_fulfil (.escalation o) empty w (by simp) (by simp)
    have hremark : (succeeded s ⟨c, .escalation o⟩ r (fulfil (.escalation o) empty w).1) =
        .next ((fulfil (.escalation o) empty w).1.remark
          (.escalated ((fulfil (.escalation o) empty w).1.idOf o))) [] := rfl
    rw [hremark]
    refine .handed o x _ he ?_
    rw [World.books_remark _ rfl, World.books, hemployee, hstore, horders, hqueued, hpending,
      hadded, hdeeds]
    rfl
  | add t =>
    cases hr
    exact .added t _ rfl
  | drain =>
    have hc : 0 < w.queuedItems c := by simpa [needed] using hn
    cases empty with
    | true => cases hr
    | false =>
      cases hs : w.collaborators.store with
      | nil =>
        simp only [fulfil, Collaborators.head?, hs] at hr
        cases hr
      | cons t rest =>
        have hhead : w.collaborators.head? = some t := by
          rw [Collaborators.head?, hs]
          rfl
        simp only [fulfil, hhead, Bool.false_eq_true, if_false] at hr ⊢
        cases hr
        have hbooks : (w.accept .peek (.head (some t))).1.books = w.books := w.books_record rfl
        rw [← hbooks]
        exact visit_success c t rest _ hs hc
  | dequeue =>
    cases hs : w.collaborators.store with
    | nil =>
      simp only [fulfil, Collaborators.take?, hs] at hr
      cases hr
    | cons t rest =>
      have htake : w.collaborators.take? =
          some (t, { w.collaborators with store := rest }) := by
        simp only [Collaborators.take?, hs]
      simp only [fulfil, htake] at hr ⊢
      cases hr
      exact .removed t rest _ hs rfl

/-! ## Failures handed over -/

theorem paymentFailed_setback (c : CoordinatorRef) (o : OrderRef) (f : Failure) (w : World)
    (hu : w.Unlocked) : (paymentFailed s c o f w).Meets (Setback s w.books c (.payment o) f) := by
  simp only [paymentFailed]
  split
  · next hkind =>
    have hdetails : f = .paymentDetailsError := by cases f <;> first | rfl | cases hkind
    subst hdetails
    have hshown := w.books_showNotice o .paymentDetailsInvalid
    have hpay : ((w.showNotice o .paymentDetailsInvalid).order o).payment =
        (w.order o).payment := by
      have hbare := w.books.bare_note o o .paymentDetailsInvalid
      rw [← hshown] at hbare
      exact (congrArg Order.payment hbare :)
    rw [failPayment_eq s o _ (hu.showNotice o _)]
    generalize w.showNotice o .paymentDetailsInvalid = u at hshown hpay
    by_cases hp : (w.order o).payment = .trying
    · have hfail : failPending o u = (u.setPayment o .notDone, true) := by
        rw [failPending, if_pos (hpay.trans hp)]
      rw [hfail]
      refine .declined o _ hp ?_
      rw [World.books_remark _ rfl, ← hshown]
      rfl
    · have hfail : failPending o u = (u, false) := by
        rw [failPending, if_neg (by rw [hpay]; exact hp)]
      rw [hfail]
      exact .declinedLate o _ hp ((World.books_remark _ rfl).trans hshown)
  · next hkind =>
    have hother : f ≠ .paymentDetailsError := fun h => hkind (by rw [h]; rfl)
    split
    · next hsent =>
      exact .unpaid o f _ hother hsent
        ((World.books_remark _ rfl).trans (w.books_showNotice o .paymentPending))
    · next hsent => exact .stillUnpaid o f _ hother hsent rfl

theorem addFailed_setback (c : CoordinatorRef) (t : Task) (f : Failure) (w : World)
    (hu : w.Unlocked) : (addFailed s c t f w).Meets (Setback s w.books c (.add t) f) := by
  simp only [addFailed]
  split
  · next htype =>
    rw [failPayment_eq s t.order w hu]
    by_cases hp : (w.order t.order).payment = .trying
    · have hfail : failPending t.order w = (w.setPayment t.order .notDone, true) := by
        rw [failPending, if_pos hp]
      rw [hfail]
      exact .notQueued t f _ htype hp (World.books_remark _ rfl)
    · have hfail : failPending t.order w = (w, false) := by rw [failPending, if_neg hp]
      rw [hfail]
      exact .notAdded t f _ (fun _ => hp) (World.books_remark _ rfl)
  · next htype => exact .notAdded t f _ (fun h => absurd h htype) rfl

theorem handOver_setback (c : CoordinatorRef) (work : Work) (f : Failure) (w : World)
    (hu : w.Unlocked) : (handOver s ⟨c, work⟩ f w).Meets (Setback s w.books c work f) := by
  cases work with
  | shipping o =>
    have hshown (n : SiteNotice) (r : Remark) (hr : r.isDropping = false) :
        ((w.showNotice o n).remark r).books = w.books.note o n :=
      (World.books_remark _ hr).trans (w.books_showNotice o n)
    simp only [handOver, shippingFailed]
    cases f.kind with
    | shippingNotPossible =>
      exact .turnedAway o f .shippingNotPossible _ (.inl rfl) (hshown _ _ rfl)
    | itemUnavailable => exact .turnedAway o f .itemUnavailable _ (.inr rfl) (hshown _ _ rfl)
    | _ => exact .notPlaced o f _ (hshown _ _ rfl)
  | payment o => exact paymentFailed_setback c o f w hu
  | messaging o m =>
    simp only [handOver, messagingFailed]
    split
    · next h =>
      simp only [Bool.and_eq_true, Bool.not_eq_true'] at h
      exact .undelivered o m f _ h.1 h.2 (w.books_remark rfl)
    · next h =>
      have hgiven : (w.order o).needsMessage m = false ∨
          w.budgetExceeded o s.config.limits.message = true := by
        by_cases hm : (w.order o).needsMessage m = true
        · simp only [hm, Bool.true_and, Bool.not_eq_true', Bool.not_eq_false] at h
          exact .inr h
        · exact .inl (by simpa using hm)
      exact .givenUp o m f _ hgiven (w.books_remark rfl)
  | escalation o =>
    simp only [handOver, escalationFailed]
    split
    · next h =>
      simp only [Bool.and_eq_true, Bool.not_eq_true'] at h
      exact .unattended o f _ h.1 h.2 (w.books_remark rfl)
    · next h =>
      have halone : (w.order o).escalated = true ∨
          w.budgetExceeded o s.config.limits.employee = true := by
        by_cases he : (w.order o).escalated = true
        · exact .inl he
        · simp only [he, Bool.not_false, Bool.true_and, Bool.not_eq_true', Bool.not_eq_false] at h
          exact .inr h
      exact .leftAlone o f _ halone rfl
  | add t => exact addFailed_setback c t f w hu
  | drain => exact .unseen .drain f _ rfl (w.books_remark rfl)
  | dequeue => exact .unseen .dequeue f _ rfl (w.books_remark rfl)

theorem failed_effect (c : CoordinatorRef) (work : Work) (n : UInt32) (f : Failure) {w v : World}
    (hv : v.books = w.books) (hu : v.Unlocked) (hf : w.Fails work f) :
    (failed s ⟨c, work⟩ n f v).Meets (Effect s w (.attempt ⟨c, work⟩ n)) := by
  simp only [failed]
  split
  · exact .again ⟨c, work⟩ n _ _ f _ hf hv
  · have hset := handOver_setback (s := s) c work f v hu
    rw [hv] at hset
    exact hset.mono fun u todo h => .failed c work n f u todo (.inl hf) h

theorem emptied_effect (c : CoordinatorRef) (work : Work) (n : UInt32) (empty : Bool)
    {w v : World} (hv : v.books = w.books)
    (hr : (fulfil work empty v).2 = .refused .queueEmpty) :
    (failed s ⟨c, work⟩ n .queueEmpty (fulfil work empty v).1).Meets
      (Effect s w (.attempt ⟨c, work⟩ n)) := by
  -- Finding nothing is no outage, so it is handed over at once.
  have hrepeats (limit attempts : UInt32) :
      Retry.repeats limit attempts (Failure.isOutage .queueEmpty) = false := rfl
  simp only [failed, hrepeats, Bool.false_eq_true, if_false]
  have unseen (u : World) (hprobes : work.probes = true) (hu : u.books = v.books) :
      Effect s w (.attempt ⟨c, work⟩ n) u [] :=
    .failed c work n .queueEmpty u [] (.inr hprobes) (.unseen work _ u hprobes (hu.trans hv))
  cases work with
  | shipping | payment | messaging | escalation | add => cases hr
  | drain =>
    refine unseen _ rfl ((World.books_remark _ rfl).trans ?_)
    cases empty with
    | true => rfl
    | false =>
      simp only [fulfil, Bool.false_eq_true, if_false]
      cases v.collaborators.head? <;> exact v.books_record rfl
  | dequeue =>
    refine unseen _ rfl ((World.books_remark _ rfl).trans ?_)
    cases hs : v.collaborators.store with
    | nil =>
      simp only [fulfil, Collaborators.take?, hs]
      exact v.books_record rfl
    | cons t rest =>
      simp only [fulfil, Collaborators.take?, hs] at hr
      cases hr

/-! ## Attempts -/

theorem callOf_of_books (work : Work) {w v : World} (h : v.books = w.books) :
    callOf work v = callOf work w := by
  cases work <;> simp only [callOf, World.order_of_books h]

theorem skipped_effect (j : Job) (n : UInt32) (w : World) (hn : needed j w = false) :
    (skipped j w).Meets (Effect s w (.attempt j n)) := by
  have h (v : World) (hv : v.books = w.books) := Effect.unneeded (s := s) j n v hn hv
  obtain ⟨c, work⟩ := j
  cases work with
  | payment | messaging => exact h _ (w.books_remark rfl)
  | shipping | escalation | add | drain | dequeue => exact h w rfl

theorem attempt_effect (j : Job) (n : UInt32) (w : World) (hu : w.Unlocked) (hw : w.Whole s) :
    (attempt s j n w).Meets (Effect s w (.attempt j n)) := by
  have h := attempt_course (s := s) j n w hu hw
  obtain ⟨c, work⟩ := j
  generalize attempt s ⟨c, work⟩ n w = x at h
  cases h with
  | fault f rest v hf hfaults hreplies hv hc hclock =>
    exact failed_effect c work n f (World.books_of_holdings hv) (hc.unlocked hu)
      (.inl ⟨rest, hf⟩)
  | skipped _ hn => exact skipped_effect _ n w hn
  | refused r f v hr hf _ hv hc =>
    exact failed_effect c work n f (World.books_of_holdings hv) (hc.unlocked hu)
      (.inr ⟨r, hr, hf⟩)
  | panicked r v hr hp hv =>
    have hbooks := World.books_of_holdings hv
    refine .crashed _ n r _ hr hp ?_
    rw [← callOf_of_books work hbooks, ← hbooks]
    rfl
  | accepted r v empty hn _ _ hv hr _ =>
    have hs := succeeded_success (s := s) c work r empty v hn hr
    rw [World.books_of_holdings hv] at hs
    exact hs.mono fun u todo h => .succeeded c work n u todo h
  | emptied v empty _ _ hv hr _ _ =>
    exact emptied_effect c work n empty (World.books_of_holdings hv) hr

/-! ## All actions -/

theorem pay_effect (c : CoordinatorRef) (o : OrderRef) (w : World) (hu : w.Unlocked) :
    (pay s c o w).Meets (Effect s w (.pay c o)) := by
  simp only [pay]
  split
  · next hlate =>
    rw [failPayment_eq s o w hu]
    by_cases hp : (w.order o).payment = .trying
    · have hfail : failPending o w = (w.setPayment o .notDone, true) := by
        rw [failPending, if_pos hp]
      rw [hfail]
      exact .expired c o _ hp hlate (World.books_remark _ rfl)
    · have hfail : failPending o w = (w, false) := by rw [failPending, if_neg hp]
      rw [hfail]
      exact .passed _ ⟨hp, hlate⟩ (w.books_remark rfl)
  · exact spawn_effect (j := ⟨c, .payment o⟩) ⟨rfl, rfl⟩ w

theorem enqueue_effect (c : CoordinatorRef) (t : Task) (w : World) :
    (enqueue s c t w).Meets (Effect s w (.enqueue c t)) := by
  simp only [enqueue]
  split
  · next h => exact .passed _ (.inl h) (w.books_remark rfl)
  · split
    · next h => exact .passed _ (.inr (.inl h)) (w.books_remark rfl)
    · split
      · exact spawn_effect (j := ⟨c, .add t⟩) ⟨rfl, rfl⟩ w
      · next h => exact .passed _ (.inr (.inr (by simpa using h))) (w.books_remark rfl)

theorem perform_effect (a : Action) (w : World) (hu : w.Unlocked) (hw : w.Whole s)
    (ha : a.isWhole = true) (hserve : ∀ count, a ≠ .serve count) :
    (perform s a w).Meets (Effect s w a) := by
  cases a with
  | place c o => exact .placing c o _ (w.books_remark rfl)
  | pay c o => exact pay_effect c o w hu
  | tell c o m =>
    simp only [perform, tell]
    split
    · next h => exact .passed _ h (w.books_remark rfl)
    · exact spawn_effect (j := ⟨c, .messaging o m⟩) ⟨rfl, rfl⟩ w
  | escalate c o =>
    simp only [perform, escalate]
    split
    · next h => exact .passed _ h (w.books_remark rfl)
    · exact spawn_effect (j := ⟨c, .escalation o⟩) ⟨rfl, rfl⟩ w
  | enqueue c t => exact enqueue_effect c t w
  | deferPayment c o =>
    simp only [perform, deferPayment]
    split
    · next h =>
      simp only [Bool.and_eq_true, decide_eq_true_eq, Bool.not_eq_true'] at h
      exact .deferring c o w h.1 h.2 rfl
    · next h =>
      refine .passed w ?_ rfl
      by_cases hp : (w.order o).payment = .trying
      · simp only [hp, decide_true, Bool.true_and, Bool.not_eq_true', Bool.not_eq_false] at h
        exact .inr h
      · exact .inl hp
  | escalateTask c t f => exact .escalating c t f _ (w.books_remark rfl)
  | drain c =>
    simp only [perform]
    split
    · exact spawn_effect (j := ⟨c, .drain⟩) ⟨rfl, rfl⟩ w
    · next h => exact .passed w (show s.hasStore = false by simpa using h) rfl
  | dequeue c =>
    simp only [perform]
    split
    · exact spawn_effect (j := ⟨c, .dequeue⟩) ⟨rfl, rfl⟩ w
    · next h => exact .passed w (show s.hasStore = false by simpa using h) rfl
  | settleDrain c =>
    simp only [perform, settleDrain]
    split
    · next h => exact .passed _ h (w.books_remark rfl)
    · next h => exact .drainingOn c _ w h rfl
  | attempt j n => exact attempt_effect j n w hu hw
  | conclude j n r => cases ha
  | pause d =>
    refine .idle _ _ rfl (fun b hb => ?_) ?_
    · split at hb
      · exact ⟨_, List.mem_singleton.mp hb⟩
      · exact absurd hb List.not_mem_nil
    · have hslept : (w.record (.slept d)).books = w.books := w.books_record rfl
      split
      · exact hslept
      · exact hslept
  | serve count => exact absurd rfl (hserve count)
  | finish j =>
    refine .idle _ _ rfl (fun b hb => absurd hb List.not_mem_nil) ?_
    simp only [finished]
    cases s.dispatch with
    | threads => rfl
    | deferred | inline | pool => exact World.books_record _ rfl
  | placed o => exact .idle w [] rfl (fun b hb => absurd hb List.not_mem_nil) rfl

end Performing

/-! ## Tasks and deeds -/

section Traces
variable {s : Setup} {w v : World} {a : Action} {todo : List Action}

/-- A task in the store was there before, or the action added it. -/
theorem Effect.task (h : Effect s w a v todo) : ∀ t ∈ v.collaborators.store,
    (∃ u ∈ w.collaborators.store, u.Becomes t) ∨ ∃ c n, a = .attempt ⟨c, .add t⟩ n := by
  have same {b : Books} (hv : v.books = b) (hb : b.store ⊆ w.books.store) :
      ∀ t ∈ v.collaborators.store, (∃ u ∈ w.collaborators.store, u.Becomes t) ∨
        ∃ c n, a = .attempt ⟨c, .add t⟩ n := by
    intro t ht
    have hs : v.collaborators.store = b.store := congrArg Books.store hv
    rw [hs] at ht
    exact .inl ⟨t, hb ht, .inl rfl⟩
  have marked {b : Books} {u : Task} {rest : List Task} {now : Instant} (hv : v.books = b)
      (hb : b.store = u.markFirstAttempt now :: rest) (hs : w.books.store = u :: rest) :
      ∀ t ∈ v.collaborators.store, (∃ u ∈ w.collaborators.store, u.Becomes t) ∨
        ∃ c n, a = .attempt ⟨c, .add t⟩ n := by
    intro t ht
    have hstore : v.collaborators.store = u.markFirstAttempt now :: rest :=
      (congrArg Books.store hv).trans hb
    have hbefore : w.collaborators.store = u :: rest := hs
    rw [hstore] at ht
    rw [hbefore]
    obtain rfl | ht := List.mem_cons.mp ht
    · exact .inl ⟨u, List.mem_cons_self .., .inr ⟨now, rfl⟩⟩
    · exact .inl ⟨t, List.mem_cons_of_mem _ ht, .inl rfl⟩
  cases h with
  | idle _ _ _ _ hv => exact same hv (List.Subset.refl _)
  | succeeded c work n _ _ hs =>
    cases hs with
    | added t _ hv =>
      intro u hu
      have hstore : v.collaborators.store = w.collaborators.store ++ [t] := congrArg Books.store hv
      rw [hstore] at hu
      obtain hu | hu := List.mem_append.mp hu
      · exact .inl ⟨u, hu, .inl rfl⟩
      · rw [List.mem_singleton.mp hu]
        exact .inr ⟨c, n, rfl⟩
    | visited t rest now _ hs hc hf hv => exact marked hv rfl hs
    | condemned t rest now r _ hs hc hr hf hv => exact marked hv rfl hs
    | removed t rest _ hs hv =>
      refine same hv ?_
      rw [hs]
      exact List.subset_cons_self ..
    | _ => next hv => exact same hv (List.Subset.refl _)
  | failed c work n f _ _ hf hs =>
    cases hs with | _ => next hv => exact same hv (List.Subset.refl _)
  | _ => next hv => exact same hv (List.Subset.refl _)

/-- What an action's attempt was answered, or how it ended instead. -/
inductive Event.IsOf (w : World) (a : Action) : Event → Prop
  | remarked (r : Remark) : IsOf w a (.remarked r)
  | answered (c : CoordinatorRef) (work : Work) (n : UInt32) (ha : a = .attempt ⟨c, work⟩ n)
      (r : Receipt) : IsOf w a (.answered (callOf work w) r)
  | panicked (c : CoordinatorRef) (work : Work) (n : UInt32) (ha : a = .attempt ⟨c, work⟩ n) :
      IsOf w a (.panicked (callOf work w))

/-- An action does one deed at most. -/
theorem Effect.deed_of (h : Effect s w a v todo) :
    v.deeds = w.deeds ∨ ∃ e, v.deeds = e :: w.deeds ∧ e.IsOf w a := by
  have none {b : Books} (hv : v.books = b) (hb : b.deeds = w.books.deeds) :
      v.deeds = w.deeds ∨ ∃ e, v.deeds = e :: w.deeds ∧ e.IsOf w a :=
    .inl ((congrArg Books.deeds hv).trans hb)
  have one {b : Books} {e : Event} (he : e.IsOf w a) (hv : v.books = b)
      (hb : b.deeds = e :: w.books.deeds) :
      v.deeds = w.deeds ∨ ∃ e, v.deeds = e :: w.deeds ∧ e.IsOf w a :=
    .inr ⟨e, (congrArg Books.deeds hv).trans hb, he⟩
  cases h with
  | idle _ _ _ _ hv => exact none hv rfl
  | crashed j n r _ hr hp hv => exact one (.panicked j.owner j.work n rfl) hv rfl
  | succeeded c work n _ _ hs =>
    cases hs with
    | visited t rest now _ hs hc hf hv => exact none hv rfl
    | condemned t rest now r _ hs hc hr hf hv => exact one (.remarked r) hv rfl
    | _ => next hv => exact one (.answered c _ n rfl _) hv rfl
  | failed c work n f _ _ hf hs => cases hs with | _ => next hv => exact none hv rfl
  | _ => next hv => exact none hv rfl

end Traces
end Fulfilment
