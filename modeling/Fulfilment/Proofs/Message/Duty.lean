import Fulfilment.Proofs.Message.Truth
import Fulfilment.Proofs.Payment.Standing

/-! A settled payment is communicated or escalated, as long as the employee handle does not fail.

* `Action.answersFor`: an action that tells the customer an outcome or informs an employee.
* `World.Relieved`: nothing more is owed to the customer of an order.
* `System.Dutiful`: a payment is pending, nothing is owed, or some action that is outstanding
  answers for the order.
* `System.settled_told_or_handed`: so once nothing is outstanding the customer of a settled payment
  was told, or an employee has the order. -/
namespace Fulfilment

set_option autoImplicit false

/-! ## What is owed -/

/-- The messaging service panicked over a message for the order. -/
def Event.isSilenceFor (o : OrderRef) : Event → Bool
  | .panicked (.messaging p _) => p = o
  | _ => false

/-- The customer is about to be told an outcome, or an employee to be informed. -/
def Action.answersFor (o : OrderRef) : Action → Bool
  | .tell _ p m => p = o && m ≠ .paymentTrying
  | .attempt ⟨_, .messaging p m⟩ _ => p = o && m ≠ .paymentTrying
  | .escalate _ p => p = o
  | .attempt ⟨_, .escalation p⟩ _ => p = o
  | _ => false

namespace World

def silenced (w : World) (o : OrderRef) : Bool := w.journal.any (Event.isSilenceFor o)

theorem silenced_eq (w : World) (o : OrderRef) :
    w.silenced o = w.deeds.any (Event.isSilenceFor o) := by
  rw [silenced, any_deeds]
  intro e he
  cases e with
  | panicked c => rfl
  | _ => cases he

/-- Nothing is owed to the customer: it is too late for a message, a final one was sent, an employee
has the order, or a message got lost in a panic. -/
inductive Relieved (s : Setup) (o : OrderRef) (w : World) : Prop
  | late (h : w.budgetExceeded o s.config.limits.message = true)
  | told (h : (w.order o).sent.isTerminal = true)
  | handed (h : (w.order o).escalated = true)
  | silenced (h : w.silenced o = true)

theorem Relieved.of_books {s : Setup} {o : OrderRef} {w v : World} (h : w.Relieved s o)
    (hb : v.books = w.books) (hclock : v.clock = w.clock) : v.Relieved s o := by
  have ho := order_of_books hb o
  cases h with
  | late h =>
    refine .late ?_
    rw [budgetExceeded, now, ho, hclock]
    exact h
  | told h => exact .told (by rw [ho, h])
  | handed h => exact .handed (by rw [ho, h])
  | silenced h => exact .silenced (by rw [silenced_eq, deeds_of_books hb, ← silenced_eq, h])

end World

section Actions
variable {s : Setup} {w v : World} {a : Action} {todo : List Action} {o : OrderRef}

theorem Action.answersFor_of_minor (h : a.isMinor = true) : a.answersFor o = false := by
  cases a <;> first | rfl | cases h

theorem Action.Spawns.answersFor {j : Job} (h : a.Spawns j) (n : UInt32) :
    (Action.attempt j n).answersFor o = a.answersFor o := by
  obtain ⟨c, work⟩ := j
  have hw := h.work
  cases a <;> cases hw <;> rfl

theorem Order.told_of_unneeded {x : Order} {m : MessageType} (hm : m ≠ .paymentTrying)
    (h : x.needsMessage m = false) : x.sent.isTerminal = true := by
  cases m with
  | paymentTrying => exact absurd rfl hm
  | paymentFail | paymentSuccess => simpa [needsMessage] using h

theorem World.Answers.no_failure {work : Work} {f : Failure}
    (h : w.Answers work.service work.callKind) : ¬ w.Fails work f := by
  rintro (⟨rest, hf⟩ | ⟨r, hr, hf⟩)
  · rw [h.faults] at hf
    cases hf
  · rw [(h.replies r hr).2] at hf
    cases hf

/-! ## Payments that are settled -/

/-- The payment of an order is left alone, or its customer is about to be told. -/
def Settles (o : OrderRef) (w v : World) (todo : List Action) : Prop :=
  (v.order o).payment = (w.order o).payment ∨ ∃ b ∈ todo, b.answersFor o = true

theorem Settles.of_books {b : Books} (hv : v.books = b)
    (hp : (b.order o).payment = (w.books.order o).payment) : Settles o w v todo := by
  subst hv
  exact .inl hp

theorem Settles.of_pay {b : Books} {p : OrderRef} {c : CoordinatorRef} {m : MessageType}
    {more : List Action} (hv : v.books = b)
    (hp : ∀ q, q ≠ p → (b.order q).payment = (w.books.order q).payment)
    (hm : m ≠ .paymentTrying) : Settles o w v (.tell c p m :: more) := by
  by_cases hop : o = p
  · refine .inr ⟨_, List.mem_cons_self .., ?_⟩
    simp [Action.answersFor, hop, hm]
  · exact .of_books hv (hp o hop)

theorem Success.settles {c : CoordinatorRef} {work : Work} (h : Success s w.books c work v todo) :
    Settles o w v todo := by
  cases h with
  | paid p r _ hp hv =>
    refine .of_pay hv (fun q hq => ?_) (by decide)
    rw [Books.payment_note, Books.order_pay_ne _ _ hq]
    rfl
  | told p m r _ hm hv =>
    exact .of_books hv (Books.order_change_congr Order.payment _ p o _ fun _ => rfl)
  | handed p r _ he hv =>
    exact .of_books hv (Books.order_change_congr Order.payment _ p o _ fun _ => rfl)
  | _ => next hv => exact .of_books hv rfl

theorem Setback.settles {c : CoordinatorRef} {work : Work} {f : Failure}
    (h : Setback s w.books c work f v todo) : Settles o w v todo := by
  cases h with
  | declined p _ hp hv =>
    refine .of_pay hv (fun q hq => ?_) (by decide)
    rw [Books.order_pay_ne _ _ hq, Books.payment_note]
  | notQueued t f _ htype hp hv =>
    refine .of_pay hv (fun q hq => ?_) (by decide)
    rw [Books.order_pay_ne _ _ hq]
  | turnedAway _ _ _ _ _ hv | notPlaced _ _ _ hv | declinedLate _ _ _ hv | unpaid _ _ _ _ _ hv =>
    exact .of_books hv (Books.payment_note ..)
  | _ => next hv => exact .of_books hv rfl

theorem Effect.settles (h : Effect s w a v todo) : Settles o w v todo := by
  cases h with
  | idle _ _ _ _ hv => exact .of_books hv rfl
  | expired c p _ hp ht hv =>
    refine .of_pay hv (fun q hq => ?_) (by decide)
    rw [Books.order_pay_ne _ _ hq]
  | succeeded c work n _ _ hs => exact hs.settles
  | failed c work n f _ _ hf hs => exact hs.settles
  | _ => next hv => exact .of_books hv rfl

/-! ## Actions that answer for an order -/

/-- Whoever answered for the order goes on to, or nothing is owed to the customer any more. -/
def Discharges (s : Setup) (o : OrderRef) (w v : World) (todo : List Action) : Prop :=
  w.Relieved s o ∨ v.Relieved s o ∨ (∃ b ∈ todo, b.answersFor o = true) ∨
    ∃ j ∈ v.pending, (Action.attempt j 0).answersFor o = true

theorem World.late_of_employee (hlimits : s.config.limits.message ≤ s.config.limits.employee)
    (h : w.budgetExceeded o s.config.limits.employee = true) :
    w.budgetExceeded o s.config.limits.message = true := by
  simp only [budgetExceeded, Order.budgetExceeded, decide_eq_true_eq] at h ⊢
  exact Nat.le_trans hlimits h

theorem answersFor_message {c : CoordinatorRef} {p : OrderRef} {m : MessageType} {n : UInt32}
    (h : (Action.attempt ⟨c, .messaging p m⟩ n).answersFor o = true) :
    p = o ∧ m ≠ .paymentTrying := by
  simpa [Action.answersFor] using h

theorem Success.discharges {c : CoordinatorRef} {work : Work} {n : UInt32}
    (h : Success s w.books c work v todo) (ho : o < w.orders.length)
    (ha : (Action.attempt ⟨c, work⟩ n).answersFor o = true) : Discharges s o w v todo := by
  cases h with
  | told p m r _ hm hv =>
    obtain ⟨rfl, hfinal⟩ := answersFor_message ha
    have hsent : (v.order p).sent = .ofMessage m := by
      have horder := congrArg (fun b : Books => b.order p) hv
      rw [Books.order_change, if_pos ⟨rfl, ho⟩] at horder
      exact (congrArg Order.sent horder :)
    refine .inr (.inl (.told ?_))
    rw [hsent]
    exact (m.terminal_iff).mpr hfinal
  | handed p r _ he hv =>
    obtain rfl : p = o := of_decide_eq_true ha
    refine .inr (.inl (.handed ?_))
    have horder : v.order p = { w.order p with escalated := true } := by
      refine (congrArg (fun b : Books => b.order p) hv).trans ?_
      exact (Books.order_change _ p p _).trans (if_pos ⟨rfl, ho⟩)
    rw [horder]
  | shipped | paid | added | visited | condemned | removed => cases ha

theorem Setback.discharges {c : CoordinatorRef} {work : Work} {f : Failure} {n : UInt32}
    (h : Setback s w.books c work f v todo) (hf : w.Fails work f ∨ work.probes = true)
    (hemployee : w.Answers .employee .employee)
    (ha : (Action.attempt ⟨c, work⟩ n).answersFor o = true) : Discharges s o w v todo := by
  have answered {p : OrderRef}
      (hw : w.Fails (.escalation p) f ∨ (Work.escalation p).probes = true) : False := by
    obtain hw | hw := hw
    · exact (World.Answers.no_failure hemployee : ¬ w.Fails (.escalation p) f) hw
    · cases hw
  cases h with
  | undelivered p m f _ hm ht hv =>
    obtain ⟨rfl, -⟩ := answersFor_message ha
    refine .inr (.inr (.inl ⟨.escalate c p, ?_, decide_eq_true rfl⟩))
    exact List.mem_cons_of_mem _ (List.mem_singleton.mpr rfl)
  | givenUp p m f _ hm hv =>
    obtain ⟨rfl, hfinal⟩ := answersFor_message ha
    obtain hm | ht := hm
    · exact .inl (.told (Order.told_of_unneeded hfinal hm))
    · exact .inr (.inl (.late ht))
  | unattended p f _ he ht hv => exact (answered hf).elim
  | leftAlone p f _ he hv => exact (answered hf).elim
  | unseen f _ _ hw hv =>
    cases work <;> first | cases ha | cases hw
  | turnedAway | notPlaced | declined | declinedLate => cases ha
  | unpaid | stillUnpaid | notQueued | notAdded => cases ha

theorem Effect.discharges (h : Effect s w a v todo) (ho : o < w.orders.length) (hopen : w.Open)
    (hemployee : w.Answers .employee .employee)
    (hlimits : s.config.limits.message ≤ s.config.limits.employee)
    (ha : a.answersFor o = true) : Discharges s o w v todo := by
  have next {b : Action} {more : List Action} (hb : b.answersFor o = true) :
      Discharges s o w v (b :: more) := .inr (.inr (.inl ⟨b, List.mem_cons_self .., hb⟩))
  cases h with
  | idle _ _ hidle _ _ => cases a <;> first | cases ha | cases hidle
  | waiting j _ hj hv =>
    refine .inr (.inr (.inr ⟨j, ?_, (hj.answersFor 0).trans ha⟩))
    have hpending : v.pending = w.pending ++ [j] := congrArg Books.pending hv
    rw [hpending]
    exact List.mem_append_right _ (List.mem_singleton.mpr rfl)
  | started j _ hj hv => exact next ((hj.answersFor 0).trans ha)
  | lost j _ hj hw hv => exact absurd hopen hw
  | passed _ hpasses hv =>
    cases a with
    | tell c p m =>
      obtain ⟨rfl, -⟩ : p = o ∧ m ≠ .paymentTrying := by simpa [Action.answersFor] using ha
      exact .inl (.late hpasses)
    | escalate c p =>
      -- It is too late for an employee only when it is too late for a message.
      obtain rfl : p = o := of_decide_eq_true ha
      exact .inl (.late (World.late_of_employee hlimits hpasses))
    | attempt => exact hpasses.elim
    | _ => cases ha
  | again j n m d f _ hf hv =>
    refine .inr (.inr (.inl ⟨.attempt j m, ?_, ?_⟩))
    · exact List.mem_cons_of_mem _ (List.mem_singleton.mpr rfl)
    · obtain ⟨c, work⟩ := j
      cases work <;> exact ha
  | unneeded j n _ hn hv =>
    obtain ⟨c, work⟩ := j
    cases work with
    | messaging p m =>
      obtain ⟨rfl, hfinal⟩ := answersFor_message ha
      exact .inl (.told (Order.told_of_unneeded hfinal hn))
    | escalation p =>
      obtain rfl : p = o := of_decide_eq_true ha
      exact .inl (.handed (by simpa [needed] using hn))
    | _ => cases ha
  | crashed j n r _ hr hp hv =>
    obtain ⟨c, work⟩ := j
    cases work with
    | messaging p m =>
      obtain ⟨rfl, -⟩ := answersFor_message ha
      have hdeeds : v.deeds = .panicked (.messaging p m) :: w.deeds := congrArg Books.deeds hv
      refine .inr (.inl (.silenced ?_))
      rw [World.silenced_eq, hdeeds, List.any_cons, Event.isSilenceFor, decide_eq_true rfl,
        Bool.true_or]
    | escalation p =>
      rw [(hemployee.replies r hr).1] at hp
      cases hp
    | _ => cases ha
  | succeeded c work n _ _ hs => exact hs.discharges ho ha
  | failed c work n f _ _ hf hs => exact hs.discharges hf hemployee ha
  | placing | expired | deferring | escalating | drainingOn => cases ha

end Actions

/-! ## One happening -/

/-- The service is not made to fail. -/
def Happening.Spares (sv : Service) (k : CallKind) : Happening → Prop
  | .move m => m.Spares sv k
  | .order _ _ _ _ => True

namespace System

/-- The payment is pending, nothing is owed to the customer, or some action answers for the
order. -/
inductive Dutiful (s : Setup) (o : OrderRef) (σ : System) : Prop
  | pending (h : (σ.world.order o).payment = .trying)
  | relieved (h : σ.world.Relieved s o)
  | underway (a : Action) (ha : a ∈ σ.outstanding) (h : a.answersFor o = true)

/-- Jobs are not turned away, and the employee handle does not fail. -/
structure Staffed (σ : System) : Prop where
  isOpen : σ.world.Open
  answers : σ.world.Answers .employee .employee

section Happenings
variable {s : Setup} {σ τ : System} {h : Happening} {o : OrderRef}

theorem Staffed.happen (hs : σ.Staffed) (hσ : σ.Orderly s) (hh : h.Spares .employee .employee)
    (hτ : σ.happen? s h = some τ) : τ.Staffed := by
  refine ⟨hσ.open_happen hτ hs.isOpen, ?_⟩
  cases happens_of_some hτ with
  | moved m _ hm => exact hσ.answers_move hm hh hs.answers
  | ordered c customer item price x ids draws hx hυ =>
    subst hυ
    exact ⟨hs.answers.faults, hs.answers.replies⟩

theorem Orderly.trying_of_new (hσ : σ.Orderly s) (hw : h.Whole s) (hτ : σ.happen? s h = some τ)
    (ho : σ.world.orders.length ≤ o) : (τ.world.order o).payment = .trying := by
  cases happens_of_some hτ with
  | moved m _ hm =>
    have hlen : τ.world.orders.length ≤ o := by
      rw [(hσ.move hw hm).1.length hσ.clock]
      exact ho
    rw [τ.world.order_beyond hlen]
    rfl
  | ordered c customer item price x ids draws hx hυ =>
    subst hυ
    rw [World.order_addOrder]
    split
    · exact hx.1
    · rw [σ.world.order_beyond ho]
      rfl

theorem deeds_subset (hp : Passage s h σ τ) : σ.world.deeds ⊆ τ.world.deeds := by
  obtain hd | ⟨e, hd, -⟩ := deed_of_passage hp
  · rw [hd]
    exact List.Subset.refl _
  · rw [hd]
    exact List.subset_cons_self ..

theorem Orderly.relieved (hσ : σ.Orderly s) (hw : h.Whole s) (hτ : σ.happen? s h = some τ)
    (ho : o < σ.world.orders.length) (hr : σ.world.Relieved s o) : τ.world.Relieved s o := by
  have hlater := (hσ.later hw hτ ho).1
  cases hr with
  | late hlate =>
    refine .late ?_
    cases happens_of_some hτ with
    | moved m _ hm =>
      exact (hσ.move hw hm).1.budgetExceeded hσ.clock o s.config.limits.message hlate
    | ordered c customer item price x ids draws hx hυ =>
      subst hυ
      rw [World.budgetExceeded, World.order_addOrder, if_neg (Nat.ne_of_lt ho)]
      exact hlate
  | told ht =>
    refine .told ?_
    rw [hlater.terminal ht]
    exact ht
  | handed he => exact .handed (hlater.escalated he)
  | silenced hs =>
    refine .silenced ?_
    rw [World.silenced_eq, List.any_eq_true] at hs ⊢
    obtain ⟨e, he, hq⟩ := hs
    exact ⟨e, deeds_subset (hσ.passage hτ) he, hq⟩

theorem Dutiful.happen (hd : σ.Dutiful s o) (hσ : σ.Orderly s) (hstaffed : σ.Staffed)
    (hlimits : s.config.limits.message ≤ s.config.limits.employee) (hw : h.Whole s)
    (hτ : σ.happen? s h = some τ) : τ.Dutiful s o := by
  by_cases ho : o < σ.world.orders.length
  · have hp := hσ.passage hτ
    cases hd with
    | pending htrying =>
      -- Whoever settles the payment leaves a message to send.
      obtain ⟨a, v, todo, -, he, hb, htodo⟩ | ⟨_, _, -, hsame⟩ := hp.books_cases
      · obtain hv | ⟨b, hb', hanswers⟩ := he.settles (o := o)
        · refine .pending ?_
          rw [World.order_of_books hb, hv, htrying]
        · exact .underway b (htodo b hb') hanswers
      · exact .pending (by rw [hsame o ho, htrying])
    | relieved hr => exact .relieved (hσ.relieved hw hτ ho hr)
    | underway a' ha' hanswers =>
      have notMinor : ¬ a'.isMinor = true := fun hm => by
        rw [Action.answersFor_of_minor hm] at hanswers
        cases hanswers
      cases hp with
      | acted a v todo ha he hb hclock htodo kept came =>
        obtain hkept | hm | rfl := kept a' ha'
        · exact .underway a' hkept hanswers
        · exact absurd hm notMinor
        -- The action that answers is performed: it is passed on, or nothing is owed any more.
        · obtain hr | hr | ⟨b, hb', hnext⟩ | ⟨j, hj, hnext⟩ :=
            he.discharges ho hstaffed.isOpen hstaffed.answers hlimits hanswers
          · exact .relieved (hσ.relieved hw hτ ho hr)
          · exact .relieved (hr.of_books hb hclock)
          · exact .underway b (htodo b hb') hnext
          · refine .underway _ (mem_outstanding.mpr (.inr ⟨j, ?_, rfl⟩)) hnext
            rwa [World.pending_of_books hb]
      | shifted hb kept came =>
        obtain hkept | hm := kept a' ha'
        · exact .underway a' hkept hanswers
        · exact absurd hm notMinor
      | asked q hh hq hsame hout => exact .underway a' ((hout a').mpr (.inl ha')) hanswers
      | ordered c customer item price x hh hx hb hout =>
        exact .underway a' ((hout a').mpr (.inl ha')) hanswers
  · exact .pending (hσ.trying_of_new hw hτ (Nat.le_of_not_lt ho))

theorem Orderly.parks (hσ : σ.Orderly s) (hw : h.Whole s) (hτ : σ.happen? s h = some τ)
    (hp : σ.world.Parks o) : τ.world.Parks o := by
  cases happens_of_some hτ with
  | moved m _ hm => exact (hσ.move hw hm).1.parks hσ.clock hp
  | ordered c customer item price x ids draws hx hυ =>
    subst hυ
    intro hesc
    simp only [World.informed, World.idOf, World.order_addOrder] at hesc ⊢
    split at hesc
    · rw [hx.2.2.1] at hesc
      cases hesc
    · next ho =>
      rw [if_neg ho]
      exact hp hesc

end Happenings

/-! ## Histories -/

/-- Once nothing is outstanding in a history in which the employee handle did not fail: the customer
of a settled payment got a final message or an employee has the order, unless it is too late for a
message or the messaging service panicked over one. -/
theorem settled_told_or_handed (s : Setup) (o : OrderRef) (σ τ : System)
    (happenings : List Happening) (hσ : σ.Orderly s) (hopen : σ.world.Open)
    (hemployee : σ.world.Answers .employee .employee)
    (hlimits : s.config.limits.message ≤ s.config.limits.employee)
    (htrying : (σ.world.order o).payment = .trying) (hparks : σ.world.Parks o)
    (hwhole : ∀ h ∈ happenings, h.Whole s)
    (hspares : ∀ h ∈ happenings, h.Spares .employee .employee)
    (hτ : after? s happenings σ = some τ) (hidle : τ.Idle)
    (hsettled : (τ.world.order o).payment ≠ .trying)
    (hage : τ.world.budgetExceeded o s.config.limits.message = false)
    (hsound : τ.world.silenced o = false) :
    (τ.world.order o).sent.isTerminal = true ∨ τ.world.informed o = true := by
  obtain ⟨-, -, hdutiful, hparked⟩ : τ.Orderly s ∧ τ.Staffed ∧ τ.Dutiful s o ∧ τ.world.Parks o := by
    refine after?_induct (P := fun υ => υ.Orderly s ∧ υ.Staffed ∧ υ.Dutiful s o ∧ υ.world.Parks o)
      ?_ hτ ⟨hσ, ⟨hopen, hemployee⟩, .pending htrying, hparks⟩
    rintro h hh υ ω hω ⟨ho, hs, hd, hp⟩
    exact ⟨ho.happen (hwhole h hh) hω, hs.happen ho (hspares h hh) hω,
      hd.happen ho hs hlimits (hwhole h hh) hω, ho.parks (hwhole h hh) hω hp⟩
  cases hdutiful with
  | pending hp => exact absurd hp hsettled
  | relieved hr =>
    cases hr with
    | late hlate =>
      rw [hage] at hlate
      cases hlate
    | told ht => exact .inl ht
    | handed he => exact .inr (hparked he)
    | silenced hs =>
      rw [hsound] at hs
      cases hs
  | underway a ha _ =>
    rw [hidle.outstanding] at ha
    exact absurd ha List.not_mem_nil

/-- Nothing is attempted again, and there is no queue. -/
def oneTryNoQueue : Setup := { config := { retry := { retries := 0 } }, hasStore := false }

/-- The payment of an order is rejected, the message about it fails, and an employee takes over. -/
def takenOver : List Happening :=
  .order 0 ⟨"Jim", "ABCD"⟩ "book" 10 ::
    [.act 0, .act 0, .act 0, .act 0, .start 0, .act 1, .act 1, .act 1, .start 0, .act 2, .act 2,
      .act 2, .act 2, .start 0, .act 3, .act 3].map .move

theorem undelivered_failure_handed :
    ∃ τ, after? oneTryNoQueue takenOver wrongDetails = some τ ∧ τ.Idle ∧
      (τ.world.order 0).payment = .notDone ∧ (τ.world.order 0).sent = .noneSent ∧
      τ.world.informed 0 = true := by
  refine ⟨_, rfl, ⟨rfl, by decide⟩, rfl, rfl, ?_⟩
  have h := settled_told_or_handed oneTryNoQueue 0 wrongDetails _ takenOver
    (wrongDetails_orderly oneTryNoQueue) ⟨rfl, rfl⟩ ⟨rfl, by simp [wrongDetails]⟩ (by decide) rfl
    (fun hesc => by cases hesc) (by simp [takenOver, Happening.Whole, Move.Whole])
    (by simp [takenOver, Happening.Spares, Move.Spares]) rfl ⟨rfl, by decide⟩ (by decide) rfl rfl
  obtain ht | hi := h
  · cases ht
  · exact hi

end System
end Fulfilment
