import Fulfilment.Proofs.Inline.Upkeep

/-! The outcome of the payment in a run on the ledger, and the message about it.

* `Fitting`: every action is about the one order, and what it says agrees with the payment.
* `Foretold`: whether the payment fails is read off the failures scripted at first.
* `Owed`: a shipped order is being paid for, and an outcome is being told.
* `Upkept`: all that a step keeps. -/
namespace Fulfilment

set_option autoImplicit false

/-! ## Agreement -/

/-- The message does not tell another outcome than this. -/
def MessageType.Fits (p : PaymentStatus) : MessageType → Prop
  | .paymentTrying => True
  | .paymentFail => p = .notDone
  | .paymentSuccess => p = .done

def Task.Fits (o : OrderRef) (p : PaymentStatus) (t : Task) : Prop :=
  t.order = o ∧ ∀ m, t.message = some m → m.Fits p

def Work.Fits (o : OrderRef) (p : PaymentStatus) : Work → Prop
  | .shipping q => q = o
  | .payment q => q = o
  | .messaging q m => q = o ∧ m.Fits p
  | .escalation q => q = o
  | .add t => t.Fits o p
  | .drain => True
  | .dequeue => True

def Action.Fits (c : CoordinatorRef) (o : OrderRef) (p : PaymentStatus) : Action → Prop
  | .place d q => d = c ∧ q = o
  | .pay d q => d = c ∧ q = o
  | .tell d q m => d = c ∧ q = o ∧ m.Fits p
  | .escalate d q => d = c ∧ q = o
  | .enqueue d t => d = c ∧ t.Fits o p
  | .deferPayment d q => d = c ∧ q = o
  | .drain d => d = c
  | .dequeue d => d = c
  | .settleDrain d => d = c
  | .attempt j _ => j.owner = c ∧ j.work.Fits o p
  | .pause _ => True
  | .finish _ => True
  | .placed _ => True
  | _ => False

section Fits
variable {c : CoordinatorRef} {o : OrderRef} {p q : PaymentStatus}

theorem MessageType.Fits.later {m : MessageType} (h : m.Fits p) (hq : p ≠ .trying → q = p) :
    m.Fits q := by
  cases m with
  | paymentTrying => trivial
  | paymentFail =>
    cases h
    exact hq (by decide)
  | paymentSuccess =>
    cases h
    exact hq (by decide)

theorem MessageType.Fits.unique {m m' : MessageType} (h : m.Fits p) (h' : m'.Fits p)
    (hm : m ≠ .paymentTrying) (hm' : m' ≠ .paymentTrying) : m = m' := by
  cases m with
  | paymentTrying => exact absurd rfl hm
  | paymentFail =>
    cases m' with
    | paymentTrying => exact absurd rfl hm'
    | paymentFail => rfl
    | paymentSuccess =>
      cases h
      cases h'
  | paymentSuccess =>
    cases m' with
    | paymentTrying => exact absurd rfl hm'
    | paymentFail =>
      cases h
      cases h'
    | paymentSuccess => rfl

theorem Task.Fits.later {t : Task} (h : t.Fits o p) (hq : p ≠ .trying → q = p) : t.Fits o q :=
  ⟨h.1, fun m hm => (h.2 m hm).later hq⟩

theorem Work.Fits.later {work : Work} (h : work.Fits o p) (hq : p ≠ .trying → q = p) :
    work.Fits o q := by
  cases work with
  | messaging r m => exact ⟨h.1, MessageType.Fits.later h.2 hq⟩
  | add t => exact Task.Fits.later h hq
  | _ => exact h

theorem Action.Fits.later {a : Action} (h : a.Fits c o p) (hq : p ≠ .trying → q = p) :
    a.Fits c o q := by
  cases a with
  | tell d r m => exact ⟨h.1, h.2.1, MessageType.Fits.later h.2.2 hq⟩
  | enqueue d t => exact ⟨h.1, Task.Fits.later h.2 hq⟩
  | attempt j n => exact ⟨h.1, Work.Fits.later h.2 hq⟩
  | _ => exact h

theorem Action.Fits.work {a : Action} {work : Work} (h : a.Fits c o p) (hw : a.work? = some work) :
    work.Fits o p := by
  cases a <;> cases hw <;> first | exact h.2 | exact trivial

theorem Work.Fits.task {work : Work} {t : Task} (h : work.Fits o p) (hw : work.task? = some t) :
    t.Fits o p := by
  cases work with
  | payment r =>
    cases hw
    exact ⟨h, fun m hm => by cases hm⟩
  | messaging r m =>
    cases hw
    refine ⟨h.1, fun m' hm => ?_⟩
    cases hm
    exact h.2
  | escalation r =>
    cases hw
    exact ⟨h, fun m hm => by cases hm⟩
  | add u =>
    cases hw
    exact h
  | shipping | drain | dequeue => cases hw

theorem Task.Fits.retry {t : Task} (h : t.Fits o p) (c : CoordinatorRef) :
    (t.retry c).Fits c o p := by
  simp only [Task.retry]
  cases t.type with
  | payment => exact ⟨rfl, h.1⟩
  | employeeDb => exact ⟨rfl, h.1⟩
  | messaging =>
    cases hm : t.message with
    | none => exact rfl
    | some m => exact ⟨rfl, h.1, h.2 m hm⟩

end Fits

namespace Ledger
variable {c : CoordinatorRef} {o : OrderRef} {l l' : Ledger} {a : Action} {todo rest : List Action}

/-- All that is to be said about the outcome, waits to be said or was said agrees with the
payment. -/
structure Fitting (c : CoordinatorRef) (o : OrderRef) (l : Ledger) (agenda : List Action) :
    Prop where
  actions : ∀ a ∈ agenda, a.Fits c o l.order.payment
  tasks : ∀ t ∈ l.store, t.Fits o l.order.payment
  sent : ∀ m, l.order.sent = .ofMessage m → m.Fits l.order.payment

theorem Step.fits (h : Step c o l a l' todo) (ha : a.Fits c o l.order.payment)
    (hl : ∀ t ∈ l.store, t.Fits o l.order.payment) : ∀ b ∈ todo, b.Fits c o l'.order.payment := by
  have pair {p : PaymentStatus} {b d : Action} (hb : b.Fits c o p) (hd : d.Fits c o p) :
      ∀ e ∈ [b, d], e.Fits c o p := fun e he => by
    obtain rfl | he := List.mem_cons.mp he
    · exact hb
    · rw [List.mem_singleton.mp he]
      exact hd
  have one {p : PaymentStatus} {b : Action} (hb : b.Fits c o p) : ∀ e ∈ [b], e.Fits c o p :=
    fun e he => by
      rw [List.mem_singleton.mp he]
      exact hb
  cases h with
  | idle | alreadyDone | notDeferred | drained | settled | told | handed | nothingThere | removed =>
    exact fun b hb => absurd hb List.not_mem_nil
  | placing => exact pair ⟨rfl, rfl⟩ trivial
  | spawned a work hw => exact pair ⟨rfl, ha.work hw⟩ trivial
  | deferred => exact pair ⟨rfl, rfl, fun m hm => by cases hm⟩ ⟨rfl, rfl⟩
  | drainsOn d => exact pair trivial rfl
  | again work n m d f script hw hf hs => exact pair trivial ha
  | shipped n => exact one ⟨rfl, rfl⟩
  | turnedAway n more hmore =>
    intro b hb
    rw [hmore b hb]
    exact ⟨rfl, rfl⟩
  | paid n hp hs => exact one ⟨rfl, rfl, rfl⟩
  | rejected n script hp hs => exact one ⟨rfl, rfl, rfl⟩
  | notPaid n f script more hf hs hmore =>
    intro b hb
    obtain hb | hb := List.mem_append.mp hb
    · rw [hmore b hb]
      exact ⟨rfl, rfl, trivial⟩
    · rw [List.mem_singleton.mp hb]
      exact ⟨rfl, rfl⟩
  | putOff work n t more hw hmore =>
    intro b hb
    obtain rfl | hb := List.mem_cons.mp hb
    · exact ⟨rfl, ha.2.task hw⟩
    · rw [hmore b hb]
      exact ⟨rfl, rfl⟩
  | added n t => exact one rfl
  | unneeded n => exact one rfl
  | dropped n t rest now hs ht => exact pair rfl rfl
  | retried n t rest now hs ht =>
    have hfits : t.Fits o l.order.payment := hl t (by rw [hs]; exact List.mem_cons_self ..)
    exact pair (hfits.retry c) rfl

theorem Step.fitting (h : Step c o l a l' todo) (hl : Fitting c o l (a :: rest)) :
    Fitting c o l' (todo ++ rest) := by
  have ha := hl.actions a (List.mem_cons_self ..)
  have hlater := h.later.payment
  refine ⟨fun b hb => ?_, ?_, ?_⟩
  · obtain hb | hb := List.mem_append.mp hb
    · exact h.fits ha hl.tasks b hb
    · exact (hl.actions b (List.mem_cons_of_mem _ hb)).later hlater
  · have old : ∀ t ∈ l.store, t.Fits o l'.order.payment := fun t ht => (hl.tasks t ht).later hlater
    have marked {t : Task} {more : List Task} {now : Instant} (hs : l.store = t :: more) :
        ∀ u ∈ t.markFirstAttempt now :: more, u.Fits o l'.order.payment := by
      intro u hu
      obtain rfl | hu := List.mem_cons.mp hu
      · exact old t (by rw [hs]; exact List.mem_cons_self ..)
      · exact old u (by rw [hs]; exact List.mem_cons_of_mem _ hu)
    cases h with
    | added n t =>
      intro u hu
      obtain hu | hu := List.mem_append.mp hu
      · exact old u hu
      · rw [List.mem_singleton.mp hu]
        exact ha.2
    | dropped n t more now hs ht => exact marked hs
    | retried n t more now hs ht => exact marked hs
    | removed n t more hs => exact fun u hu => old u (by rw [hs]; exact List.mem_cons_of_mem _ hu)
    | _ => exact old
  · have old : ∀ m, l.order.sent = .ofMessage m → m.Fits l'.order.payment := fun m hm =>
      (hl.sent m hm).later hlater
    cases h with
    | told n m hm =>
      intro m' hm'
      have hmm : m' = m := by
        have hof : MessageSent.ofMessage m = .ofMessage m' := hm'
        cases m <;> cases m' <;> first | rfl | cases hof
      rw [hmm]
      exact ha.2.2
    | _ => exact old

/-! ## The script -/

/-- A payment that is settled failed exactly if a failure of the details was scripted at first; as
long as it is pending such a failure is still to come, if there was one. -/
def Foretold (faults : Faults) (l : Ledger) : Prop :=
  match l.order.payment with
  | .trying => Failure.paymentDetailsError ∈ faults ↔ Failure.paymentDetailsError ∈ l.script
  | .done => Failure.paymentDetailsError ∉ faults
  | .notDone => Failure.paymentDetailsError ∈ faults

theorem Foretold.pop {faults script : Faults} {f : Failure} (h : Foretold faults l)
    (hf : f ≠ .paymentDetailsError) (hs : l.script = f :: script) :
    Foretold faults { l with script } := by
  simp only [Foretold] at h ⊢
  cases hp : l.order.payment with
  | trying =>
    rw [hp] at h
    simp only [hs, List.mem_cons, hf.symm, false_or] at h
    exact h
  | done =>
    rw [hp] at h
    exact h
  | notDone =>
    rw [hp] at h
    exact h

theorem Step.foretold {faults : Faults} (h : Step c o l a l' todo) (hl : Foretold faults l) :
    Foretold faults l' := by
  cases h with
  | again work n m d f script hw hf hs =>
    by_cases hpay : work.service = .payment
    · rw [Pops, if_pos hpay] at hs
      refine hl.pop ?_ hs
      rintro rfl
      cases hf
    · rw [Pops, if_neg hpay] at hs
      subst hs
      exact hl
  | settled work n t script hw ht hs =>
    simp only [Foretold] at hl ⊢
    cases hp : l.order.payment with
    | trying =>
      rw [hp] at hl
      rw [hs hp]
      exact hl
    | done =>
      rw [hp] at hl
      exact hl
    | notDone =>
      rw [hp] at hl
      exact hl
  | paid n hp hs =>
    simp only [Foretold, hp, hs, List.not_mem_nil, iff_false] at hl
    exact hl
  | rejected n script hp hs =>
    simp only [Foretold, hp, hs, List.mem_cons, true_or, iff_true] at hl
    exact hl
  | notPaid n f script more hf hs hmore => exact hl.pop hf hs
  | _ => exact hl

/-! ## What is owed -/

/-- A shipped order is being paid for, and the outcome of a payment is being told. -/
structure Owed (o : OrderRef) (l : Ledger) (agenda : List Action) : Prop where
  payment : l.shipped = true → l.Kept agenda (.payment o)
  message : ∀ m, m ≠ .paymentTrying → m.Fits l.order.payment → l.Kept agenda (.messaging o m)

/-- A payment that is settled is told about. -/
theorem Step.settles (h : Step c o l a l' todo) :
    l'.order.payment = l.order.payment ∨
      ∃ m, m ≠ .paymentTrying ∧ m.Fits l'.order.payment ∧ todo = [.tell c o m] := by
  cases h with
  | paid n hp hs => exact .inr ⟨.paymentSuccess, by decide, rfl, rfl⟩
  | rejected n script hp hs => exact .inr ⟨.paymentFail, by decide, rfl, rfl⟩
  | _ => exact .inl rfl

theorem Step.ships (h : Step c o l a l' todo) :
    l'.shipped = l.shipped ∨ todo = [.pay c o] := by
  cases h with
  | shipped n => exact .inr rfl
  | _ => exact .inl rfl

theorem Step.owed (h : Step c o l a l' todo) (hr : l.RemovesNext (a :: rest))
    (hl : Owed o l (a :: rest)) : Owed o l' (todo ++ rest) := by
  refine ⟨fun hs => ?_, fun m hm hfits => ?_⟩
  · obtain hsame | htodo := h.ships
    · rw [hsame] at hs
      exact h.kept hr .payment (hl.payment hs)
    · rw [htodo]
      exact .of_head rfl
  · obtain hsame | ⟨m', hm', hfits', htodo⟩ := h.settles
    · rw [hsame] at hfits
      exact h.kept hr (.messaging m) (hl.message m hm hfits)
    · rw [htodo, hfits.unique hfits' hm hm']
      exact .of_head rfl

/-! ## All together -/

/-- What a run on the ledger keeps, the payment service having these failures at first. -/
structure Upkept (c : CoordinatorRef) (o : OrderRef) (faults : Faults) (l : Ledger)
    (agenda : List Action) : Prop where
  removesNext : l.RemovesNext agenda
  drained : l.Drained agenda
  fitting : Fitting c o l agenda
  foretold : Foretold faults l
  owed : Owed o l agenda

theorem Step.upkept {faults : Faults} (h : Step c o l a l' todo)
    (hl : Upkept c o faults l (a :: rest)) : Upkept c o faults l' (todo ++ rest) where
  removesNext := h.removesNext hl.removesNext
  drained := h.keeps_drained hl.drained
  fitting := h.fitting hl.fitting
  foretold := h.foretold hl.foretold
  owed := h.owed hl.removesNext hl.owed

/-- When nothing is left to do the queue is empty. -/
theorem Upkept.at_end {faults : Faults} (h : Upkept c o faults l []) :
    l.store = [] ∧ l.counted = some 0 := by
  have hstore : l.store = [] := by
    obtain he | ⟨a, ha, -⟩ := h.drained.looked
    · exact he
    · exact absurd ha List.not_mem_nil
  refine ⟨hstore, ?_⟩
  rw [h.drained.counted, hstore]
  rfl

/-- When nothing is left to do, a task that was kept is settled. -/
theorem Upkept.settled {faults : Faults} (h : Upkept c o faults l []) {t : Task}
    (ht : l.Kept [] t) : t.isSettled l.order = true := by
  obtain hs | ⟨a, ha, -⟩ | hmem := ht
  · exact hs
  · exact absurd ha List.not_mem_nil
  · rw [h.at_end.1] at hmem
    exact absurd hmem List.not_mem_nil

/-- The payment is done unless its details were to fail, and the message about it was the last. -/
theorem Upkept.outcome {faults : Faults} (h : Upkept c o faults l []) (hs : l.shipped = true) :
    (Failure.paymentDetailsError ∈ faults ∧ l.order.payment = .notDone ∧
        l.order.sent = .paymentFail) ∨
      (Failure.paymentDetailsError ∉ faults ∧ l.order.payment = .done ∧
        l.order.sent = .paymentSuccessful) := by
  have hpaid := h.settled (h.owed.payment hs)
  have hforetold := h.foretold
  have told (m : MessageType) (hm : m ≠ .paymentTrying) (hfits : m.Fits l.order.payment) :
      l.order.sent = .ofMessage m := by
    have hsettled := h.settled (h.owed.message m hm hfits)
    have hterminal : l.order.sent.isTerminal = true := by
      cases m with
      | paymentTrying => exact absurd rfl hm
      | paymentFail | paymentSuccess =>
        simpa [Task.isSettled, Task.messaging, Order.needsMessage] using hsettled
    have hsent := h.fitting.sent
    cases hl : l.order.sent with
    | noneSent =>
      rw [hl] at hterminal
      cases hterminal
    | paymentTrying =>
      rw [hl] at hterminal
      cases hterminal
    | paymentFail => rw [hfits.unique (hsent .paymentFail hl) hm (by decide)]; rfl
    | paymentSuccessful => rw [hfits.unique (hsent .paymentSuccess hl) hm (by decide)]; rfl
  simp only [Foretold] at hforetold
  cases hp : l.order.payment with
  | trying =>
    rw [Task.isSettled] at hpaid
    simp [Task.payment, hp] at hpaid
  | done =>
    rw [hp] at hforetold
    exact .inr ⟨hforetold, rfl, told .paymentSuccess (by decide) hp⟩
  | notDone =>
    rw [hp] at hforetold
    exact .inl ⟨hforetold, rfl, told .paymentFail (by decide) hp⟩

end Ledger
end Fulfilment
