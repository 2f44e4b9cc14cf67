import Fulfilment.Proofs.Books.Passage
import Fulfilment.Proofs.Payment.Standing

/-! Which stage of which order an action or a task belongs to, which stages lead to which, and what
each may change.

* `Errand`: an order and one of its stages.
* `Stage.Leads`: a stage leads to itself, from shipping to payment or to an employee, from payment
  to messages, and from everything but shipping to an employee.
* `Stage.Keeps`: what a stage leaves as it is of its order.
* `System.Arises`: where an errand that is run after a happening comes from. -/
namespace Fulfilment

set_option autoImplicit false

inductive Stage where
  | shipping
  | payment
  | messaging
  | escalation
  deriving DecidableEq

structure Errand where
  order : OrderRef
  stage : Stage
  deriving DecidableEq

/-! ## Errands -/

def TaskType.stage : TaskType → Stage
  | .payment => .payment
  | .messaging => .messaging
  | .employeeDb => .escalation

def Task.errand (t : Task) : Errand := ⟨t.order, t.type.stage⟩

/-- Adding a task belongs to the stage of the task. -/
def Work.errand? : Work → Option Errand
  | .shipping o => some ⟨o, .shipping⟩
  | .payment o => some ⟨o, .payment⟩
  | .messaging o _ => some ⟨o, .messaging⟩
  | .escalation o => some ⟨o, .escalation⟩
  | .add t => some t.errand
  | .drain => none
  | .dequeue => none

def Action.errand? : Action → Option Errand
  | .place _ o => some ⟨o, .shipping⟩
  | .pay _ o => some ⟨o, .payment⟩
  | .tell _ o _ => some ⟨o, .messaging⟩
  | .escalate _ o => some ⟨o, .escalation⟩
  | .enqueue _ t => some t.errand
  | .deferPayment _ o => some ⟨o, .payment⟩
  | .escalateTask _ t _ => some ⟨t.order, .escalation⟩
  | .attempt j _ => j.work.errand?
  | .conclude j _ _ => j.work.errand?
  | _ => none

def Call.errand? : Call → Option Errand
  | .shipping o _ _ => some ⟨o, .shipping⟩
  | .payment o _ => some ⟨o, .payment⟩
  | .messaging o _ => some ⟨o, .messaging⟩
  | .employee o => some ⟨o, .escalation⟩
  | .add t => some t.errand
  | .peek => none
  | .dequeue => none

def Event.errand? : Event → Option Errand
  | .answered c _ => c.errand?
  | .panicked c => c.errand?
  | _ => none

theorem TaskType.stage_ne_shipping (t : TaskType) : t.stage ≠ .shipping := by
  cases t <;> decide

theorem Action.errand?_of_minor {a : Action} (h : a.isMinor = true) : a.errand? = none := by
  cases a <;> first | rfl | cases h

theorem Action.Spawns.errand {a : Action} {j : Job} (h : a.Spawns j) (n : UInt32) :
    (Action.attempt j n).errand? = a.errand? := by
  obtain ⟨c, work⟩ := j
  have hw := h.work
  cases a <;> cases hw <;> rfl

theorem Request.errand_order {q : Request} {x : Errand} (h : q.action.errand? = some x) :
    x.order = q.order := by
  cases q <;> cases h <;> rfl

theorem callOf_errand (work : Work) (w : World) : (callOf work w).errand? = work.errand? := by
  cases work <;> rfl

theorem Task.errand_retry {t : Task} {c : CoordinatorRef} {x : Errand}
    (h : (t.retry c).errand? = some x) : t.errand = x := by
  simp only [retry] at h
  cases htype : t.type with
  | payment | employeeDb =>
    simp only [htype] at h
    simp only [errand, htype]
    exact Option.some.inj h
  | messaging =>
    simp only [htype] at h
    cases hm : t.message with
    | none =>
      rw [hm] at h
      cases h
    | some m =>
      rw [hm] at h
      simp only [errand, htype]
      exact Option.some.inj h

/-! ## Which stage leads to which -/

/-- The one stage of the order leads to the other, in an action that ends in this world and leaves
this to do. -/
inductive Stage.Leads (o : OrderRef) (v : World) (todo : List Action) : Stage → Stage → Prop
  | same (st : Stage) : Leads o v todo st st
  | shipped (h : v.shipped o = true) : Leads o v todo .shipping .payment
  | turnedAway (c : CoordinatorRef) (h : todo = [.escalate c o]) :
      Leads o v todo .shipping .escalation
  | told : Leads o v todo .payment .messaging
  | handed (st : Stage) (h : st ≠ .shipping) : Leads o v todo st .escalation

theorem Stage.Leads.of_deeds {o : OrderRef} {w v : World} {todo : List Action} {st st' : Stage}
    (h : Stage.Leads o v todo st st') (hd : w.deeds = v.deeds) : Stage.Leads o w todo st st' := by
  cases h with
  | same => exact .same _
  | shipped h => exact .shipped ((World.shipped_of_deeds hd o).trans h)
  | turnedAway c h => exact .turnedAway c h
  | told => exact .told
  | handed _ h => exact .handed _ h

/-- Whatever a further action is the errand of, a task in the store was, or the first action was,
or its stage leads there. -/
def Action.Sends (w v : World) (todo : List Action) (a d : Action) : Prop :=
  ∀ x, d.errand? = some x → (∃ t ∈ w.collaborators.store, t.errand = x) ∨
    ∃ st, a.errand? = some ⟨x.order, st⟩ ∧ Stage.Leads x.order v todo st x.stage

section Sends
variable {s : Setup} {w v : World} {todo : List Action} {a d : Action}

theorem Action.Sends.of_none (hd : d.errand? = none) : a.Sends w v todo d := by
  intro x hx
  rw [hd] at hx
  cases hx

theorem Action.Sends.same (hd : d.errand? = a.errand?) : a.Sends w v todo d := by
  intro x hx
  rw [hd] at hx
  exact .inr ⟨x.stage, hx, .same _⟩

theorem Action.Sends.led {o : OrderRef} {st st' : Stage} (ha : a.errand? = some ⟨o, st⟩)
    (hd : d.errand? = some ⟨o, st'⟩) (h : Stage.Leads o v todo st st') : a.Sends w v todo d := by
  intro x hx
  rw [hd] at hx
  cases hx
  exact .inr ⟨st, ha, h⟩

theorem Success.sends {c : CoordinatorRef} {work : Work} (n : UInt32)
    (h : Success s w.books c work v todo) :
    ∀ d ∈ todo, (Action.attempt ⟨c, work⟩ n).Sends w v todo d := by
  have nothing (d : Action) (hd : d ∈ []) : (Action.attempt ⟨c, work⟩ n).Sends w v todo d :=
    absurd hd List.not_mem_nil
  cases h with
  | shipped o r _ hv =>
    have hshipped : v.shipped o = true := by
      have hd : v.deeds = _ := congrArg Books.deeds hv
      rw [World.shipped_eq, hd]
      simp [Books.deed, Event.isShipmentOf]
    exact List.forall_mem_singleton.mpr (.led rfl rfl (.shipped hshipped))
  | paid o r _ hp hv => exact List.forall_mem_singleton.mpr (.led rfl rfl .told)
  | told | handed | removed => exact nothing
  | added t _ hv => exact List.forall_mem_singleton.mpr (.of_none rfl)
  | visited t rest now _ hs hc hf hv =>
    refine List.forall_mem_cons.mpr ⟨fun x hx => ?_, List.forall_mem_singleton.mpr (.of_none rfl)⟩
    have hstore : w.collaborators.store = t :: rest := hs
    refine .inl ⟨t, ?_, Task.errand_retry hx⟩
    rw [hstore]
    exact List.mem_cons_self ..
  | condemned =>
    exact List.forall_mem_cons.mpr ⟨.of_none rfl, List.forall_mem_singleton.mpr (.of_none rfl)⟩

theorem Setback.sends {c : CoordinatorRef} {work : Work} {f : Failure} (n : UInt32)
    (h : Setback s w.books c work f v todo) :
    ∀ d ∈ todo, (Action.attempt ⟨c, work⟩ n).Sends w v todo d := by
  have nothing (d : Action) (hd : d ∈ []) : (Action.attempt ⟨c, work⟩ n).Sends w v todo d :=
    absurd hd List.not_mem_nil
  cases h with
  | turnedAway o f i _ hn hv =>
    exact List.forall_mem_singleton.mpr (.led rfl rfl (.turnedAway c rfl))
  | notPlaced | declinedLate | givenUp | leftAlone | unseen => exact nothing
  | declined o _ hp hv => exact List.forall_mem_singleton.mpr (.led rfl rfl .told)
  | unpaid o f _ hf hs hv =>
    exact List.forall_mem_cons.mpr ⟨.led rfl rfl .told, List.forall_mem_singleton.mpr (.same rfl)⟩
  | stillUnpaid o f _ hf hs hv => exact List.forall_mem_singleton.mpr (.same rfl)
  | undelivered o m f _ hm ht hv =>
    exact List.forall_mem_cons.mpr
      ⟨.same rfl, List.forall_mem_singleton.mpr (.led rfl rfl (.handed _ (by decide)))⟩
  | unattended o f _ he ht hv => exact List.forall_mem_singleton.mpr (.same rfl)
  | notQueued t f _ htype hp hv =>
    have herrand : (Action.attempt ⟨c, .add t⟩ n).errand? = some ⟨t.order, .payment⟩ := by
      simp only [Action.errand?, Work.errand?, Task.errand, htype, TaskType.stage]
    exact List.forall_mem_cons.mpr ⟨.led herrand rfl .told,
      List.forall_mem_singleton.mpr (.led herrand rfl (.handed _ (by decide)))⟩
  | notAdded t f _ hp hv =>
    exact List.forall_mem_singleton.mpr (.led rfl rfl (.handed _ t.type.stage_ne_shipping))

theorem Effect.sends (h : Effect s w a v todo) : ∀ d ∈ todo, a.Sends w v todo d := by
  have nothing (d : Action) (hd : d ∈ []) : a.Sends w v todo d := absurd hd List.not_mem_nil
  cases h with
  | idle _ _ ha ht hv =>
    intro d hd
    obtain ⟨n, rfl⟩ := ht d hd
    exact .of_none rfl
  | placing c o _ hv =>
    exact List.forall_mem_cons.mpr ⟨.same rfl, List.forall_mem_singleton.mpr (.of_none rfl)⟩
  | waiting | lost | passed | crashed => exact nothing
  | started j _ hj hv =>
    exact List.forall_mem_cons.mpr
      ⟨.same (hj.errand 0), List.forall_mem_singleton.mpr (.of_none rfl)⟩
  | expired c o _ hp ht hv => exact List.forall_mem_singleton.mpr (.led rfl rfl .told)
  | deferring c o _ hp ht hv =>
    exact List.forall_mem_cons.mpr
      ⟨.same rfl, List.forall_mem_singleton.mpr (.led rfl rfl (.handed _ (by decide)))⟩
  | escalating c t f _ hv => exact List.forall_mem_singleton.mpr (.same rfl)
  | drainingOn c d _ hc hv =>
    exact List.forall_mem_cons.mpr ⟨.of_none rfl, List.forall_mem_singleton.mpr (.of_none rfl)⟩
  | again j n m d f _ hf hv =>
    exact List.forall_mem_cons.mpr ⟨.of_none rfl, List.forall_mem_singleton.mpr (.same rfl)⟩
  | unneeded j n _ hn hv =>
    intro d hd
    obtain ⟨c, rfl⟩ : ∃ c, d = .settleDrain c := by
      by_cases hj : j.work = .drain
      · rw [if_pos hj] at hd
        exact ⟨_, List.mem_singleton.mp hd⟩
      · rw [if_neg hj] at hd
        exact absurd hd List.not_mem_nil
    exact .of_none rfl
  | succeeded c work n _ _ hs => exact hs.sends n
  | failed c work n f _ _ hf hs => exact hs.sends n

end Sends

/-! ## What a stage may change -/

/-- The order is changed as this stage may change it; a notice that is recorded stays. -/
structure Stage.Keeps (st : Stage) (x y : Order) : Prop where
  notice : ∀ n, x.notice = some n → y.notice = some n
  shown : st ≠ .shipping → st ≠ .payment → y.notice = x.notice
  payment : st ≠ .payment → y.payment = x.payment
  sent : st ≠ .messaging → y.sent = x.sent
  escalated : st ≠ .escalation → y.escalated = x.escalated

section Keeps
variable {s : Setup} {w v : World} {todo : List Action} {a : Action}

theorem Stage.Keeps.refl (st : Stage) (x : Order) : st.Keeps x x :=
  ⟨fun _ h => h, fun _ _ => rfl, fun _ => rfl, fun _ => rfl, fun _ => rfl⟩

theorem Stage.Keeps.trans {st : Stage} {x y z : Order} (h : st.Keeps x y) (k : st.Keeps y z) :
    st.Keeps x z where
  notice n hn := k.notice n (h.notice n hn)
  shown hs hp := (k.shown hs hp).trans (h.shown hs hp)
  payment hst := (k.payment hst).trans (h.payment hst)
  sent hst := (k.sent hst).trans (h.sent hst)
  escalated hst := (k.escalated hst).trans (h.escalated hst)

theorem Stage.keeps_note {st : Stage} (hst : st = .shipping ∨ st = .payment) (x : Order)
    (n : SiteNotice) : st.Keeps x (x.recordNotice n) := by
  have hno : ¬ (st ≠ .shipping ∧ st ≠ .payment) := fun h => hst.elim h.1 h.2
  simp only [Order.recordNotice]
  cases hx : x.notice with
  | some m => exact .refl st x
  | none =>
    refine ⟨fun m hm => ?_, fun hs hp => absurd ⟨hs, hp⟩ hno, fun _ => rfl, fun _ => rfl,
      fun _ => rfl⟩
    rw [hx] at hm
    cases hm

theorem Stage.keeps_pay (x : Order) (p : PaymentStatus) :
    Stage.payment.Keeps x { x with payment := p } :=
  ⟨fun _ h => h, fun _ _ => rfl, fun h => absurd rfl h, fun _ => rfl, fun _ => rfl⟩

theorem Stage.keeps_tell (x : Order) (m : MessageType) :
    Stage.messaging.Keeps x { x with sent := .ofMessage m } :=
  ⟨fun _ h => h, fun _ _ => rfl, fun _ => rfl, fun h => absurd rfl h, fun _ => rfl⟩

theorem Stage.keeps_hand (x : Order) : Stage.escalation.Keeps x { x with escalated := true } :=
  ⟨fun _ h => h, fun _ _ => rfl, fun _ => rfl, fun _ => rfl, fun h => absurd rfl h⟩

/-- Every order but one is as it was, and that one as the stage may change it. -/
def Books.Alters (b b' : Books) (p : OrderRef) (st : Stage) : Prop :=
  ∀ o, b'.order o = b.order o ∨ o = p ∧ st.Keeps (b.order o) (b'.order o)

theorem Books.alters_change (b : Books) (p : OrderRef) {st : Stage} {f : Order → Order}
    (hf : ∀ x, st.Keeps x (f x)) : b.Alters (b.change p f) p st := by
  intro o
  rw [Books.order_change]
  split
  · next h =>
    rw [h.1]
    exact .inr ⟨rfl, hf _⟩
  · exact .inl rfl

theorem Books.Alters.trans {b b' b'' : Books} {p : OrderRef} {st : Stage} (h : b.Alters b' p st)
    (k : b'.Alters b'' p st) : b.Alters b'' p st := by
  intro o
  obtain hk | ⟨rfl, hk⟩ := k o
  · rw [hk]
    exact h o
  · refine .inr ⟨rfl, ?_⟩
    obtain hh | ⟨-, hh⟩ := h o
    · rw [hh] at hk
      exact hk
    · exact hh.trans hk

/-- Either the order is as it was, or it was changed on this errand, as its stage may change it. -/
def World.KeepsOn (w v : World) (errand? : Option Errand) (o : OrderRef) : Prop :=
  v.order o = w.order o ∨ ∃ st, errand? = some ⟨o, st⟩ ∧ st.Keeps (w.order o) (v.order o)

theorem World.keepsOn_of_alters {b : Books} {p : OrderRef} {st : Stage} {errand? : Option Errand}
    (hv : v.books = b) (h : w.books.Alters b p st) (he : errand? = some ⟨p, st⟩) (o : OrderRef) :
    w.KeepsOn v errand? o := by
  have ho : v.order o = b.order o := congrArg (fun b : Books => b.order o) hv
  rw [World.KeepsOn, ho]
  obtain hsame | ⟨rfl, hk⟩ := h o
  · exact .inl hsame
  · exact .inr ⟨st, he, hk⟩

theorem Success.keeps {c : CoordinatorRef} {work : Work} (h : Success s w.books c work v todo)
    (o : OrderRef) : w.KeepsOn v work.errand? o := by
  have same {b : Books} (hv : v.books = b) (hb : b.orders = w.books.orders) :
      w.KeepsOn v work.errand? o := by
    have horders : v.orders = w.orders := (congrArg Books.orders hv).trans hb
    exact .inl (by rw [World.order, World.order, horders])
  cases h with
  | shipped _ _ _ hv | added _ _ hv | visited _ _ _ _ _ _ _ hv | condemned _ _ _ _ _ _ _ _ _ hv
  | removed _ _ _ _ hv => exact same hv rfl
  | paid p r _ hp hv =>
    have hpaid : w.books.Alters ((w.books.deed _).pay p .done) p .payment :=
      Books.alters_change (w.books.deed (.answered (.payment p (w.books.order p).price) r)) p
        fun x => Stage.keeps_pay x .done
    have hnoted := Books.alters_change
      ((w.books.deed (.answered (.payment p (w.books.order p).price) r)).pay p .done) p
      fun x => Stage.keeps_note (.inr rfl) x .paymentSuccessful
    exact World.keepsOn_of_alters hv (hpaid.trans hnoted) rfl o
  | told p m r _ hm hv =>
    have htold := Books.alters_change (w.books.deed (.answered (.messaging p m) r)) p fun x =>
      Stage.keeps_tell x m
    exact World.keepsOn_of_alters hv htold rfl o
  | handed p r _ he hv =>
    have hhanded := Books.alters_change (w.books.deed (.answered (.employee p) r)) p
      Stage.keeps_hand
    exact World.keepsOn_of_alters hv (fun q => hhanded q) rfl o

theorem Setback.keeps {c : CoordinatorRef} {work : Work} {f : Failure}
    (h : Setback s w.books c work f v todo) (o : OrderRef) : w.KeepsOn v work.errand? o := by
  have noted (p : OrderRef) (n : SiteNotice) {st : Stage} (hst : st = .shipping ∨ st = .payment) :
      w.books.Alters (w.books.note p n) p st :=
    Books.alters_change _ p fun x => Stage.keeps_note hst x n
  cases h with
  | turnedAway p f n _ hn hv => exact World.keepsOn_of_alters hv (noted p n (.inl rfl)) rfl o
  | notPlaced p f _ hv => exact World.keepsOn_of_alters hv (noted p _ (.inl rfl)) rfl o
  | declined p _ hp hv =>
    have hpaid := Books.alters_change (w.books.note p .paymentDetailsInvalid) p
      fun x => Stage.keeps_pay x .notDone
    exact World.keepsOn_of_alters hv ((noted p _ (.inr rfl)).trans hpaid) rfl o
  | declinedLate p _ hp hv | unpaid p _ _ _ _ hv =>
    exact World.keepsOn_of_alters hv (noted p _ (.inr rfl)) rfl o
  | notQueued t f _ htype hp hv =>
    have herrand : (Work.add t).errand? = some ⟨t.order, .payment⟩ := by
      simp only [Work.errand?, Task.errand, htype, TaskType.stage]
    have hpaid := Books.alters_change w.books t.order fun x => Stage.keeps_pay x .notDone
    exact World.keepsOn_of_alters hv hpaid herrand o
  | _ => next hv => exact .inl (World.order_of_books hv o)

theorem Effect.keeps (h : Effect s w a v todo) (o : OrderRef) : w.KeepsOn v a.errand? o := by
  cases h with
  | idle _ _ _ _ hv => exact .inl (World.order_of_books hv o)
  | waiting _ _ _ hv | crashed _ _ _ _ _ _ hv =>
    exact .inl (congrArg (fun b : Books => b.order o) hv)
  | expired c p _ hp ht hv =>
    have hpaid := Books.alters_change w.books p fun x => Stage.keeps_pay x .notDone
    exact World.keepsOn_of_alters hv hpaid rfl o
  | succeeded c work n _ _ hs => exact hs.keeps o
  | failed c work n f _ _ hf hs => exact hs.keeps o
  | _ => next hv => exact .inl (World.order_of_books hv o)

/-- An action does one deed at most, and for its errand. -/
theorem Effect.deed_errand (h : Effect s w a v todo) :
    v.deeds = w.deeds ∨
      ∃ e, v.deeds = e :: w.deeds ∧ ∀ x, e.errand? = some x → a.errand? = some x := by
  refine h.deed_of.imp id fun ⟨e, hv, he⟩ => ⟨e, hv, fun x hx => ?_⟩
  cases he with
  | remarked r => cases hx
  | answered c work n ha r =>
    rw [ha]
    exact (callOf_errand work w).symm.trans hx
  | panicked c work n ha =>
    rw [ha]
    exact (callOf_errand work w).symm.trans hx

end Keeps

/-- A deed for another errand is no shipment of the order. -/
theorem World.shipped_of_errand {w v : World} {o : OrderRef} {P : Errand → Prop}
    (hd : v.deeds = w.deeds ∨
      ∃ e, v.deeds = e :: w.deeds ∧ ∀ x, e.errand? = some x → P x) (hP : ¬ P ⟨o, .shipping⟩) :
    v.shipped o = w.shipped o := by
  obtain hd | ⟨e, hd, he⟩ := hd
  · exact shipped_of_deeds hd o
  · have hno : e.isShipmentOf o = false := by
      by_contra hship
      refine hP (he _ ?_)
      cases e with
      | answered c r =>
        cases c with
        | shipping p item address =>
          obtain rfl : p = o := by simpa [Event.isShipmentOf] using hship
          rfl
        | _ => exact absurd rfl hship
      | _ => exact absurd rfl hship
    rw [shipped_eq, shipped_eq, hd, List.any_cons, hno, Bool.false_or]

/-! ## Systems -/

/-- Whoever asks about the order asks for it to be placed. -/
def Happening.PlacesOnly (o : OrderRef) (h : Happening) : Prop :=
  ∀ q, h = .move (.ask q) → q.order = o → ∃ c, q = .place c o

namespace System
variable {s : Setup} {σ τ : System} {h : Happening}

/-- Some action that is outstanding, or some task in the store, is this errand. -/
def Runs (σ : System) (x : Errand) : Prop :=
  (∃ a ∈ σ.outstanding, a.errand? = some x) ∨ ∃ t ∈ σ.world.collaborators.store, t.errand = x

theorem runs_nothing {σ : System} (hout : σ.outstanding = [])
    (hstore : σ.world.collaborators.store = []) (x : Errand) : ¬ σ.Runs x := by
  rintro (⟨a, ha, -⟩ | ⟨t, ht, -⟩)
  · rw [hout] at ha
    exact absurd ha List.not_mem_nil
  · rw [hstore] at ht
    exact absurd ht List.not_mem_nil

/-- Where an errand that is run after a happening comes from. -/
inductive Arises (s : Setup) (h : Happening) (σ τ : System) (x : Errand) : Prop
  | kept (hx : σ.Runs x)
  | led (i : Nat) (a : Action) (rest : List Action) (v : World) (todo more : List Action)
      (st : Stage) (hh : h = .move (.act i)) (ha : Acts s σ τ i a rest v todo more)
      (hst : a.errand? = some ⟨x.order, st⟩) (hne : st ≠ x.stage)
      (hl : Stage.Leads x.order τ.world todo st x.stage)
  | asked (q : Request) (hh : h = .move (.ask q)) (hx : q.action.errand? = some x)
  | ordered (c : CoordinatorRef) (customer : Customer) (item : String) (price : Float)
      (hh : h = .order c customer item price) (ho : x.order = σ.world.orders.length)
      (hst : x.stage = .shipping)

theorem Task.Becomes.errand {t u : Task} (h : t.Becomes u) : u.errand = t.errand := by
  obtain rfl | ⟨now, rfl⟩ := h <;> rfl

theorem arises (hp : Passage s h σ τ) {x : Errand} (hx : τ.Runs x) : Arises s h σ τ x := by
  obtain ⟨t, ht, rfl⟩ | ⟨b, hbo, hbx⟩ := hx.symm
  · obtain ⟨a, v, todo, ha, he, hb, -⟩ | ⟨_, _, hb, -⟩ := hp.books_cases
    · have hstore : τ.world.collaborators.store = v.collaborators.store := congrArg Books.store hb
      rw [hstore] at ht
      obtain ⟨u, hu, hut⟩ | ⟨c, n, rfl⟩ := he.task t ht
      · exact .kept (.inr ⟨u, hu, (Task.Becomes.errand hut).symm⟩)
      · exact .kept (.inl ⟨_, ha, rfl⟩)
    · have hstore : τ.world.collaborators.store = σ.world.collaborators.store :=
        congrArg Books.store hb
      rw [hstore] at ht
      exact .kept (.inr ⟨t, ht, rfl⟩)
  have minor (hm : b.isMinor = true) : Arises s h σ τ x := by
    rw [Action.errand?_of_minor hm] at hbx
    cases hbx
  cases hp with
  | acted a v todo ha he hb hclock htodo kept came load acts =>
    obtain hbo | hbo | hbo | ⟨j, hj, rfl⟩ := came b hbo
    · exact .kept (.inl ⟨b, hbo, hbx⟩)
    · exact minor hbo
    · obtain ⟨t, ht, htx⟩ | ⟨st, hst, hl⟩ := he.sends b hbo x hbx
      · exact .kept (.inr ⟨t, ht, htx⟩)
      · by_cases hne : st = x.stage
        · subst hne
          exact .kept (.inl ⟨a, ha, hst⟩)
        · obtain ⟨i, rest, more, hh, hacts⟩ := acts
          have hleads := hl.of_deeds (World.deeds_of_books hb)
          exact .led i a rest v todo more st hh hacts hst hne hleads
    · rw [hj.errand 0] at hbx
      exact .kept (.inl ⟨a, ha, hbx⟩)
  | shifted hb kept came =>
    obtain hbo | hbo := came b hbo
    · exact .kept (.inl ⟨b, hbo, hbx⟩)
    · exact minor hbo
  | asked q hh hq hw ho =>
    obtain hbo | rfl := (ho b).mp hbo
    · exact .kept (.inl ⟨b, hbo, hbx⟩)
    · exact .asked q hh hbx
  | ordered c customer item price y hh hfresh hb ho =>
    obtain hbo | rfl := (ho b).mp hbo
    · exact .kept (.inl ⟨b, hbo, hbx⟩)
    · cases hbx
      exact .ordered c customer item price hh rfl rfl

/-- An order that is there is as it was, or as the stage of some errand may change it. -/
theorem keeps_of_passage (hp : Passage s h σ τ) {o : OrderRef} (ho : o < σ.world.orders.length) :
    τ.world.order o = σ.world.order o ∨
      ∃ st, σ.Runs ⟨o, st⟩ ∧ st.Keeps (σ.world.order o) (τ.world.order o) := by
  obtain ⟨a, v, todo, ha, he, hb, -⟩ | ⟨_, _, -, hsame⟩ := hp.books_cases
  · rw [World.order_of_books hb o]
    exact (he.keeps o).imp id fun ⟨st, hst, hk⟩ => ⟨st, .inl ⟨a, ha, hst⟩, hk⟩
  · exact .inl (hsame o ho)

/-- A happening does one deed at most, and for an errand that was run. -/
theorem deed_errand (hp : Passage s h σ τ) :
    τ.world.deeds = σ.world.deeds ∨ ∃ e, τ.world.deeds = e :: σ.world.deeds ∧
      ∀ x, e.errand? = some x → σ.Runs x := by
  obtain ⟨a, v, todo, ha, he, hb, -⟩ | ⟨_, _, hb, -⟩ := hp.books_cases
  · rw [World.deeds_of_books hb]
    exact he.deed_errand.imp id fun ⟨e, hv, hx⟩ => ⟨e, hv, fun x he => .inl ⟨a, ha, hx x he⟩⟩
  · exact .inl (congrArg Books.deeds hb)

end System
end Fulfilment
