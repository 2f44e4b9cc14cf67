import Fulfilment.Proofs.Stage.Change

/-! A payment call for an order whose payment is settled, one action at a time.

* `Action.reruns`: what such a call leads to.
* `World.Harmless`: what it may change.
* `perform_rerun`: each of these actions is harmless and leads to its like. -/
namespace Fulfilment

set_option autoImplicit false

/-! ## What a further payment call leads to -/

/-- The payment of the order, or the message that its payment is pending. -/
def Work.reruns (o : OrderRef) : Work → Bool
  | .payment p => p = o
  | .messaging p m => p = o && m = .paymentTrying
  | _ => false

def Action.reruns (o : OrderRef) : Action → Bool
  | .pay _ p => p = o
  | .deferPayment _ p => p = o
  | .tell _ p m => p = o && m = .paymentTrying
  | .attempt j _ => j.work.reruns o
  | .finish j => j.work.reruns o
  | .pause _ => true
  | .serve _ => true
  | _ => false

/-- No call is made, and no job is spawned but those that a payment call leads to. -/
def Event.isQuiet (o : OrderRef) : Event → Bool
  | .spawned j => j.work.reruns o
  | .remarked r => !r.isDropping
  | .called _ => false
  | .answered _ _ => false
  | .refused _ _ => false
  | .panicked _ => false
  | _ => true

/-! ## What it may change -/

/-- Who was asked for what, what collaborators hold and are to reply, and what is queued. -/
def World.fixtures (w : World) := (w.ids, w.collaborators, w.replies, w.queued, w.closed)

/-- Failures of payment and messaging are used up, time passes, jobs of its own are added; orders
are not looked at here. -/
structure World.Idles (o : OrderRef) (w v : World) : Prop where
  fixtures : v.fixtures = w.fixtures
  clock : w.clock ≤ v.clock
  faults : ∀ sv, v.faults.get sv <:+ w.faults.get sv ∧
    (sv ≠ .payment → sv ≠ .messaging → v.faults.get sv = w.faults.get sv)
  pending : ∀ j ∈ v.pending, j ∈ w.pending ∨ j.work.reruns o = true
  journal : ∃ events, v.journal = events ++ w.journal ∧ ∀ e ∈ events, e.isQuiet o = true

/-- Besides, the order may get its first notice if its payment failed. -/
structure World.Harmless (o : OrderRef) (w v : World) : Prop extends w.Idles o v where
  orders : v.orders = w.orders ∨
    (w.order o).payment = .notDone ∧ (w.order o).notice = none ∧
      ∃ n, v.orders = (w.modifyOrder o (·.recordNotice n)).orders

theorem FaultScripts.get_pop_of_ne (f : FaultScripts) {sv sv' : Service} (h : sv ≠ sv') :
    (f.pop sv).2.get sv' = f.get sv' := by
  simp only [pop]
  cases f.get sv with
  | nil => rfl
  | cons fault rest => cases sv <;> cases sv' <;> first | rfl | exact absurd rfl h

theorem Work.service_of_reruns {o : OrderRef} {work : Work} (h : work.reruns o = true) :
    work.service = .payment ∨ work.service = .messaging := by
  cases work with
  | payment => exact .inl rfl
  | messaging => exact .inr rfl
  | _ => cases h

namespace World.Idles
variable {o : OrderRef} {u v w : World}

/-- Nothing of this is changed. -/
theorem of_eq (draws : Draws) (orders : List Order) (allowance : Option Nat) (stats : PoolStats)
    (h : v = { w with draws, orders, allowance, stats }) : w.Idles o v := by
  rw [h]
  exact ⟨rfl, Nat.le_refl _, fun _ => ⟨List.suffix_rfl, fun _ _ => rfl⟩, fun _ hj => .inl hj, [],
    rfl, by simp⟩

theorem refl (w : World) : w.Idles o w := .of_eq _ _ _ _ rfl

theorem trans (h : u.Idles o v) (k : v.Idles o w) : u.Idles o w where
  fixtures := k.fixtures.trans h.fixtures
  clock := Nat.le_trans h.clock k.clock
  faults sv := ⟨(k.faults sv).1.trans (h.faults sv).1,
    fun hp hm => ((k.faults sv).2 hp hm).trans ((h.faults sv).2 hp hm)⟩
  pending j hj := (k.pending j hj).elim (h.pending j) .inr
  journal := by
    obtain ⟨es, hes, hquiet⟩ := h.journal
    obtain ⟨fs, hfs, hquiet'⟩ := k.journal
    refine ⟨fs ++ es, by rw [hfs, hes, List.append_assoc], fun e he => ?_⟩
    exact (List.mem_append.mp he).elim (hquiet' e) (hquiet e)

theorem record (w : World) {e : Event} (he : e.isQuiet o = true) : w.Idles o (w.record e) :=
  ⟨rfl, Nat.le_refl _, fun _ => ⟨List.suffix_rfl, fun _ _ => rfl⟩, fun _ hj => .inl hj, [e], rfl,
    by simpa using he⟩

theorem remark (w : World) {r : Remark} (hr : r.isDropping = false) : w.Idles o (w.remark r) :=
  .record w (by simp [Event.isQuiet, hr])

theorem enlist (w : World) {j : Job} (hj : j.work.reruns o = true) : w.Idles o (w.enlist j) where
  fixtures := rfl
  clock := Nat.le_refl _
  faults _ := ⟨List.suffix_rfl, fun _ _ => rfl⟩
  pending k hk := by
    obtain hk | hk := List.mem_append.mp hk
    · exact .inl hk
    · rw [List.mem_singleton.mp hk]
      exact .inr hj
  journal := ⟨[], rfl, by simp⟩

theorem popFault (w : World) {j : Job} (hj : j.work.reruns o = true) :
    w.Idles o (w.popFault j.work.service).2 where
  fixtures := rfl
  clock := Nat.le_refl _
  faults sv := by
    refine ⟨w.faults.suffix_pop j.work.service sv, fun hp hm => w.faults.get_pop_of_ne ?_⟩
    obtain h | h := Work.service_of_reruns hj
    · rw [h]
      exact hp.symm
    · rw [h]
      exact hm.symm
  pending _ hk := .inl hk
  journal := ⟨[], rfl, by simp⟩

theorem advance (w : World) (h : w.clock ≤ World.lastClock) (d : Span) :
    w.Idles o (w.advance d) where
  fixtures := rfl
  clock := by
    show w.clock ≤ min ((w.clock : Int) + (d : Int)).toNat World.lastClock
    omega
  faults _ := ⟨List.suffix_rfl, fun _ _ => rfl⟩
  pending _ hj := .inl hj
  journal := ⟨[], rfl, by simp⟩

theorem showNotice (w : World) (p : OrderRef) (n : SiteNotice) : w.Idles o (w.showNotice p n) := by
  simp only [World.showNotice]
  cases (w.order p).notice with
  | some _ => exact .refl w
  | none => exact (of_eq _ _ _ _ rfl).trans (.remark _ rfl)

end World.Idles

/-! ## One action -/

/-- The payment is settled, and the customer was told if it was taken. -/
structure World.Settled (o : OrderRef) (w : World) : Prop where
  payment : (w.order o).payment ≠ .trying
  noticed : (w.order o).payment = .done → (w.order o).notice ≠ none

/-- The action is performed, changes nothing but this, and leads to its like only. -/
def Outcome.Reruns (o : OrderRef) (w : World) (x : Outcome) : Prop :=
  ∃ v todo, x = .next v todo ∧ w.Harmless o v ∧ ∀ a ∈ todo, a.reruns o = true

section Steps
variable {s : Setup} {o : OrderRef} {u w : World}

theorem Outcome.Reruns.next {v : World} {todo : List Action} (h : w.Idles o v)
    (ho : v.orders = w.orders) (htodo : ∀ a ∈ todo, a.reruns o = true) :
    (Outcome.next v todo).Reruns o w :=
  ⟨v, todo, rfl, ⟨h, .inl ho⟩, htodo⟩

theorem World.Harmless.after {v : World} (h : u.Harmless o v) (hu : w.Idles o u)
    (ho : u.orders = w.orders) : w.Harmless o v := by
  have horder : u.order o = w.order o := by rw [World.order, World.order, ho]
  refine ⟨hu.trans h.toIdles, ?_⟩
  obtain hsame | ⟨hp, hn, n, hnoted⟩ := h.orders
  · exact .inl (hsame.trans ho)
  · rw [horder] at hp hn
    refine .inr ⟨hp, hn, n, ?_⟩
    rw [hnoted, World.modifyOrder, World.modifyOrder, ho]

theorem World.Harmless.before {v : World} (h : w.Harmless o u) (hv : u.Idles o v)
    (ho : v.orders = u.orders) : w.Harmless o v :=
  ⟨h.toIdles.trans hv, by rw [ho]; exact h.orders⟩

/-- What follows a step that left the orders alone. -/
theorem Outcome.Reruns.after {x : Outcome} (h : x.Reruns o u) (hu : w.Idles o u)
    (ho : u.orders = w.orders) : x.Reruns o w := by
  obtain ⟨v, todo, rfl, hv, htodo⟩ := h
  exact ⟨v, todo, rfl, hv.after hu ho, htodo⟩

theorem World.Settled.of_orders (h : w.Settled o) (ho : u.orders = w.orders) : u.Settled o := by
  have horder : u.order o = w.order o := by rw [World.order, World.order, ho]
  exact ⟨horder ▸ h.payment, horder ▸ h.noticed⟩

/-! ### Jobs -/

theorem spawn_reruns {j : Job} (hj : j.work.reruns o = true) (w : World) :
    (spawn s j w).Reruns o w := by
  have hspawned : w.Idles o (w.record (.spawned j)) := .record w hj
  simp only [spawn]
  split
  · exact .next (hspawned.trans (.enlist _ hj)) rfl (by simp)
  · split
    · exact .next (hspawned.trans (.record _ rfl)) rfl (by simp)
    · have hspent : w.Idles o (w.record (.spawned j)).spendAllowance :=
        hspawned.trans (.of_eq _ _ _ _ rfl)
      refine Outcome.Reruns.after ?_ hspent rfl
      generalize (w.record (.spawned j)).spendAllowance = v
      simp only [launch]
      split
      · exact .next (.record v rfl) rfl (by simp [Action.reruns, hj])
      · split
        · exact .next ((World.Idles.of_eq _ _ _ _ rfl).trans (.remark _ rfl)) rfl (by simp)
        · exact .next ((World.Idles.of_eq _ _ _ _ rfl).trans (.enlist _ hj)) rfl (by simp)
      · exact .next (.enlist v hj) rfl (by simp)

theorem finished_reruns (j : Job) (w : World) : (Outcome.next (finished s j w) []).Reruns o w := by
  simp only [finished]
  split
  · exact .next (.refl w) rfl (by simp)
  · exact .next ((World.Idles.of_eq _ _ _ _ rfl).trans (.record _ rfl)) rfl (by simp)
  · exact .next (.record w rfl) rfl (by simp)

/-! ### After a failure -/

theorem harmless_showNotice (h : w.Settled o) (n : SiteNotice) :
    w.Harmless o (w.showNotice o n) := by
  refine ⟨.showNotice w o n, ?_⟩
  cases hn : (w.order o).notice with
  | some i =>
    refine .inl ?_
    simp only [World.showNotice, hn]
  | none =>
    have hp : (w.order o).payment = .notDone := by
      cases hp : (w.order o).payment with
      | trying => exact absurd hp h.payment
      | done => exact absurd hn (h.noticed hp)
      | notDone => rfl
    refine .inr ⟨hp, rfl, n, ?_⟩
    simp only [World.showNotice, hn]
    rfl

theorem payment_showNotice (w : World) (p : OrderRef) (n : SiteNotice) :
    ((w.showNotice p n).order o).payment = (w.order o).payment := by
  simp only [World.showNotice]
  cases (w.order p).notice with
  | some i => rfl
  | none =>
    refine World.order_modifyOrder_congr Order.payment w p o _ fun x => ?_
    cases hx : x.notice <;> simp only [Order.recordNotice, hx]

theorem failPayment_settled (hu : w.Unlocked) (hp : (w.order o).payment ≠ .trying) :
    failPayment s o w = some (w, false) := by
  rw [failPayment_eq s o w hu, failPending, if_neg hp]

theorem paymentFailed_reruns (c : CoordinatorRef) (f : Failure) (hu : w.Unlocked)
    (h : w.Settled o) : (paymentFailed s c o f w).Reruns o w := by
  simp only [paymentFailed]
  split
  · have hv : ((w.showNotice o .paymentDetailsInvalid).order o).payment ≠ .trying := by
      rw [payment_showNotice]
      exact h.payment
    rw [failPayment_settled (hu.showNotice o _) hv]
    exact ⟨_, _, rfl, (harmless_showNotice h _).before (.remark _ rfl) rfl, by simp⟩
  · split
    · exact ⟨_, _, rfl, (harmless_showNotice h _).before (.remark _ rfl) rfl,
        by simp [Action.reruns]⟩
    · exact .next (.refl w) rfl (by simp [Action.reruns])

theorem messagingFailed_reruns (c : CoordinatorRef) (f : Failure) (h : w.Settled o) :
    (messagingFailed s c o .paymentTrying f w).Reruns o w := by
  have hneeds : (w.order o).needsMessage .paymentTrying = false := by
    simp [Order.needsMessage, h.payment]
  simp only [messagingFailed, hneeds, Bool.false_and, Bool.false_eq_true, if_false]
  exact .next (.remark w rfl) rfl (by simp)

theorem handOver_reruns {j : Job} (hj : j.work.reruns o = true) (f : Failure) (hu : w.Unlocked)
    (h : w.Settled o) : (handOver s j f w).Reruns o w := by
  obtain ⟨c, work⟩ := j
  cases work with
  | payment p =>
    obtain rfl : p = o := by simpa [Work.reruns] using hj
    exact paymentFailed_reruns c f hu h
  | messaging p m =>
    obtain ⟨rfl, rfl⟩ : p = o ∧ m = .paymentTrying := by simpa [Work.reruns] using hj
    exact messagingFailed_reruns c f h
  | _ => cases hj

theorem failed_reruns {j : Job} (hj : j.work.reruns o = true) (n : UInt32) (f : Failure)
    (hu : w.Unlocked) (h : w.Settled o) : (failed s j n f w).Reruns o w := by
  simp only [failed]
  split
  · exact .next (.of_eq _ _ _ _ rfl) rfl (by simp [Action.reruns, hj])
  · exact handOver_reruns hj f hu h

/-! ### Actions -/

theorem needed_reruns {j : Job} (hj : j.work.reruns o = true) (h : w.Settled o) :
    needed j w = false := by
  obtain ⟨c, work⟩ := j
  cases work with
  | payment p =>
    obtain rfl : p = o := by simpa [Work.reruns] using hj
    simpa [needed] using h.payment
  | messaging p m =>
    obtain ⟨rfl, rfl⟩ : p = o ∧ m = .paymentTrying := by simpa [Work.reruns] using hj
    simp [needed, Order.needsMessage, h.payment]
  | _ => cases hj

theorem skipped_reruns {j : Job} (hj : j.work.reruns o = true) (w : World) :
    (skipped j w).Reruns o w := by
  obtain ⟨c, work⟩ := j
  cases work with
  | payment p => exact .next (.remark w rfl) rfl (by simp)
  | messaging p m => exact .next (.remark w rfl) rfl (by simp)
  | _ => cases hj

/-- A failure may be met, but nothing is left to call for. -/
theorem attempt_reruns {j : Job} (hj : j.work.reruns o = true) (n : UInt32) (hu : w.Unlocked)
    (h : w.Settled o) : (attempt s j n w).Reruns o w := by
  have hpopped : w.Idles o (w.popFault j.work.service).2 := .popFault w hj
  have horders : (w.popFault j.work.service).2.orders = w.orders := rfl
  rw [attempt_eq s j n w hu]
  generalize w.popFault j.work.service = q at hpopped horders ⊢
  obtain ⟨fault, v⟩ := q
  cases fault with
  | some f =>
    have hmet : w.Idles o (v.remark (rejection j.work f v)) :=
      hpopped.trans (.remark v (rejection_isDropping j.work f v))
    have hv : (v.remark (rejection j.work f v)).orders = w.orders := horders
    exact (failed_reruns hj n f (hu.of_orders hv) (h.of_orders hv)).after hmet hv
  | none =>
    simp only [checkAndCall, needed_reruns hj h, Bool.false_eq_true, if_false]
    exact skipped_reruns hj w

theorem pay_reruns (c : CoordinatorRef) (hu : w.Unlocked) (h : w.Settled o) :
    (pay s c o w).Reruns o w := by
  simp only [pay]
  split
  · rw [failPayment_settled hu h.payment]
    exact .next (.remark w rfl) rfl (by simp)
  · exact spawn_reruns (by simp [Work.reruns]) w

theorem pause_reruns (d : Span) (hclock : w.clock ≤ World.lastClock) :
    (pause s d w).Reruns o w := by
  have htodo : ∀ a ∈ (if s.dispatch = .deferred ∧ 0 < s.sleepRuns then
      [Action.serve s.sleepRuns] else []), a.reruns o = true := by
    split <;> simp [Action.reruns]
  simp only [pause]
  split
  · exact .next ((World.Idles.record w rfl).trans (.advance (w.record (.slept d)) hclock d)) rfl
      htodo
  · exact .next (.record w rfl) rfl htodo

theorem startAt_harmless {i : Nat} {v : World} {todo : List Action}
    (h : startAt? s i w = some (v, todo)) : w.Harmless o v := by
  obtain ⟨j, u, -, -, rfl, hu⟩ := startAt?_eq_some h
  have herased : w.Idles o { w with pending := w.pending.eraseIdx i } :=
    ⟨rfl, Nat.le_refl _, fun _ => ⟨List.suffix_rfl, fun _ _ => rfl⟩,
      fun j hj => .inl (List.mem_of_mem_eraseIdx hj), [], rfl, by simp⟩
  obtain rfl | rfl | ⟨name, rfl⟩ := hu
  · exact ⟨herased.trans (.record _ rfl), .inl rfl⟩
  · exact ⟨(herased.trans (.of_eq _ _ _ _ rfl)).trans (.record _ rfl), .inl rfl⟩
  · exact ⟨(herased.trans (.remark _ rfl)).trans (.record _ rfl), .inl rfl⟩

/-- Each action that a further payment call leads to is harmless. It leads to its like, unless it
waits: then the first of the pending jobs may start. -/
theorem perform_rerun {a : Action} (ha : a.reruns o = true) (hclock : w.clock ≤ World.lastClock)
    (hu : w.Unlocked) (h : w.Settled o) :
    ∃ v todo, perform s a w = .next v todo ∧ w.Harmless o v ∧
      ((∀ b ∈ todo, b.reruns o = true) ∨ w.pending.length = v.pending.length + 1) := by
  have of_reruns (hr : (perform s a w).Reruns o w) : ∃ v todo, perform s a w = .next v todo ∧
      w.Harmless o v ∧
      ((∀ b ∈ todo, b.reruns o = true) ∨ w.pending.length = v.pending.length + 1) := by
    obtain ⟨v, todo, hp, hv, htodo⟩ := hr
    exact ⟨v, todo, hp, hv, .inl htodo⟩
  cases a with
  | pay c p =>
    obtain rfl : p = o := by simpa [Action.reruns] using ha
    exact of_reruns (pay_reruns c hu h)
  | deferPayment c p =>
    obtain rfl : p = o := by simpa [Action.reruns] using ha
    refine of_reruns ?_
    simp only [perform, deferPayment, h.payment, decide_false, Bool.false_and, Bool.false_eq_true,
      if_false]
    exact .next (.refl w) rfl (by simp)
  | tell c p m =>
    refine of_reruns ?_
    simp only [perform, tell]
    split
    · exact .next (.remark w rfl) rfl (by simp)
    · exact spawn_reruns (j := ⟨c, .messaging p m⟩) ha w
  | attempt j n => exact of_reruns (attempt_reruns ha n hu h)
  | finish j => exact of_reruns (finished_reruns j w)
  | pause d => exact of_reruns (pause_reruns d hclock)
  | serve n =>
    obtain hp | ⟨m, v, todo, hs, -, hp⟩ := serve_cases (s := s) n w
    · exact ⟨w, [], hp, ⟨.refl w, .inl rfl⟩, .inl (List.forall_mem_nil _)⟩
    · obtain ⟨j, hj, -, hpending, -⟩ := startAt_cases 0 w v todo hs
      have hlt : 0 < w.pending.length := (List.getElem?_eq_some_iff.mp hj).1
      refine ⟨v, _, hp, startAt_harmless hs, .inr ?_⟩
      rw [hpending, List.length_eraseIdx_of_lt hlt]
      omega
  | _ => cases ha

end Steps
end Fulfilment
