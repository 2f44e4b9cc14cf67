import Fulfilment.Proofs.Stage.Todo

/-! A call that takes time does what it does if the clock is moved before the attempt and the call
takes none: nothing reads the clock in between. So whatever holds where no call turns the clock back
holds wherever the clock goes.

* `World.timeless`: the same world, its scripted replies without the time they take.
* `attempt_timeless`: an attempt, with its time taken before it.
* `perform_timeless`: every other action takes the same time in both worlds. -/
namespace Fulfilment

set_option autoImplicit false

def Reply.timeless (r : Reply) : Reply := { r with advance := 0 }

def World.timeless (w : World) : World :=
  { w with replies := w.replies.map fun (k, r) => (k, r.timeless) }

def Outcome.timeless : Outcome → Outcome
  | .next w todo => .next w.timeless todo
  | .panic w => .panic w.timeless
  | .stuck w => .stuck w.timeless

theorem Reply.timeless_whole {s : Setup} {r : Reply} :
    r.timeless.Whole s ↔ interrupts s r = false :=
  ⟨fun h => h.uninterrupted, fun h => ⟨h, Int.le_refl _⟩⟩

theorem World.timeless_whole {s : Setup} {w : World} :
    w.timeless.Whole s ↔ w.Uninterrupted s := by
  constructor
  · intro h e he
    exact Reply.timeless_whole.mp (h _ (List.mem_map_of_mem he))
  · intro h e he
    obtain ⟨q, hq, rfl⟩ := List.mem_map.mp he
    exact Reply.timeless_whole.mpr (h q hq)

theorem World.Unlocked.timeless {w : World} (h : w.Unlocked) : w.timeless.Unlocked :=
  h.of_orders rfl

/-! ## Small changes -/

namespace World
variable (w : World)

theorem timeless_order (o : OrderRef) : w.timeless.order o = w.order o := rfl

theorem timeless_takeReply (k : CallKind) :
    w.timeless.takeReply k = ((w.takeReply k).1.timeless, (w.takeReply k).2.timeless) := by
  have hfind : w.timeless.replies.find? (·.1 = k) =
      (w.replies.find? (·.1 = k)).map fun (k, r) => (k, r.timeless) := List.find?_map ..
  have herase : w.timeless.replies.eraseP (·.1 = k) =
      (w.replies.eraseP (·.1 = k)).map fun (k, r) => (k, r.timeless) := List.eraseP_map ..
  simp only [takeReply, hfind, herase]
  cases w.replies.find? (·.1 = k) <;> rfl

theorem timeless_showNotice (o : OrderRef) (n : SiteNotice) :
    w.timeless.showNotice o n = (w.showNotice o n).timeless := by
  simp only [showNotice, timeless_order]
  cases (w.order o).notice <;> rfl

theorem timeless_failPending (o : OrderRef) :
    failPending o w.timeless = ((failPending o w).1.timeless, (failPending o w).2) := by
  by_cases hp : (w.order o).payment = .trying
  · have hp' : (w.timeless.order o).payment = .trying := hp
    simp only [failPending, if_pos hp, if_pos hp']
    rfl
  · have hp' : ¬ (w.timeless.order o).payment = .trying := hp
    simp only [failPending, if_neg hp, if_neg hp']

end World

section Timeless
variable {s : Setup}

/-! ## Jobs -/

theorem launch_timeless (j : Job) (w : World) :
    launch s j w.timeless = (launch s j w).timeless := by
  simp only [launch]
  cases s.dispatch with
  | deferred | inline | threads => rfl
  | pool name =>
    simp only [apply_ite Outcome.timeless]
    rfl

theorem spawn_timeless (j : Job) (w : World) : spawn s j w.timeless = (spawn s j w).timeless := by
  have hlaunch := launch_timeless (s := s) j (w.record (.spawned j)).spendAllowance
  simp only [spawn, apply_ite Outcome.timeless, ← hlaunch]
  rfl

theorem startAt_timeless (i : Nat) (w : World) :
    startAt? s i w.timeless = (startAt? s i w).map fun (v, todo) => (v.timeless, todo) := by
  have hpending : w.timeless.pending = w.pending := rfl
  simp only [startAt?, hpending]
  cases w.pending[i]? with
  | none => rfl
  | some j =>
    cases s.dispatch with
    | deferred =>
      simp only [apply_ite (Option.map _)]
      rfl
    | inline | pool | threads => rfl

/-! ## Attempts -/

theorem paymentFailed_timeless (c : CoordinatorRef) (o : OrderRef) (f : Failure) (w : World)
    (hu : w.Unlocked) :
    paymentFailed s c o f w.timeless = (paymentFailed s c o f w).timeless := by
  simp only [paymentFailed, apply_ite Outcome.timeless, w.timeless_showNotice]
  rw [failPayment_eq s o _ (hu.showNotice o _), failPayment_eq s o _ (hu.showNotice o _).timeless,
    World.timeless_failPending]
  rfl

theorem addFailed_timeless (c : CoordinatorRef) (t : Task) (f : Failure) (w : World)
    (hu : w.Unlocked) : addFailed s c t f w.timeless = (addFailed s c t f w).timeless := by
  simp only [addFailed, apply_ite Outcome.timeless]
  rw [failPayment_eq s t.order w hu, failPayment_eq s t.order _ hu.timeless,
    w.timeless_failPending]
  rfl

theorem handOver_timeless (j : Job) (f : Failure) (w : World) (hu : w.Unlocked) :
    handOver s j f w.timeless = (handOver s j f w).timeless := by
  obtain ⟨c, work⟩ := j
  cases work with
  | shipping o =>
    simp only [handOver, shippingFailed, w.timeless_showNotice]
    cases f.kind <;> rfl
  | payment o => exact paymentFailed_timeless c o f w hu
  | messaging | escalation =>
    simp only [handOver, messagingFailed, escalationFailed, apply_ite Outcome.timeless]
    rfl
  | add t => exact addFailed_timeless c t f w hu
  | drain | dequeue => rfl

theorem failed_timeless (j : Job) (n : UInt32) (f : Failure) (w : World) (hu : w.Unlocked) :
    failed s j n f w.timeless = (failed s j n f w).timeless := by
  simp only [failed, handOver_timeless j f w hu, apply_ite Outcome.timeless]
  rfl

theorem visit_timeless (c : CoordinatorRef) (t : Task) (w : World) :
    visit s c t w.timeless = (visit s c t w).timeless := by
  obtain ⟨o, type, message, first⟩ := t
  cases type with
  | payment | employeeDb =>
    simp only [visit, apply_ite Outcome.timeless]
    rfl
  | messaging =>
    cases message with
    | none | some m =>
      simp only [visit, apply_ite Outcome.timeless]
      rfl

theorem succeeded_timeless (j : Job) (r : Receipt) (w : World) :
    succeeded s j r w.timeless = (succeeded s j r w).timeless := by
  simp only [succeeded]
  split
  · rfl
  · next o tx _ =>
    have hpaid := (w.remark (.paid (w.idOf o) tx)).timeless_showNotice o .paymentSuccessful
    exact congrArg (Outcome.next · [.tell j.owner o .paymentSuccess]) hpaid
  · rfl
  · rfl
  · rfl
  · exact visit_timeless _ _ w
  · rfl
  · rfl

theorem skipped_timeless (j : Job) (w : World) :
    skipped j w.timeless = (skipped j w).timeless := by
  simp only [skipped]
  split <;> rfl

theorem settle_timeless (j : Job) (n : UInt32) (v : Verdict) (w : World) (hu : w.Unlocked) :
    settle s j n v w.timeless = (settle s j n v w).timeless := by
  cases v with
  | skipped => exact skipped_timeless j w
  | accepted r => exact succeeded_timeless j r w
  | refused f => exact failed_timeless j n f w hu
  | panicked | interrupted => rfl

theorem fulfil_timeless (work : Work) (empty : Bool) (w : World) :
    fulfil work empty w.timeless =
      ((fulfil work empty w).1.timeless, (fulfil work empty w).2) := by
  have hc : w.timeless.collaborators = w.collaborators := rfl
  cases work with
  | shipping | payment | messaging | add => rfl
  | escalation o =>
    simp only [fulfil, hc, w.timeless_order]
    generalize w.collaborators.park (w.order o).snapshot = q
    obtain ⟨new, c⟩ := q
    cases new <;> rfl
  | drain =>
    simp only [fulfil, hc]
    cases empty with
    | true => rfl
    | false => cases w.collaborators.head? <;> rfl
  | dequeue =>
    simp only [fulfil, hc]
    cases w.collaborators.take? <;> rfl

theorem answer_timeless (work : Work) (r : Reply) (w : World) :
    answer work r.timeless w.timeless =
      ((answer work r w).1.timeless, (answer work r w).2) := by
  have hpanics : r.timeless.panics = r.panics := rfl
  have hfailure : r.timeless.failure = r.failure := rfl
  simp only [answer, hpanics, hfailure]
  split
  · rfl
  · cases r.failure with
    | some f => rfl
    | none => exact fulfil_timeless work r.empty w

/-- A call, with its time taken before it. -/
theorem checkAndCall_timeless (j : Job) (w : World) (hclock : w.clock ≤ World.lastClock)
    (hi : w.Uninterrupted s) :
    ∃ d, checkAndCall s j (w.timeless.advance d) =
      ((checkAndCall s j w).1.timeless, (checkAndCall s j w).2) := by
  by_cases hn : needed j w = true
  · generalize hu : w.record (.called (callOf j.work w)) = u
    have huninterrupted : u.Uninterrupted s := by
      rw [← hu]
      exact hi
    -- Before its time passes the call is put on record and its reply taken, which no clock enters.
    generalize hd : (u.takeReply j.work.callKind).1.advance = d
    refine ⟨d, ?_⟩
    have hlater (v : World) : (v.advance d).advance 0 = v.advance d :=
      World.advance_zero _ (Nat.min_le_right ..)
    have hneeded : needed j (w.timeless.advance d) = true := hn
    have hcalled : (w.timeless.advance d).record (.called (callOf j.work (w.timeless.advance d))) =
        u.timeless.advance d := by
      rw [← hu]
      rfl
    have htake : (u.timeless.advance d).takeReply j.work.callKind =
        ((u.timeless.takeReply j.work.callKind).1,
          (u.timeless.takeReply j.work.callKind).2.advance d) := by
      have hreplies : (u.timeless.advance d).replies = u.timeless.replies := rfl
      simp only [World.takeReply, hreplies]
      cases u.timeless.replies.find? (·.1 = j.work.callKind) <;> rfl
    have hcall : interrupts s (u.takeReply j.work.callKind).1 = false := huninterrupted.takeReply _
    have hcall' : interrupts s (u.takeReply j.work.callKind).1.timeless = false := hcall
    have hanswer := answer_timeless j.work (u.takeReply j.work.callKind).1
      ((u.takeReply j.work.callKind).2.advance d)
    have hadvance : (u.takeReply j.work.callKind).1.timeless.advance = 0 := rfl
    simp only [checkAndCall, hneeded, hn, hcalled, hu, htake, u.timeless_takeReply, hadvance,
      hlater, hcall, hcall', hd, if_true, Bool.false_eq_true, if_false]
    exact hanswer
  · refine ⟨0, ?_⟩
    have hneeded : ¬ needed j w.timeless = true := hn
    rw [w.timeless.advance_zero hclock]
    simp only [checkAndCall, if_neg hneeded, if_neg hn]

/-- An attempt, with its time taken before it. -/
theorem attempt_timeless (j : Job) (n : UInt32) (w : World) (hclock : w.clock ≤ World.lastClock)
    (hu : w.Unlocked) (hi : w.Uninterrupted s) :
    ∃ d, attempt s j n (w.timeless.advance d) = (attempt s j n w).timeless := by
  have hmoved (d : Int) : (w.timeless.advance d).Unlocked := hu.timeless.of_orders rfl
  have hpop (d : Int) : (w.timeless.advance d).popFault j.work.service =
      ((w.popFault j.work.service).1, (w.popFault j.work.service).2.timeless.advance d) := rfl
  have horders : (w.popFault j.work.service).2.orders = w.orders := rfl
  have hclock' : (w.popFault j.work.service).2.clock = w.clock := rfl
  simp only [attempt_eq s j n _ (hmoved _), attempt_eq s j n w hu, hpop]
  generalize w.popFault j.work.service = q at horders hclock'
  obtain ⟨fault, v⟩ := q
  cases fault with
  | some f =>
    -- A fault of the service itself takes no time.
    refine ⟨0, ?_⟩
    have hzero : v.timeless.advance 0 = v.timeless := by
      refine v.timeless.advance_zero ?_
      exact Nat.le_trans (Nat.le_of_eq hclock') hclock
    have hrejection : rejection j.work f v.timeless = rejection j.work f v := by
      cases j.work <;> rfl
    simp only [hzero, hrejection]
    exact failed_timeless j n f (v.remark _) ((hu.of_orders horders).of_orders rfl)
  | none =>
    obtain ⟨d, hd⟩ := checkAndCall_timeless j w hclock hi
    refine ⟨d, ?_⟩
    simp only [hd]
    exact settle_timeless j n _ _ (hu.checkAndCall s j)

/-! ## All actions -/

theorem pay_timeless (c : CoordinatorRef) (o : OrderRef) (w : World) (hu : w.Unlocked) :
    pay s c o w.timeless = (pay s c o w).timeless := by
  simp only [pay, apply_ite Outcome.timeless, spawn_timeless]
  rw [failPayment_eq s o w hu, failPayment_eq s o _ hu.timeless, w.timeless_failPending]
  generalize failPending o w = q
  obtain ⟨v, changed⟩ := q
  cases changed <;> rfl

theorem serve_timeless (count : Nat) (w : World) :
    serve s count w.timeless = (serve s count w).timeless := by
  cases count with
  | zero => rfl
  | succ count =>
    simp only [serve, startAt_timeless]
    cases startAt? s 0 w <;> rfl

theorem perform_timeless (a : Action) (w : World) (hu : w.Unlocked) (ha : a.isWhole = true)
    (hattempt : ∀ j n, a ≠ .attempt j n) :
    perform s a w.timeless = (perform s a w).timeless := by
  cases a with
  | place | escalateTask | placed => rfl
  | pay c o => exact pay_timeless c o w hu
  | tell | escalate | enqueue | drain | dequeue =>
    simp only [perform, tell, escalate, enqueue, apply_ite Outcome.timeless, ← spawn_timeless]
    rfl
  | deferPayment | settleDrain =>
    simp only [perform, deferPayment, settleDrain, apply_ite Outcome.timeless]
    rfl
  | attempt j n => exact absurd rfl (hattempt j n)
  | conclude => cases ha
  | pause d =>
    simp only [perform, pause]
    cases s.sleepsPass <;> rfl
  | serve count => exact serve_timeless count w
  | finish j =>
    simp only [perform, finished]
    cases s.dispatch <;> rfl

end Timeless
end Fulfilment
