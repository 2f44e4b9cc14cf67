import Fulfilment.Proofs.Stage.Background
import Fulfilment.Proofs.Stage.Todo

/-! The consistency of a configuration makes no difference to an action that no other job interrupts:
under the lock of an order its section does what it does without, and leaves the lock as it was.

* `Setup.under`: the setup with another consistency.
* `World.Quiet`: nothing is spawned, started or slept through, and no lock is kept.
* `perform_under`: what an action comes to in one mode is what it comes to in the other. -/
namespace Fulfilment

set_option autoImplicit false

def Setup.under (c : Consistency) (s : Setup) : Setup :=
  { s with config := { s.config with consistency := c } }

/-- Only relaxed calls are ever interrupted. -/
theorem interrupts_under {s : Setup} {r : Reply} (h : interrupts (s.under .relaxed) r = false)
    (c : Consistency) : interrupts (s.under c) r = false := by
  cases c with
  | relaxed => exact h
  | serialized =>
    simp only [interrupts, Setup.under, reduceCtorEq, decide_false, Bool.and_false]

theorem World.Uninterrupted.under {s : Setup} {w : World}
    (h : w.Uninterrupted (s.under .relaxed)) (c : Consistency) : w.Uninterrupted (s.under c) :=
  fun e he => interrupts_under (h e he) c

/-! ## Sections -/

/-- Nothing is spawned, started or slept through, and every lock is as it was. -/
structure World.Quiet (w v : World) : Prop where
  pending : v.pending = w.pending
  background : v.background = w.background
  locked : ∀ o, (v.order o).locked = (w.order o).locked

theorem World.Quiet.refl (w : World) : w.Quiet w := ⟨rfl, rfl, fun _ => rfl⟩

theorem World.Quiet.trans {u v w : World} (h : u.Quiet v) (k : v.Quiet w) : u.Quiet w :=
  ⟨k.pending.trans h.pending, k.background.trans h.background,
    fun o => (k.locked o).trans (h.locked o)⟩

/-- Failing a pending payment is a section that spawns nothing, sleeps not and leaves locks. -/
theorem failPending_quiet (o : OrderRef) (w : World) : w.Quiet (failPending o w).1 := by
  refine ⟨?_, w.background_failPending o, fun p => ?_⟩
  · simp only [failPending]
    split <;> rfl
  · simp only [failPending]
    split
    · exact World.order_modifyOrder_congr Order.locked w o p _ fun _ => rfl
    · rfl

theorem locked_fulfil (work : Work) (empty : Bool) (w : World) (o : OrderRef) :
    ((fulfil work empty w).1.order o).locked = (w.order o).locked := by
  rw [order_fulfil]
  split
  · cases work <;> rfl
  · rfl

theorem answer_quiet (work : Work) (r : Reply) (w : World) : w.Quiet (answer work r w).1 := by
  refine ⟨?_, answer_background work r w, fun o => ?_⟩
  · simp only [answer]
    repeat' split
    · rfl
    · rfl
    · exact fulfil_pending work r.empty w
  · simp only [answer]
    repeat' split
    · rfl
    · rfl
    · exact locked_fulfil work r.empty w o

theorem takeReply_quiet (k : CallKind) (w : World) : w.Quiet (w.takeReply k).2 := by
  refine ⟨?_, w.background_takeReply k, fun o => ?_⟩
  · simp only [World.takeReply]
    split <;> rfl
  · rw [World.order, World.orders_takeReply, World.order]

/-- So is checking what is left to do and calling the collaborator. -/
theorem checkAndCall_quiet (s : Setup) (j : Job) (w : World) : w.Quiet (checkAndCall s j w).1 := by
  simp only [checkAndCall]
  split
  · have hrecorded : w.Quiet (w.record (.called (callOf j.work w))) :=
      ⟨rfl, w.background_record rfl, fun _ => rfl⟩
    have hcalled := hrecorded.trans (takeReply_quiet j.work.callKind _)
    generalize World.takeReply _ _ = q at hcalled ⊢
    have htimed : w.Quiet (q.2.advance q.1.advance) := hcalled.trans ⟨rfl, rfl, fun _ => rfl⟩
    split
    · exact htimed
    · exact htimed.trans (answer_quiet j.work q.1 _)
  · exact .refl w

/-! ## Actions -/

section Modes
variable {s : Setup} (c : Consistency)

theorem checkAndCall_under (j : Job) (w : World) (hi : w.Uninterrupted (s.under .relaxed)) :
    checkAndCall (s.under c) j w = checkAndCall (s.under .relaxed) j w := by
  have hcall : World.Uninterrupted (s.under .relaxed) (w.record (.called (callOf j.work w))) := hi
  have hrelaxed := hcall.takeReply j.work.callKind
  have hmode := interrupts_under hrelaxed c
  simp only [checkAndCall, hrelaxed, hmode]

theorem handOver_under (j : Job) (f : Failure) (w : World) (hu : w.Unlocked) :
    handOver (s.under c) j f w = handOver (s.under .relaxed) j f w := by
  obtain ⟨d, work⟩ := j
  cases work with
  | payment o =>
    simp only [handOver, paymentFailed, failPayment_eq _ o _ (hu.showNotice o _)]
  | add t => simp only [handOver, addFailed, failPayment_eq _ t.order w hu]
  | shipping | messaging | escalation | drain | dequeue => rfl

theorem failed_under (j : Job) (n : UInt32) (f : Failure) (w : World) (hu : w.Unlocked) :
    failed (s.under c) j n f w = failed (s.under .relaxed) j n f w := by
  simp only [failed, handOver_under c j f w hu]
  rfl

theorem settle_under (j : Job) (n : UInt32) (v : Verdict) (w : World) (hu : w.Unlocked) :
    settle (s.under c) j n v w = settle (s.under .relaxed) j n v w := by
  cases v with
  | refused f => exact failed_under c j n f w hu
  | skipped | accepted | panicked | interrupted => rfl

theorem attempt_under (j : Job) (n : UInt32) (w : World) (hu : w.Unlocked)
    (hi : w.Uninterrupted (s.under .relaxed)) :
    attempt (s.under c) j n w = attempt (s.under .relaxed) j n w := by
  rw [attempt_eq _ j n w hu, attempt_eq _ j n w hu, checkAndCall_under c j w hi]
  split
  · next f v hv =>
    have hunlocked : v.Unlocked := hu.of_orders (congrArg (fun q => q.2.orders) hv.symm)
    exact failed_under c j n f _ (hunlocked.of_orders rfl)
  · exact settle_under c j n _ _ (hu.checkAndCall _ j)

/-- What an action comes to does not depend on the consistency. -/
theorem perform_under (a : Action) (w : World) (hu : w.Unlocked)
    (hi : w.Uninterrupted (s.under .relaxed)) (ha : a.isWhole = true) :
    perform (s.under c) a w = perform (s.under .relaxed) a w := by
  cases a with
  | pay d o => simp only [perform, pay, failPayment_eq _ o w hu]; rfl
  | attempt j n => exact attempt_under c j n w hu hi
  | conclude => cases ha
  | _ => rfl

end Modes
end Fulfilment
