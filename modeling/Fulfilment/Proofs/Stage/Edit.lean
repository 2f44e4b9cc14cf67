import Mathlib.Logic.Relation
import Fulfilment.Proofs.History.Basic

/-! What is done to the journal and to the records of shipping, payment and messaging, said once and
for every setup and reply: it makes no difference what is locked or interrupted.

* `Edit p w v`: a request is fulfilled, or another event is put on record, one that satisfies `p`.
* `attempt_edits`: an attempt puts no event of jobs or sleeps on record.
* `perform_edits`, `Run.step_edits`, `System.happen_edits`: nothing puts an accepted call on record
  but the request that is fulfilled. -/
namespace Fulfilment

set_option autoImplicit false

/-- The world that an action leaves, however it comes out. -/
def Outcome.world : Outcome → World
  | .next w _ => w
  | .panic w => w
  | .stuck w => w

/-! ## Edits -/

namespace Event

/-- Of calls that are not accepted, and remarks. -/
def isOfCall : Event → Bool
  | .called _ => true
  | .refused _ _ => true
  | .panicked _ => true
  | .remarked _ => true
  | _ => false

/-- Anything but an accepted call. -/
def isUnaccepted : Event → Bool
  | .answered _ _ => false
  | _ => true

theorem isUnaccepted_of_isOfCall {e : Event} (h : e.isOfCall = true) : e.isUnaccepted = true := by
  cases e with
  | answered => cases h
  | _ => rfl

end Event

/-- Journal and records of shipping, payment and messaging are as they were. -/
structure World.Beside (w v : World) : Prop where
  journal : v.journal = w.journal
  shipping : v.collaborators.shipping = w.collaborators.shipping
  payment : v.collaborators.payment = w.collaborators.payment
  messaging : v.collaborators.messaging = w.collaborators.messaging

inductive Edit (p : Event → Bool) : World → World → Prop
  | beside {w v : World} (h : w.Beside v) : Edit p w v
  | recorded (w : World) (e : Event) (he : p e = true) : Edit p w (w.record e)
  | fulfilled (w : World) (work : Work) (empty : Bool) : Edit p w (fulfil work empty w).1

/-- Any number of edits. -/
abbrev Edits (p : Event → Bool) : World → World → Prop := Relation.ReflTransGen (Edit p)

section Steps
variable {p : Event → Bool} {w v : World}

theorem edits_aside (hj : v.journal = w.journal) (hc : v.collaborators = w.collaborators) :
    Edits p w v :=
  .single (.beside ⟨hj, by rw [hc], by rw [hc], by rw [hc]⟩)

theorem edits_record (w : World) {e : Event} (he : p e = true) : Edits p w (w.record e) :=
  .single (.recorded w e he)

theorem Edits.unaccepted (h : Edits Event.isOfCall w v) : Edits Event.isUnaccepted w v := by
  have hstep : Edit Event.isOfCall ≤ Edit Event.isUnaccepted := by
    intro u x hux
    cases hux with
    | beside hx => exact .beside hx
    | recorded e he => exact .recorded u e (Event.isUnaccepted_of_isOfCall he)
    | fulfilled work empty => exact .fulfilled u work empty
  exact Relation.ReflTransGen.mono hstep w v h

theorem edits_takeReply (w : World) (k : CallKind) : Edits p w (w.takeReply k).2 := by
  simp only [World.takeReply]
  split
  · exact .refl
  · exact edits_aside rfl rfl

theorem edits_failPending (o : OrderRef) (w : World) : Edits p w (failPending o w).1 := by
  simp only [failPending]
  split
  · exact edits_aside rfl rfl
  · exact .refl

theorem edits_showNotice (w : World) (o : OrderRef) (n : SiteNotice) :
    Edits Event.isOfCall w (w.showNotice o n) := by
  simp only [World.showNotice]
  split
  · exact .refl
  · have hshown : Edits Event.isOfCall w (w.modifyOrder o (·.recordNotice n)) :=
      edits_aside rfl rfl
    exact hshown.trans (edits_record _ rfl)

end Steps

section Stages
variable {s : Setup}

/-! ## Sections under a lock -/

/-- The lock itself is not on record. -/
theorem guarded_edits {α : Type} {p : Event → Bool} {o : Option OrderRef}
    {body : World → World × α} {w v : World} {x : α} (hbody : ∀ u : World, Edits p u (body u).1)
    (h : guarded s o body w = some (v, x)) : Edits p w v := by
  unfold guarded at h
  split at h
  · next o _ =>
    split at h
    · cases h
    · simp only [Option.some.injEq, Prod.mk.injEq] at h
      obtain ⟨rfl, -⟩ := h
      have htaken : Edits p w (w.setLocked o true) := edits_aside rfl rfl
      exact (htaken.trans (hbody _)).trans (edits_aside rfl rfl)
  · rw [Option.some.injEq] at h
    have hv : (body w).1 = v := congrArg Prod.fst h
    rw [← hv]
    exact hbody w

theorem failPayment_edits {p : Event → Bool} {o : OrderRef} {w v : World} {changed : Bool}
    (h : failPayment s o w = some (v, changed)) : Edits p w v :=
  guarded_edits (edits_failPending o) h

/-! ## Attempts -/

theorem answer_edits (work : Work) (r : Reply) (w : World) :
    Edits Event.isOfCall w (answer work r w).1 := by
  simp only [answer]
  split
  · exact edits_record w rfl
  · split
    · exact edits_record w rfl
    · exact .single (.fulfilled w work r.empty)

theorem checkAndCall_edits (j : Job) (w : World) :
    Edits Event.isOfCall w (checkAndCall s j w).1 := by
  simp only [checkAndCall]
  split
  · have hcalled : Edits Event.isOfCall w (w.record (.called (callOf j.work w))) :=
      edits_record w rfl
    have hreplied := hcalled.trans (edits_takeReply _ j.work.callKind)
    generalize World.takeReply _ _ = q at hreplied ⊢
    have htimed : Edits Event.isOfCall w (q.2.advance q.1.advance) :=
      hreplied.trans (edits_aside rfl rfl)
    split
    · exact htimed
    · exact htimed.trans (answer_edits j.work q.1 _)
  · exact .refl

theorem handOver_edits (j : Job) (f : Failure) (w : World) :
    Edits Event.isOfCall w (handOver s j f w).world := by
  have shown (o : OrderRef) (n : SiteNotice) (r : Remark) :
      Edits Event.isOfCall w ((w.showNotice o n).remark r) :=
    (edits_showNotice w o n).trans (edits_record _ rfl)
  obtain ⟨c, work⟩ := j
  cases work with
  | shipping o =>
    simp only [handOver, shippingFailed]
    split <;> exact shown o _ _
  | payment o =>
    simp only [handOver, paymentFailed]
    split
    · split
      · exact .refl
      · next v changed hv =>
        have hfailed := (edits_showNotice w o .paymentDetailsInvalid).trans (failPayment_edits hv)
        exact hfailed.trans (edits_record v rfl)
    · split
      · exact shown o _ _
      · exact .refl
  | messaging o m =>
    simp only [handOver, messagingFailed]
    split <;> exact edits_record w rfl
  | escalation o =>
    simp only [handOver, escalationFailed]
    split
    · exact edits_record w rfl
    · exact .refl
  | add t =>
    simp only [handOver, addFailed]
    split
    · split
      · exact .refl
      · next v changed hv =>
        have hfailed : Edits Event.isOfCall w v := failPayment_edits hv
        exact hfailed.trans (edits_record v rfl)
    · exact .refl
  | drain | dequeue => exact edits_record w rfl

theorem failed_edits (j : Job) (n : UInt32) (f : Failure) (w : World) :
    Edits Event.isOfCall w (failed s j n f w).world := by
  simp only [failed]
  split
  · exact edits_aside rfl rfl
  · exact handOver_edits j f w

theorem visit_edits (c : CoordinatorRef) (t : Task) (w : World) :
    Edits Event.isOfCall w (visit s c t w).world := by
  have hbeside (u : World) :
      u.Beside { u with collaborators := u.collaborators.markHead w.now } := by
    unfold Collaborators.markHead
    cases u.collaborators.store <;> exact ⟨rfl, rfl, rfl, rfl⟩
  have hvisiting : Edits Event.isOfCall w (w.remark (.visiting (w.idOf t.order) t)) :=
    edits_record w rfl
  have hvisited : Edits Event.isOfCall w (w.visited t) := hvisiting.tail (.beside (hbeside _))
  obtain ⟨r, -, -, hv⟩ | ⟨r, -, -, hv⟩ := visit_cases (s := s) c t w
  all_goals
    rw [hv]
    exact hvisited.trans (edits_record _ rfl)

theorem succeeded_edits (j : Job) (r : Receipt) (w : World) :
    Edits Event.isOfCall w (succeeded s j r w).world := by
  simp only [succeeded]
  split
  · exact edits_record w rfl
  · next o tx _ =>
    have hpaid : Edits Event.isOfCall w (w.remark (.paid (w.idOf o) tx)) := edits_record w rfl
    exact hpaid.trans (edits_showNotice _ o _)
  · exact edits_record w rfl
  · exact edits_record w rfl
  · have hcounted : Edits Event.isOfCall w (w.countUp j.owner) := edits_aside rfl rfl
    exact hcounted.trans (edits_record _ rfl)
  · exact visit_edits _ _ w
  · have hcounted : Edits Event.isOfCall w (w.countDown j.owner) := edits_aside rfl rfl
    exact hcounted.trans (edits_record _ rfl)
  · exact .refl

theorem settle_edits (j : Job) (n : UInt32) (v : Verdict) (w : World) :
    Edits Event.isOfCall w (settle s j n v w).world := by
  cases v with
  | skipped =>
    simp only [settle, skipped]
    split
    · exact edits_record w rfl
    · exact edits_record w rfl
    · exact .refl
    · exact .refl
  | accepted r => exact succeeded_edits j r w
  | refused f => exact failed_edits j n f w
  | panicked | interrupted => exact .refl

/-- An attempt puts no event of jobs or sleeps on record. -/
theorem attempt_edits (j : Job) (n : UInt32) (w : World) :
    Edits Event.isOfCall w (attempt s j n w).world := by
  have hpopped : Edits Event.isOfCall w (w.popFault j.work.service).2 := edits_aside rfl rfl
  simp only [attempt]
  split
  · next f _ =>
    have hmet (r : Remark) : Edits Event.isOfCall w ((w.popFault j.work.service).2.remark r) :=
      hpopped.trans (edits_record _ rfl)
    exact (hmet _).trans (failed_edits j n f _)
  · split
    · exact hpopped
    · next v verdict hv =>
      have hcalled := hpopped.trans (guarded_edits (checkAndCall_edits j) hv)
      exact hcalled.trans (settle_edits j n verdict v)

/-! ## Jobs -/

theorem launch_edits (j : Job) (w : World) : Edits Event.isUnaccepted w (launch s j w).world := by
  simp only [launch]
  split
  · exact edits_record w rfl
  · split
    · have hrefused : Edits Event.isUnaccepted w { w with stats := w.stats.refused } :=
        edits_aside rfl rfl
      exact hrefused.trans (edits_record _ rfl)
    · exact edits_aside rfl rfl
  · exact edits_aside rfl rfl

theorem spawn_edits (j : Job) (w : World) : Edits Event.isUnaccepted w (spawn s j w).world := by
  have hspawned : Edits Event.isUnaccepted w (w.record (.spawned j)) := edits_record w rfl
  simp only [spawn]
  split
  · exact hspawned.trans (edits_aside rfl rfl)
  · split
    · exact hspawned.trans (edits_record _ rfl)
    · have hspent : Edits Event.isUnaccepted w (w.record (.spawned j)).spendAllowance :=
        hspawned.trans (edits_aside rfl rfl)
      exact hspent.trans (launch_edits j _)

theorem startAt_edits {i : Nat} {w v : World} {todo : List Action}
    (h : startAt? s i w = some (v, todo)) : Edits Event.isUnaccepted w v := by
  have htaken : Edits Event.isUnaccepted w { w with pending := w.pending.eraseIdx i } :=
    edits_aside rfl rfl
  obtain ⟨j, u, -, -, rfl, rfl | rfl | ⟨name, rfl⟩⟩ := startAt?_eq_some h
  · exact htaken.trans (edits_record _ rfl)
  · have hspent : Edits Event.isUnaccepted w
        (World.spendAllowance { w with pending := w.pending.eraseIdx i }) :=
      htaken.trans (edits_aside rfl rfl)
    exact hspent.trans (edits_record _ rfl)
  · exact (htaken.trans (edits_record _ rfl)).trans (edits_record _ rfl)

theorem finished_edits (j : Job) (w : World) : Edits Event.isUnaccepted w (finished s j w) := by
  simp only [finished]
  split
  · exact .refl
  · have hcounted : Edits Event.isUnaccepted w { w with stats := w.stats.ended false } :=
      edits_aside rfl rfl
    exact hcounted.trans (edits_record _ rfl)
  · exact edits_record w rfl

theorem panicked_edits (j : Job) (w : World) : Edits Event.isUnaccepted w (panicked s j w) := by
  simp only [panicked]
  split
  · exact .refl
  · have hcounted : Edits Event.isUnaccepted w { w with stats := w.stats.ended true } :=
      edits_aside rfl rfl
    exact hcounted.trans (edits_record _ rfl)
  · exact edits_record w rfl

/-! ## Actions -/

/-- Nothing puts an accepted call on record but the request that is fulfilled. -/
theorem perform_edits (a : Action) (w : World) :
    Edits Event.isUnaccepted w (perform s a w).world := by
  cases a with
  | place | escalateTask => exact edits_record w rfl
  | pay c o =>
    simp only [perform, pay]
    split
    · split
      · exact .refl
      all_goals
        next v hv =>
        have hfailed : Edits Event.isUnaccepted w v := failPayment_edits hv
        exact hfailed.trans (edits_record v rfl)
    · exact spawn_edits _ w
  | tell | escalate =>
    simp only [perform, tell, escalate]
    split
    · exact edits_record w rfl
    · exact spawn_edits _ w
  | enqueue c t =>
    simp only [perform, enqueue]
    repeat' split
    · exact edits_record w rfl
    · exact edits_record w rfl
    · exact spawn_edits _ w
    · exact edits_record w rfl
  | deferPayment c o =>
    simp only [perform, deferPayment]
    split <;> exact .refl
  | drain | dequeue =>
    simp only [perform]
    split
    · exact spawn_edits _ w
    · exact .refl
  | settleDrain c =>
    simp only [perform, settleDrain]
    split
    · exact edits_record w rfl
    · exact .refl
  | attempt j n => exact (attempt_edits j n w).unaccepted
  | conclude j n r =>
    have hanswered := answer_edits j.work r w
    exact Edits.unaccepted (hanswered.trans (settle_edits j n _ _))
  | pause d =>
    have hslept : Edits Event.isUnaccepted w (w.record (.slept d)) := edits_record w rfl
    simp only [perform, pause]
    split
    · exact hslept.trans (edits_aside rfl rfl)
    · exact hslept
  | serve count =>
    obtain h | ⟨n, v, todo, hs, -, h⟩ := serve_cases (s := s) count w
    · rw [h]
      exact .refl
    · rw [h]
      exact startAt_edits hs
  | finish j => exact finished_edits j w
  | placed => exact .refl

end Stages

/-! ## Runs -/

namespace Run
variable {s : Setup}

theorem unwind_edits (w : World) (agenda : List Action) :
    Edits Event.isUnaccepted w (unwind s w agenda).world := by
  induction agenda with
  | nil => exact .refl
  | cons a agenda ih =>
    cases a with
    | finish j => exact panicked_edits j w
    | placed o => exact edits_record w rfl
    | _ => exact ih

theorem step_edits (r : Run) : Edits Event.isUnaccepted r.world (r.step s).world := by
  unfold step
  split
  · exact .refl
  · split
    · exact .refl
    · next a rest _ =>
      have hperform := perform_edits (s := s) a r.world
      cases hp : perform s a r.world with
      | next v todo | stuck v =>
        rw [hp] at hperform
        exact hperform
      | panic v =>
        rw [hp] at hperform
        exact Relation.ReflTransGen.trans hperform (unwind_edits v rest)

theorem drive_edits (fuel : Nat) (r : Run) :
    Edits Event.isUnaccepted r.world (r.drive s fuel).world := by
  induction fuel generalizing r with
  | zero => exact .refl
  | succ n ih =>
    rw [drive]
    split
    · exact .refl
    · exact (step_edits r).trans (ih _)

end Run

/-! ## Histories -/

theorem System.happen_edits {s : Setup} {σ τ : System} {h : Happening}
    (hτ : σ.happen? s h = some τ) : Edits Event.isUnaccepted σ.world τ.world := by
  cases happens_of_some hτ with
  | moved m _ hm =>
    cases m with
    | act i =>
      obtain ⟨agenda, -, rfl⟩ := act?_eq_some hm
      exact Run.step_edits { world := σ.world, agenda }
    | start i =>
      obtain ⟨w, todo, hs, rfl⟩ := start?_eq_some hm
      exact startAt_edits hs
    | ask | pass | fault | reply =>
      cases hm
      exact edits_aside rfl rfl
  | ordered c customer item price x ids draws hx hυ =>
    subst hυ
    exact edits_aside rfl rfl

end Fulfilment
