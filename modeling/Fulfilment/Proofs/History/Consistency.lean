import Fulfilment.Proofs.Stage.Consistency
import Fulfilment.Proofs.History.Clock
import Fulfilment.Proofs.Payment.Once

/-! Two systems that differ in nothing but the consistency of their configuration go through the same
histories, as long as other jobs run between the attempts only.

* `System.Steady.free`: no thread ever takes a lock that is held.
* `System.incur_under`: an incident does the same in both systems.
* `System.serialized_as_relaxed`: so does every history. -/
namespace Fulfilment

set_option autoImplicit false

variable {s : Setup} (c : Consistency)

theorem Run.unwind_under (w : World) (agenda : List Action) :
    unwind (s.under c) w agenda = unwind (s.under .relaxed) w agenda := by
  induction agenda with
  | nil => rfl
  | cons a agenda ih =>
    cases a with
    | finish | placed => rfl
    | _ => exact ih

theorem Run.step_under (w : World) (agenda : List Action) (hu : w.Unlocked)
    (hi : w.Uninterrupted (s.under .relaxed)) (hb : bracketed agenda = true) :
    step (s.under c) { world := w, agenda } =
      step (s.under .relaxed) { world := w, agenda } := by
  cases agenda with
  | nil => rfl
  | cons a rest =>
    rw [step_cons, step_cons, perform_under c a w hu hi (bracketed_head hb)]
    cases perform (s.under .relaxed) a w with
    | next | stuck => rfl
    | panic v => exact unwind_under c v rest

namespace System
variable {σ : System}

/-- No thread takes a lock that is held. -/
theorem Steady.free (hσ : σ.Steady s) {agenda : List Action} (ha : agenda ∈ σ.threads) :
    (Run.step s { world := σ.world, agenda }).stuck = false := by
  obtain ⟨d, hd⟩ := Run.step_timeless σ.world agenda hσ.clock hσ.unlocked hσ.replies
    (hσ.threads agenda ha)
  obtain ⟨i, hi⟩ := List.getElem?_of_mem ha
  -- An orderly system takes the same step, and its threads never get stuck.
  have hthread := (hσ.shifted d).thread (i := i) hi
  have hfree := hthread.step.2.free
  have hsame : Run.step s { world := (σ.shifted d).world, agenda } =
      (Run.step s { world := σ.world, agenda }).timeless := hd
  rw [hsame] at hfree
  exact hfree

theorem act_under (i : Nat) (hσ : σ.Steady (s.under .relaxed)) :
    σ.act? (s.under c) i = σ.act? (s.under .relaxed) i := by
  simp only [act?]
  cases hi : σ.threads[i]? with
  | none => rfl
  | some agenda =>
    have hb := hσ.threads agenda (List.mem_of_getElem? hi)
    simp only [Run.step_under c σ.world agenda hσ.unlocked hσ.replies hb]

/-- An incident does the same whatever the consistency is. -/
theorem incur_under (i : Incident) (hσ : σ.Steady (s.under .relaxed)) :
    σ.incur? (s.under c) i = σ.incur? (s.under .relaxed) i := by
  cases i with
  | clockMoved => rfl
  | happens h =>
    cases h with
    | order => rfl
    | move m =>
      cases m with
      | act i => exact act_under c i hσ
      | _ => rfl

theorem through_under {incidents : List Incident} (hσ : σ.Steady (s.under .relaxed))
    (hi : ∀ i ∈ incidents, i.Uninterrupted (s.under .relaxed)) :
    through? (s.under c) incidents σ = through? (s.under .relaxed) incidents σ := by
  induction incidents generalizing σ with
  | nil => rfl
  | cons i incidents ih =>
    simp only [through?, incur_under c i hσ]
    cases hτ : σ.incur? (s.under .relaxed) i with
    | none => rfl
    | some τ =>
      exact ih (hσ.incur (hi i (List.mem_cons_self ..)) hτ)
        fun k hk => hi k (List.mem_cons_of_mem _ hk)

/-- Where other jobs run between attempts only, a serialized system is after every history, and so
after each incident of it, what the relaxed one is: in orders, collaborators, queue, jobs and the
record of all that was done. No thread of it can take a lock that is held, and no section spawns,
starts a job, sleeps or keeps a lock. -/
theorem serialized_as_relaxed (s : Setup) (σ : System) (incidents : List Incident)
    (hσ : σ.Steady (s.under .relaxed))
    (hi : ∀ i ∈ incidents, i.Uninterrupted (s.under .relaxed)) :
    through? (s.under .serialized) incidents σ = through? (s.under .relaxed) incidents σ ∧
    (∀ τ, through? (s.under .serialized) incidents σ = some τ → ∀ agenda ∈ τ.threads,
      (Run.step (s.under .serialized) { world := τ.world, agenda }).stuck = false) ∧
    ∀ w : World, (∀ j, w.Quiet (checkAndCall (s.under .serialized) j w).1) ∧
      ∀ o, w.Quiet (failPending o w).1 := by
  have hsteady : σ.Steady (s.under .serialized) :=
    ⟨hσ.clock, hσ.unlocked, hσ.replies.under _, hσ.threads⟩
  have hi' : ∀ i ∈ incidents, i.Uninterrupted (s.under .serialized) := fun i hmem => by
    have hscript := hi i hmem
    cases i with
    | clockMoved => trivial
    | happens h =>
      cases h with
      | order => trivial
      | move m =>
        cases m with
        | reply k r => exact interrupts_under hscript _
        | _ => trivial
  refine ⟨through_under _ hσ hi, fun τ hτ agenda ha => ?_,
    fun w => ⟨fun j => checkAndCall_quiet _ j w, fun o => failPending_quiet o w⟩⟩
  have hreached := through?_induct (P := fun _ => True) (fun _ _ => Iff.rfl)
    (fun _ _ _ _ _ _ _ => trivial) hsteady hi' hτ trivial
  exact hreached.1.free ha

def inlineSetup : Setup := { dispatch := .inline }

/-- Two jobs attempt the same payment, and the clock goes back between them; the message about the
payment is sent by a job that runs inside the one that paid, and the call for it turns the clock back
as well. -/
def nestedStages : List Incident :=
  [.happens (.move (.start 0)), .happens (.move (.start 0)), .happens (.move (.act 0)),
    .clockMoved (-2), .happens (.move (.act 1)), .happens (.move (.act 0)),
    .happens (.move (.reply .messaging { advance := -1 })), .happens (.move (.act 0))]

theorem nestedStages_as_relaxed :
    ∃ τ, through? (inlineSetup.under .serialized) nestedStages twoPayments = some τ ∧
      through? (inlineSetup.under .relaxed) nestedStages twoPayments = some τ ∧
      τ.world.clock = 2 ∧ (τ.world.order 0).payment = .done ∧
      (τ.world.order 0).sent = .paymentSuccessful ∧ ∀ agenda ∈ τ.threads,
        (Run.step (inlineSetup.under .serialized) { world := τ.world, agenda }).stuck = false := by
  have h := serialized_as_relaxed inlineSetup twoPayments nestedStages
    (twoPayments_orderly _).steady (by simp [nestedStages, Incident.Uninterrupted, interrupts])
  exact ⟨_, rfl, h.1.symm.trans rfl, rfl, rfl, rfl, h.2.1 _ rfl⟩

end System
end Fulfilment
