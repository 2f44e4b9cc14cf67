import Fulfilment.Proofs.Stage.Timeless
import Fulfilment.Proofs.History.Basic

/-! Histories in which the clock goes anywhere: it may be moved back and forth at any time, and calls
may take negative time.

* `Incident`: a happening, or the clock is moved.
* `System.through?`: the system after a list of incidents.
* `System.Steady`: what is asked of a system instead of order where the clock may go back.
* `System.Steady.happen`: a happening, with the time of its call taken before it, is one of an orderly
  system.
* `System.through?_induct`: so what every happening of an orderly system preserves, and neither clock
  nor scripts have a part in, holds in every history. -/
namespace Fulfilment

set_option autoImplicit false

inductive Incident where
  | happens (h : Happening)
  /-- The clock is moved by this many nanoseconds, forth or back. -/
  | clockMoved (d : Int)

/-- The replies that an incident scripts let no other jobs run before the call returns. -/
def Incident.Uninterrupted (s : Setup) : Incident → Prop
  | .happens (.move (.reply _ r)) => interrupts s r = false
  | _ => True

def Move.timeless : Move → Move
  | .reply k r => .reply k r.timeless
  | m => m

def Happening.timeless : Happening → Happening
  | .move m => .move m.timeless
  | h => h

theorem Happening.timeless_whole {s : Setup} {h : Happening}
    (hh : (Incident.happens h).Uninterrupted s) : h.timeless.Whole s := by
  cases h with
  | move m =>
    cases m with
    | reply k r => exact Reply.timeless_whole.mpr hh
    | _ => trivial
  | order => trivial

/-! ## Steps -/

namespace Run
variable {s : Setup}

def timeless (r : Run) : Run := { r with world := r.world.timeless }

theorem unwind_timeless (w : World) (agenda : List Action) :
    unwind s w.timeless agenda = (unwind s w agenda).timeless := by
  induction agenda with
  | nil => rfl
  | cons a agenda ih =>
    cases a with
    | finish j =>
      simp only [unwind, panicked]
      cases s.dispatch <;> rfl
    | placed o => rfl
    | _ => exact ih

/-- A step, with its time taken before it. -/
theorem step_timeless (w : World) (agenda : List Action) (hclock : w.clock ≤ World.lastClock)
    (hu : w.Unlocked) (hi : w.Uninterrupted s) (hb : bracketed agenda = true) :
    ∃ d, step s { world := w.timeless.advance d, agenda } =
      (step s { world := w, agenda }).timeless := by
  cases agenda with
  | nil =>
    refine ⟨0, ?_⟩
    rw [w.timeless.advance_zero hclock]
    rfl
  | cons a rest =>
    obtain ⟨d, hd⟩ : ∃ d, perform s a (w.timeless.advance d) = (perform s a w).timeless := by
      by_cases ha : ∃ j n, a = .attempt j n
      · obtain ⟨j, n, rfl⟩ := ha
        exact attempt_timeless j n w hclock hu hi
      · refine ⟨0, ?_⟩
        rw [w.timeless.advance_zero hclock]
        exact perform_timeless a w hu (bracketed_head hb) fun j n h => ha ⟨j, n, h⟩
    refine ⟨d, ?_⟩
    simp only [step_cons, hd]
    cases perform s a w with
    | next | stuck => rfl
    | panic v => exact unwind_timeless v rest

end Run

/-! ## Systems -/

namespace System

def incur? (s : Setup) (i : Incident) (σ : System) : Option System :=
  match i with
  | .happens h => σ.happen? s h
  | .clockMoved d => some { σ with world := σ.world.advance d }

def through? (s : Setup) : List Incident → System → Option System
  | [], σ => some σ
  | i :: incidents, σ => (σ.incur? s i).bind (through? s incidents)

/-- No lock is held, no call lets other jobs run, nothing is half done. -/
structure Steady (s : Setup) (σ : System) : Prop where
  clock : σ.world.clock ≤ World.lastClock
  unlocked : σ.world.Unlocked
  replies : σ.world.Uninterrupted s
  threads : ∀ agenda ∈ σ.threads, bracketed agenda = true

theorem Orderly.steady {s : Setup} {σ : System} (h : σ.Orderly s) : σ.Steady s :=
  ⟨h.clock, h.unlocked, h.replies.uninterrupted, h.threads⟩

def timeless (σ : System) : System := { σ with world := σ.world.timeless }

/-- The clock is moved, and no call takes time. -/
def shifted (d : Int) (σ : System) : System := { σ with world := σ.world.timeless.advance d }

variable {s : Setup} {σ τ : System}

theorem Steady.shifted (h : σ.Steady s) (d : Int) : (σ.shifted d).Orderly s where
  clock := Nat.min_le_right ..
  unlocked := h.unlocked.timeless.of_orders rfl
  replies := World.timeless_whole.mpr h.replies
  threads := h.threads

theorem Steady.shifted_zero (h : σ.Steady s) : σ.shifted 0 = σ.timeless := by
  rw [System.shifted, σ.world.timeless.advance_zero h.clock]
  rfl

theorem steady_of_timeless (h : σ.timeless.Orderly s) : σ.Steady s :=
  ⟨h.clock, fun o => h.unlocked o, World.timeless_whole.mp h.replies, h.threads⟩

theorem Steady.act {i : Nat} (hσ : σ.Steady s) (hτ : σ.act? s i = some τ) :
    ∃ d, (σ.shifted d).act? s i = some τ.timeless := by
  simp only [act?] at hτ
  cases hi : σ.threads[i]? with
  | none =>
    rw [hi] at hτ
    cases hτ
  | some agenda =>
    obtain ⟨d, hd⟩ := Run.step_timeless σ.world agenda hσ.clock hσ.unlocked hσ.replies
      (hσ.threads agenda (List.mem_of_getElem? hi))
    refine ⟨d, ?_⟩
    have hi' : (σ.shifted d).threads[i]? = some agenda := hi
    have hd' : Run.step s { world := (σ.shifted d).world, agenda } =
        (Run.step s { world := σ.world, agenda }).timeless := hd
    simp only [act?, hi', hd']
    simp only [hi] at hτ
    generalize Run.step s { world := σ.world, agenda } = r at hτ ⊢
    split at hτ
    · cases hτ
    · next hfree =>
      cases hτ
      exact if_neg hfree

theorem Steady.start {i : Nat} (hσ : σ.Steady s) (hτ : σ.start? s i = some τ) :
    (σ.shifted 0).start? s i = some τ.timeless := by
  obtain ⟨w, todo, hs, rfl⟩ := start?_eq_some hτ
  rw [hσ.shifted_zero, start?]
  have hw : σ.timeless.world = σ.world.timeless := rfl
  simp only [hw, startAt_timeless, hs, Option.map_some]
  rfl

/-- A happening, with the time of its call taken before it. -/
theorem Steady.happen {h : Happening} (hσ : σ.Steady s) (hτ : σ.happen? s h = some τ) :
    ∃ d, (σ.shifted d).happen? s h.timeless = some τ.timeless := by
  cases h with
  | order c customer item price =>
    refine ⟨0, ?_⟩
    rw [hσ.shifted_zero]
    have hplaced := congrArg (Option.map System.timeless) hτ
    refine Eq.trans ?_ hplaced
    simp only [happen?, order?, Rehearsal.newOrder?, Happening.timeless, Option.map_map]
    rfl
  | move m =>
    cases m with
    | act i => exact hσ.act hτ
    | start i => exact ⟨0, hσ.start hτ⟩
    | ask q =>
      refine ⟨0, ?_⟩
      rw [hσ.shifted_zero]
      simp only [happen?] at hτ
      split at hτ
      · next hq =>
        cases hτ
        exact if_pos hq
      · cases hτ
    | pass d =>
      cases hτ
      refine ⟨0, ?_⟩
      rw [hσ.shifted_zero]
      rfl
    | fault sv f =>
      cases hτ
      refine ⟨0, ?_⟩
      rw [hσ.shifted_zero]
      rfl
    | reply k r =>
      cases hτ
      refine ⟨0, ?_⟩
      rw [hσ.shifted_zero]
      simp only [Happening.timeless, Move.timeless, happen?, move?, timeless, World.timeless,
        List.map_append, List.map_cons, List.map_nil]

/-! ## Histories -/

theorem Steady.incur {i : Incident} (hσ : σ.Steady s) (hi : i.Uninterrupted s)
    (hτ : σ.incur? s i = some τ) : τ.Steady s := by
  cases i with
  | happens h =>
    obtain ⟨d, hd⟩ := hσ.happen hτ
    exact steady_of_timeless ((hσ.shifted d).happen (Happening.timeless_whole hi) hd)
  | clockMoved d =>
    cases hτ
    exact ⟨Nat.min_le_right .., hσ.unlocked.of_orders rfl, hσ.replies, hσ.threads⟩

/-- What clock and scripted replies have no part in holds along every history if every happening of
an orderly system preserves it. -/
theorem through?_induct {P : System → Prop} {incidents : List Incident}
    (anytime : ∀ σ d, P (System.shifted d σ) ↔ P σ)
    (step : ∀ h σ τ, σ.Orderly s → h.Whole s → σ.happen? s h = some τ → P σ → P τ)
    (hσ : σ.Steady s) (hi : ∀ i ∈ incidents, i.Uninterrupted s)
    (hτ : through? s incidents σ = some τ) (hP : P σ) : τ.Steady s ∧ P τ := by
  induction incidents generalizing σ with
  | nil =>
    cases hτ
    exact ⟨hσ, hP⟩
  | cons i incidents ih =>
    simp only [through?, Option.bind_eq_some_iff] at hτ
    obtain ⟨υ, hυ, hτ⟩ := hτ
    have hi₀ := hi i (List.mem_cons_self ..)
    have hsteady := hσ.incur hi₀ hυ
    refine ih hsteady (fun k hk => hi k (List.mem_cons_of_mem _ hk)) hτ ?_
    -- It is enough to have it without the times that replies take: so far the system is orderly.
    rw [← anytime υ 0]
    cases i with
    | happens h =>
      obtain ⟨d, hd⟩ := hσ.happen hυ
      rw [hsteady.shifted_zero]
      exact step h.timeless _ _ (hσ.shifted d) (Happening.timeless_whole hi₀) hd
        ((anytime σ d).mpr hP)
    | clockMoved d =>
      cases hυ
      have hlater : System.shifted 0 { σ with world := σ.world.advance d } = σ.shifted d := by
        rw [hsteady.shifted_zero]
        rfl
      rw [hlater]
      exact (anytime σ d).mpr hP

end System
end Fulfilment
