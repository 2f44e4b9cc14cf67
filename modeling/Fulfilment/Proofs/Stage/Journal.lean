import Fulfilment.Proofs.Stage.Edit

/-! The journal is only ever added to: whatever is done, what was on record stays on record.

* `Outcome.journal`: the journal after an action.
* `Edits.journal`: edits leave what was on record at the end of the journal.
* `perform_journal`, `System.happen_journal`: so does every action, and all that happens. -/
namespace Fulfilment

set_option autoImplicit false

/-- The journal of the world after an action, however it came out. -/
def Outcome.journal : Outcome → List Event
  | .next w _ => w.journal
  | .panic w => w.journal
  | .stuck w => w.journal

theorem Outcome.journal_world (x : Outcome) : x.world.journal = x.journal := by
  cases x <;> rfl

/-! ## Edits -/

theorem fulfil_journal (work : Work) (empty : Bool) (w : World) :
    w.journal <:+ (fulfil work empty w).1.journal := by
  cases work with
  | shipping | payment | messaging => exact (List.suffix_cons _ _).trans (List.suffix_cons _ _)
  | escalation o =>
    simp only [fulfil]
    split
    · exact (List.suffix_cons _ _).trans (List.suffix_cons _ _)
    · exact List.suffix_cons _ _
  | add t => exact List.suffix_cons _ _
  | drain =>
    simp only [fulfil]
    repeat' split
    · exact List.suffix_rfl
    · exact List.suffix_cons _ _
    · exact List.suffix_cons _ _
  | dequeue =>
    simp only [fulfil]
    split <;> exact List.suffix_cons _ _

theorem Edit.journal {p : Event → Bool} {w v : World} (h : Edit p w v) :
    w.journal <:+ v.journal := by
  cases h with
  | beside h => exact h.journal ▸ List.suffix_rfl
  | recorded e _ => exact List.suffix_cons e w.journal
  | fulfilled work empty => exact fulfil_journal work empty w

theorem Edits.journal {p : Event → Bool} {w v : World} (h : Edits p w v) :
    w.journal <:+ v.journal := by
  induction h with
  | refl => exact List.suffix_rfl
  | tail _ hstep ih => exact ih.trans hstep.journal

/-! ## Actions, runs and histories -/

variable {s : Setup}

theorem perform_journal (a : Action) (w : World) : w.journal <:+ (perform s a w).journal := by
  rw [← Outcome.journal_world]
  exact Edits.journal (perform_edits a w)

theorem Run.unwind_journal (s : Setup) (w : World) (agenda : List Action) :
    w.journal <:+ (Run.unwind s w agenda).world.journal :=
  Edits.journal (Run.unwind_edits w agenda)

theorem System.happen_journal {σ τ : System} {h : Happening} (hτ : σ.happen? s h = some τ) :
    σ.world.journal <:+ τ.world.journal :=
  Edits.journal (System.happen_edits hτ)

end Fulfilment
