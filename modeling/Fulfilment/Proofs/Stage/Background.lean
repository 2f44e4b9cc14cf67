import Fulfilment.Proofs.Stage.Journal

/-! What is on record of jobs and sleeps. Only stages, the drain loop and pauses add to it: an
attempt spawns nothing and does not sleep, whatever it meets and whatever it leaves to do.

* `Event.isBackground`, `World.background`: the events of jobs and sleeps.
* `attempt_background`: an attempt adds none. -/
namespace Fulfilment

set_option autoImplicit false

/-- Of jobs and sleeps, not of calls. -/
def Event.isBackground : Event → Bool
  | .spawned _ => true
  | .dropped _ => true
  | .started _ => true
  | .ended _ => true
  | .slept _ => true
  | _ => false

/-- The events of jobs and sleeps, the latest first. -/
def World.background (w : World) : List Event := w.journal.filter Event.isBackground

def Outcome.background (x : Outcome) : List Event := x.journal.filter Event.isBackground

namespace World
variable (w : World)

/-! ## Edits -/

theorem background_record {e : Event} (he : e.isBackground = false) :
    (w.record e).background = w.background := by
  simp only [background, record, List.filter_cons, he, Bool.false_eq_true, if_false]

theorem background_remark (r : Remark) : (w.remark r).background = w.background :=
  w.background_record rfl

end World

theorem fulfil_background (work : Work) (empty : Bool) (w : World) :
    (fulfil work empty w).1.background = w.background := by
  have accepted (v : World) (c : Call) (r : Receipt) : (v.accept c r).1.background = v.background :=
    v.background_record rfl
  cases work with
  | shipping | payment | messaging => exact (accepted _ _ _).trans (World.background_remark _ _)
  | escalation o =>
    simp only [fulfil]
    split
    · exact (accepted _ _ _).trans (World.background_remark _ _)
    · exact accepted _ _ _
  | add t => exact accepted _ _ _
  | drain =>
    simp only [fulfil]
    repeat' split
    · rfl
    · exact accepted _ _ _
    · exact accepted _ _ _
  | dequeue =>
    simp only [fulfil]
    split
    · exact World.background_record _ rfl
    · exact accepted _ _ _

theorem Event.isBackground_of_isOfCall {e : Event} (h : e.isOfCall = true) :
    e.isBackground = false := by
  cases e with
  | spawned | dropped | started | ended | slept => cases h
  | _ => rfl

theorem Edit.background {w v : World} (h : Edit Event.isOfCall w v) :
    v.background = w.background := by
  cases h with
  | beside h => rw [World.background, h.journal, World.background]
  | recorded e he => exact w.background_record (Event.isBackground_of_isOfCall he)
  | fulfilled work empty => exact fulfil_background work empty w

theorem Edits.background {w v : World} (h : Edits Event.isOfCall w v) :
    v.background = w.background := by
  induction h with
  | refl => rfl
  | tail _ hstep ih => exact hstep.background.trans ih

/-! ## Calls -/

theorem World.background_failPending (w : World) (o : OrderRef) :
    (failPending o w).1.background = w.background :=
  Edits.background (edits_failPending o w)

theorem World.background_takeReply (w : World) (k : CallKind) :
    (w.takeReply k).2.background = w.background :=
  Edits.background (edits_takeReply w k)

theorem answer_background (work : Work) (r : Reply) (w : World) :
    (answer work r w).1.background = w.background :=
  Edits.background (answer_edits work r w)

/-- An attempt spawns nothing and does not sleep. -/
theorem attempt_background {s : Setup} (j : Job) (n : UInt32) (w : World) :
    (attempt s j n w).background = w.background := by
  rw [Outcome.background, ← Outcome.journal_world]
  exact Edits.background (attempt_edits j n w)

end Fulfilment
