import Fulfilment.Proofs.Stage.Progress
import Fulfilment.Proofs.System

/-! Which tasks a removal takes from the queue store. A drain step decides about the head it has
looked at, but the removal is a job of its own and takes whatever is the head by then.

* `World.condemned`: a drain step has decided to drop the head, and nothing was removed since.
* `System.removal_of_condemned`: a removal that finds the head condemned takes a finished task, in
  every run.
* `System.second_removal_takes_unfinished`: the second of two removals that were decided on for the
  same head takes a task that no drain step has looked at. -/
namespace Fulfilment

set_option autoImplicit false

/-! ## The condemned head -/

/-- Whether the event condemns the head of the queue or removes it. -/
def Event.condemns? : Event → Option Bool
  | .answered .dequeue (.taken _) => some false
  | .remarked r => if r.isDropping then some true else none
  | _ => none

/-- Among the latest events first: a drain step decided to drop the head, and none was removed
since. -/
def condemnedBy (events : List Event) : Bool := (events.findSome? Event.condemns?).getD false

def World.condemned (w : World) : Bool := condemnedBy w.journal

theorem World.condemned_eq (w : World) : w.condemned = condemnedBy w.deeds := by
  have hnone (e : Event) (he : e.isDeed = false) : e.condemns? = none := by
    cases e with
    | answered c r => cases c <;> first | rfl | cases he
    | remarked r =>
      have hr : r.isDropping = false := he
      simp [Event.condemns?, hr]
    | _ => rfl
  rw [condemned, deeds]
  induction w.journal with
  | nil => rfl
  | cons e rest ih =>
    simp only [condemnedBy] at ih ⊢
    by_cases he : e.isDeed = true
    · rw [List.filter_cons_of_pos he, List.findSome?_cons, List.findSome?_cons]
      cases e.condemns? with
      | none => exact ih
      | some b => rfl
    · rw [List.filter_cons_of_neg he, List.findSome?_cons, hnone e (by simpa using he)]
      exact ih

theorem World.condemned_of_deeds {w v : World} (h : v.deeds = w.deeds) :
    v.condemned = w.condemned := by
  rw [condemned_eq, condemned_eq, h]

theorem World.condemned_cons {w v : World} {e : Event} (h : v.deeds = e :: w.deeds) :
    v.condemned = e.condemns?.getD w.condemned := by
  rw [condemned_eq, condemned_eq, h, condemnedBy, List.findSome?_cons]
  cases e.condemns? <;> rfl

/-! ## The queue store -/

theorem condemned_fulfil (work : Work) (empty : Bool) (w : World) (h : work ≠ .dequeue) :
    (fulfil work empty w).1.condemned = w.condemned := by
  by_cases hd : work = .drain
  · rw [hd]
    exact World.condemned_of_deeds (deeds_fulfil_drain empty w)
  · obtain ⟨r, hr⟩ := deeds_fulfil work empty w hd h
    rw [World.condemned_cons hr]
    cases work with
    | dequeue => exact absurd rfl h
    | _ => rfl

theorem condemned_dequeue (empty : Bool) (w : World) (h : w.condemned = false) :
    (fulfil .dequeue empty w).1.condemned = false := by
  have hdeeds := deeds_fulfil_dequeue empty w
  cases ht : w.collaborators.head? with
  | none =>
    rw [ht] at hdeeds
    rw [World.condemned_of_deeds hdeeds, h]
  | some t =>
    rw [ht] at hdeeds
    exact World.condemned_cons hdeeds

theorem markHead_of_marked (c : Collaborators) (now : Instant) (t : Task) (h : c.head? = some t)
    (ht : t.firstAttempt.isSome = true) : c.markHead now = c := by
  obtain ⟨first, hf⟩ := Option.isSome_iff_exists.mp ht
  simp only [Collaborators.head?] at h
  simp only [Collaborators.markHead]
  cases hs : c.store with
  | nil => simp [hs] at h
  | cons u rest =>
    rw [hs] at h
    cases h
    have hmark : t.markFirstAttempt now = t := by
      simp only [Task.markFirstAttempt, Task.firstVisit, hf, Option.getD_some]
      rw [← hf]
    simp only [hmark, ← hs]

/-! ## Changes -/

/-- If the head is condemned, it is a finished task. -/
structure World.Judged (s : Setup) (w : World) : Prop where
  head : w.condemned = true →
    ∃ t, w.collaborators.head? = some t ∧ t.firstAttempt.isSome = true ∧ t.Finished s w

/-- A change keeps a condemned head where it is, or removes it. -/
theorem Change.condemned_head {s : Setup} {w v : World} (h : Change s w v) {t : Task}
    (hc : w.condemned = true) (ht : w.collaborators.head? = some t)
    (hm : t.firstAttempt.isSome = true) :
    (v.condemned = true ∧ v.collaborators.head? = some t) ∨
      (v.condemned = false ∧ v.deeds = .answered .dequeue (.taken t) :: w.deeds) := by
  cases h with
  | aside h =>
    exact .inl ⟨by rw [World.condemned_of_deeds h.deeds, hc], by rw [h.collaborators, ht]⟩
  | notice o n _ => exact .inl ⟨hc, ht⟩
  | failed o _ => exact .inl ⟨hc, ht⟩
  | fulfilled j empty _ =>
    by_cases hq : j.work = .dequeue
    · have hdeeds := deeds_fulfil_dequeue empty w
      rw [ht] at hdeeds
      rw [hq]
      exact .inr ⟨World.condemned_cons hdeeds, hdeeds⟩
    · refine .inl ⟨by rw [condemned_fulfil j.work empty w hq, hc], ?_⟩
      simp only [Collaborators.head?] at ht ⊢
      rw [store_fulfil]
      cases hj : j.work with
      | add u => rw [List.head?_append, ht, Option.some_or]
      | dequeue => exact absurd hj hq
      | _ => exact ht
  | crashed c => exact .inl ⟨hc, ht⟩
  | visited =>
    have hmark := markHead_of_marked w.collaborators w.now t ht hm
    exact .inl ⟨hc, by simp only [hmark, ht]⟩
  | dropped u r _ _ _ hr =>
    refine .inl ⟨?_, ht⟩
    rw [World.condemned_cons (w.deeds_remark_dropping hr)]
    simp [Event.condemns?, hr]

/-- A head that was not condemned is so only by a drain step that found it finished. -/
theorem Change.judged {s : Setup} {w v : World} (h : Change s w v)
    (hclock : w.clock ≤ World.lastClock) (hw : w.Judged s) : v.Judged s := by
  refine ⟨fun hv => ?_⟩
  by_cases hc : w.condemned = true
  · obtain ⟨t, ht, hm, hf⟩ := hw.head hc
    obtain ⟨-, hv'⟩ | ⟨hv', -⟩ := h.condemned_head hc ht hm
    · exact ⟨t, hv', hm, h.finished hclock hf⟩
    · rw [hv'] at hv
      cases hv
  · rw [Bool.not_eq_true] at hc
    cases h with
    | aside h =>
      rw [World.condemned_of_deeds h.deeds, hc] at hv
      cases hv
    | notice | failed | crashed | visited =>
      have hv' : w.condemned = true := hv
      rw [hc] at hv'
      cases hv'
    | fulfilled j empty _ =>
      have hv' : (fulfil j.work empty w).1.condemned = false := by
        by_cases hq : j.work = .dequeue
        · rw [hq]
          exact condemned_dequeue empty w hc
        · rw [condemned_fulfil j.work empty w hq, hc]
      rw [hv'] at hv
      cases hv
    | dropped t r ht hm hf hr => exact ⟨t, ht, hm, hf⟩

theorem Change.deeds {s : Setup} {w v : World} (h : Change s w v) :
    v.deeds = w.deeds ∨ ∃ e, v.deeds = e :: w.deeds := by
  cases h with
  | aside h => exact .inl h.deeds
  | notice | failed | visited => exact .inl rfl
  | crashed c => exact .inr ⟨_, rfl⟩
  | fulfilled j empty _ =>
    by_cases hd : j.work = .drain
    · exact .inl (by rw [hd]; exact deeds_fulfil_drain empty w)
    by_cases hq : j.work = .dequeue
    · have hdeeds := deeds_fulfil_dequeue empty w
      rw [hq]
      cases ht : w.collaborators.head? with
      | none =>
        rw [ht] at hdeeds
        exact .inl hdeeds
      | some t =>
        rw [ht] at hdeeds
        exact .inr ⟨_, hdeeds⟩
    obtain ⟨r, hr⟩ := deeds_fulfil j.work empty w hd hq
    exact .inr ⟨_, hr⟩
  | dropped t r _ _ _ hr => exact .inr ⟨_, w.deeds_remark_dropping hr⟩

/-- Only the queue store's answer to a removal says that a task was removed. -/
theorem Change.removal {s : Setup} {w v : World} (h : Change s w v) {t : Task}
    (hv : v.deeds = .answered .dequeue (.taken t) :: w.deeds) :
    ∃ empty, v = (fulfil .dequeue empty w).1 := by
  have same (hs : v.deeds = w.deeds) : False := by
    rw [hs] at hv
    exact List.cons_ne_self _ _ hv.symm
  cases h with
  | aside h => exact (same h.deeds).elim
  | notice | failed | visited => exact (same rfl).elim
  | crashed c => cases (List.cons.inj hv).1
  | fulfilled j empty _ =>
    by_cases hd : j.work = .drain
    · rw [hd] at same
      exact (same (deeds_fulfil_drain empty w)).elim
    by_cases hq : j.work = .dequeue
    · exact ⟨empty, by rw [hq]⟩
    obtain ⟨r, hr⟩ := deeds_fulfil j.work empty w hd hq
    rw [hr] at hv
    have hcall : callOf j.work w = .dequeue := (Event.answered.inj (List.cons.inj hv).1).1
    cases hj : j.work with
    | dequeue => exact absurd hj hq
    | _ =>
      rw [hj] at hcall
      cases hcall
  | dropped u r _ _ _ hr =>
    rw [w.deeds_remark_dropping hr] at hv
    cases (List.cons.inj hv).1

/-! ## Removals of a run -/

/-- Somewhere on the way from `w` to `v` the task was removed, the deeds before it being these; it
was the head of the queue then, and finished. -/
def RemovedFinished (s : Setup) (w v : World) (t : Task) (older : List Event) : Prop :=
  ∃ u empty, w.Evolves s u ∧ u.deeds = older ∧ u.collaborators.head? = some t ∧ t.Finished s u ∧
    World.Evolves s (fulfil .dequeue empty u).1 v

theorem RemovedFinished.later {s : Setup} {w v v' : World} {t : Task} {older : List Event}
    (h : RemovedFinished s w v t older) (hv : v.Evolves s v') :
    RemovedFinished s w v' t older := by
  obtain ⟨u, empty, hu, hd, ht, hf, hr⟩ := h
  exact ⟨u, empty, hu, hd, ht, hf, hr.trans hv⟩

/-- What is known of the removals since `w`. -/
structure Removals (s : Setup) (w v : World) : Prop where
  evolves : w.Evolves s v
  judged : v.Judged s
  finished : ∀ t newer older, v.deeds = newer ++ .answered .dequeue (.taken t) :: older →
    w.deeds <:+ older → condemnedBy older = true → RemovedFinished s w v t older

theorem Removals.refl {s : Setup} {w : World} (h : w.Judged s) : Removals s w w := by
  refine ⟨.refl, h, ?_⟩
  intro t newer older hd hs _
  have hlen := congrArg List.length hd
  have hle := hs.length_le
  simp only [List.length_append, List.length_cons] at hlen
  omega

/-- The step of the induction: a further deed is the removal asked about, or comes after it. -/
theorem Removals.change {s : Setup} {w u v : World} (h : Removals s w u)
    (hclock : u.clock ≤ World.lastClock) (hc : Change s u v) : Removals s w v := by
  have hv : w.Evolves s v := h.evolves.tail (.inl hc)
  refine ⟨hv, hc.judged hclock h.judged, ?_⟩
  intro t newer older hd hs hcond
  obtain hsame | ⟨e, he⟩ := hc.deeds
  · rw [hsame] at hd
    exact (h.finished t newer older hd hs hcond).later (.single (.inl hc))
  · cases newer with
    | nil =>
      have hu : u.deeds = older := (List.cons.inj (he.symm.trans hd)).2
      rw [List.nil_append, ← hu] at hd
      obtain ⟨empty, hfulfil⟩ := hc.removal hd
      have hcu : u.condemned = true := by rw [World.condemned_eq, hu, hcond]
      obtain ⟨t', ht', -, hf'⟩ := h.judged.head hcu
      have hdeeds := deeds_fulfil_dequeue empty u
      rw [ht', ← hfulfil, hd] at hdeeds
      have htask : t = t' := Receipt.taken.inj (Event.answered.inj (List.cons.inj hdeeds).1).2
      subst htask
      exact ⟨u, empty, h.evolves, hu, ht', hf', by rw [hfulfil]⟩
    | cons a newer =>
      have hu : u.deeds = newer ++ .answered .dequeue (.taken t) :: older :=
        (List.cons.inj (he.symm.trans hd)).2
      exact (h.finished t newer older hu hs hcond).later (.single (.inl hc))

theorem Removals.of_evolves {s : Setup} {w v : World} (h : w.Evolves s v)
    (hclock : w.clock ≤ World.lastClock) (hw : w.Judged s) : Removals s w v := by
  refine (h.preserves (P := Removals s w) hclock (fun _ _ hu hc hr => hr.change hu hc) ?_
    (.refl hw)).2
  intro u faults replies pending hu
  have hstep := u.evolves_handled (s := s) faults replies pending
  exact ⟨hu.evolves.trans hstep, ⟨hu.judged.head⟩, fun t newer older hd hs hc =>
    (hu.finished t newer older hd hs hc).later hstep⟩

namespace System

/-- Every removal of a run that finds the head condemned, as the deeds before it tell, takes the
head of the queue, and that is a finished task. -/
theorem removal_of_condemned (s : Setup) (σ τ : System) (moves : List Move) (h : σ.Orderly s)
    (hstart : σ.world.condemned = false) (hwhole : ∀ m ∈ moves, m.Whole s)
    (hrun : play? s moves σ = some τ) (t : Task) (newer older : List Event)
    (hdeeds : τ.world.deeds = newer ++ .answered .dequeue (.taken t) :: older)
    (holder : σ.world.deeds <:+ older) (hcondemned : condemnedBy older = true) :
    RemovedFinished s σ.world τ.world t older := by
  have hjudged : σ.world.Judged s := by
    refine ⟨fun hc => ?_⟩
    rw [hstart] at hc
    cases hc
  have hr := Removals.of_evolves (h.play hwhole hrun).1 h.clock hjudged
  exact hr.finished t newer older hdeeds holder hcondemned

/-- Two orders whose payments have not been tried. -/
def twoOrders : System :=
  { world :=
      { clock := 0
        orders := [{ id := ⟨"A1"⟩, customer := ⟨"Jim", "ABCD"⟩, item := "book", price := 10,
                     createdAt := 0 },
                   { id := ⟨"B2"⟩, customer := ⟨"Ann", "ABCD"⟩, item := "pen", price := 2,
                     createdAt := 0 }] } }

theorem twoOrders_orderly (s : Setup) : twoOrders.Orderly s :=
  ⟨by decide, .of_forall (by decide), by simp [World.Whole, twoOrders], by simp [twoOrders]⟩

/-- Both payments are put off, which starts two drain chains, and the first order is paid for after
all. Each chain then looks at its task and decides to drop it. -/
def overlappingDrains : List Move :=
  [.ask (.enqueue 0 (.payment 0)), .act 0, .ask (.enqueue 0 (.payment 1)), .act 1,
    .start 0, .act 2, .act 2, .start 0, .act 3, .act 3,
    .ask (.pay 0 0), .act 4, .start 2, .act 5,
    .start 0, .act 6, .act 6, .start 0, .act 7, .act 7]

theorem first_removal_takes_finished :
    ∃ τ, play? {} (overlappingDrains ++ [.start 0, .act 8]) twoOrders = some τ ∧
      RemovedFinished {} twoOrders.world τ.world
        { Task.payment 0 with firstAttempt := some 0 } τ.world.deeds.tail :=
  ⟨_, rfl, removal_of_condemned {} twoOrders _ (overlappingDrains ++ [.start 0, .act 8])
    (twoOrders_orderly {}) rfl (by simp [overlappingDrains, Move.Whole]) rfl _ [] _ rfl
    List.nil_suffix rfl⟩

theorem second_removal_takes_unfinished :
    ∃ σ₁ σ₂, play? {} (overlappingDrains ++ [.start 0, .act 8, .start 0]) twoOrders = some σ₁ ∧
      σ₁.move? {} (.act 9) = some σ₂ ∧ σ₁.world.condemned = false ∧
      σ₁.world.collaborators.store = [.payment 1] ∧ σ₂.world.collaborators.store = [] ∧
      ¬ (Task.payment 1).Finished {} σ₁.world := by
  refine ⟨_, _, rfl, rfl, rfl, rfl, rfl, ?_⟩
  rintro (h | ⟨first, h, -⟩)
  · cases h
  · cases h

end System
end Fulfilment
