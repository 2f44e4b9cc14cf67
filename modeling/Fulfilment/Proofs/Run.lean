import Fulfilment.Agenda
import Fulfilment.Proofs.Stage.Todo

/-! Runs in which every attempt is whole: what one step does to the world, and that the next step
finds the same conditions. -/
namespace Fulfilment

set_option autoImplicit false

namespace Run

/-- Between whole attempts: no lock is held, no call will be interrupted, nothing is half done. -/
structure Orderly (s : Setup) (r : Run) : Prop where
  clock : r.world.clock ≤ World.lastClock
  unlocked : r.world.Unlocked
  replies : r.world.Whole s
  agenda : bracketed r.agenda = true
  free : r.stuck = false

/-! ## Panics -/

/-- A panic right before an end goes no further than that end. -/
theorem unwind_end (s : Setup) (w : World) {a : Action} (more : List Action)
    (ha : a.isEnd = true) :
    ∃ v, unwind s w (a :: more) = { world := v, agenda := more } ∧ v.settings = w.settings ∧
      v.pending = w.pending := by
  cases a with
  | finish j => exact ⟨panicked s j w, rfl, settings_panicked j w⟩
  | placed o => exact ⟨_, rfl, rfl, rfl⟩
  | _ => cases ha

/-! ## Steps -/

/-- What a step does is what its first action does. -/
theorem step_cons (s : Setup) (w : World) (a : Action) (rest : List Action) :
    step s { world := w, agenda := a :: rest } =
      match perform s a w with
      | .next v todo => { world := v, agenda := todo ++ rest }
      | .panic v => unwind s v rest
      | .stuck v => { world := v, agenda := a :: rest, stuck := true } :=
  rfl

/-- The ways a step can go: the first action leaves something to do, a pending job starts in its
place if there is one, or an attempt panics and the end after it is reached. -/
inductive StepCases (s : Setup) (w : World) (a : Action) (rest : List Action) : Run → Prop
  | performed (v : World) (todo : List Action) (ha : ∀ count, a ≠ .serve count)
      (hp : perform s a w = .next v todo) (hv : Changes s w v) :
      StepCases s w a rest { world := v, agenda := todo ++ rest }
  | unserved (count : Nat) (ha : a = .serve count) :
      StepCases s w a rest { world := w, agenda := rest }
  | served (n : Nat) (v : World) (todo : List Action) (ha : a = .serve (n + 1))
      (hs : startAt? s 0 w = some (v, todo)) :
      StepCases s w a rest { world := v, agenda := todo ++ .serve n :: rest }
  | panicked (j : Job) (n : UInt32) (v u : World) (b : Action) (more : List Action)
      (ha : a = .attempt j n) (hp : attempt s j n w = .panic v) (hv : Changes s w v)
      (hb : b.isEnd = true) (hrest : rest = b :: more) (hu : u.settings = v.settings)
      (hpending : u.pending = v.pending) : StepCases s w a rest { world := u, agenda := more }

theorem Orderly.cases {s : Setup} {w : World} {a : Action} {rest : List Action}
    (h : Orderly s { world := w, agenda := a :: rest }) :
    StepCases s w a rest (step s { world := w, agenda := a :: rest }) := by
  have ha := bracketed_head h.agenda
  rw [step_cons]
  by_cases hserve : ∃ count, a = .serve count
  · obtain ⟨count, rfl⟩ := hserve
    obtain hp | ⟨n, v, todo, hs, rfl, hp⟩ := serve_cases (s := s) count w
    · rw [hp]
      exact .unserved count rfl
    · rw [hp]
      have he : todo ++ [Action.serve n] ++ rest = todo ++ .serve n :: rest := by simp
      simp only [he]
      exact .served n v todo rfl hs
  have hns : ∀ count, a ≠ .serve count := fun count hc => hserve ⟨count, hc⟩
  have hl := perform_changes a w h.unlocked h.replies ha hns
  cases hp : perform s a w with
  | next v todo =>
    rw [hp] at hl
    exact .performed v todo hns hp hl
  | panic v =>
    rw [hp] at hl
    obtain ⟨j, n, rfl⟩ := panic_attempt a w v ha hp
    obtain ⟨b, more, hb, rfl, -⟩ := bracketed_attempt h.agenda
    obtain ⟨u, hu, hset, hpend⟩ := unwind_end s v more hb
    simp only [hu]
    exact .panicked j n v u b more rfl hp hl hb rfl hset hpend
  | stuck v =>
    rw [hp] at hl
    exact hl.elim

theorem Orderly.step {s : Setup} {r : Run} (h : r.Orderly s) :
    r.world.Proceeds s (r.step s).world ∧ (r.step s).Orderly s := by
  obtain ⟨w, agenda, stuck⟩ := r
  cases h.free
  cases agenda with
  | nil => exact ⟨Changes.proceeds .refl, h⟩
  | cons a rest =>
    have keeps {v : World} {more : List Action} (hv : Changes s w v)
        (hb : bracketed more = true) :
        w.Proceeds s v ∧ Orderly s { world := v, agenda := more } :=
      ⟨hv.proceeds, (hv.timePasses h.clock).2, hv.unlocked h.unlocked, hv.whole h.replies, hb, rfl⟩
    have hc := h.cases
    generalize Run.step s { world := w, agenda := a :: rest } = r at hc
    cases hc with
    | performed v todo _ hp hv =>
      exact keeps hv (bracketed_perform a rest w v todo h.unlocked h.replies h.agenda hp)
    | unserved count ha => exact keeps .refl (bracketed_tail h.agenda)
    | served n v todo ha hs =>
      obtain ⟨j, -, rfl, -, -, hv⟩ := startAt_cases 0 w v todo hs
      have hrest : bracketed rest = true := bracketed_tail h.agenda
      exact ⟨⟨_, hv⟩, (hv.timePasses h.clock).2, hv.unlocked (h.unlocked.of_orders rfl),
        hv.whole h.replies, hrest, rfl⟩
    | panicked j n v u b more ha hp hv hb hrest hu hpend =>
      subst ha hrest
      obtain ⟨_, _, _, hmore, hbr⟩ := bracketed_attempt h.agenda
      cases hmore
      exact keeps (hv.trans (changes_aside hu hpend)) hbr

/-! ## Runs -/

theorem drive_of_over {s : Setup} {r : Run} (h : r.isOver = true) (k : Nat) : r.drive s k = r := by
  cases k with
  | zero => rfl
  | succ k => rw [drive, if_pos h]

theorem drive_succ {s : Setup} {r : Run} (h : r.isOver = false) (k : Nat) :
    r.drive s (k + 1) = (r.step s).drive s k := by
  rw [drive, h]
  rfl

theorem drive_add (s : Setup) (m n : Nat) (r : Run) :
    r.drive s (m + n) = (r.drive s m).drive s n := by
  induction m generalizing r with
  | zero => rw [Nat.zero_add, drive]
  | succ m ih =>
    cases hover : r.isOver with
    | true => rw [drive_of_over hover, drive_of_over hover, drive_of_over hover]
    | false =>
      rw [Nat.succ_add, drive_succ hover, drive_succ hover]
      exact ih _

theorem Orderly.drive {s : Setup} {r : Run} (h : r.Orderly s) (fuel : Nat) :
    r.world.Evolves s (r.drive s fuel).world ∧ (r.drive s fuel).Orderly s := by
  induction fuel generalizing r with
  | zero => exact ⟨.refl, h⟩
  | succ n ih =>
    simp only [Run.drive]
    split
    · exact ⟨.refl, h⟩
    · have hs := h.step
      have hd := ih hs.2
      exact ⟨hs.1.evolves.trans hd.1, hd.2⟩

end Run
end Fulfilment
