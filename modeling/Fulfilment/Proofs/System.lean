import Fulfilment.Proofs.Run

/-!
Many threads over one world, in any order of their steps.

Main definitions:
- `System`: the world and, for each thread, the actions it still has to perform.
- `Move`: a step of one thread, the start of a pending job, a request from outside, time, and what
  the collaborators are scripted to do.
- `System.play?`: the system after a list of moves.
- `System.Orderly`: no lock is held, no call will be interrupted, nothing is half done.
-/
namespace Fulfilment

set_option autoImplicit false

structure System where
  world : World
  threads : List (List Action) := []

/-- What a coordinator can be asked to do. -/
inductive Request where
  | place (c : CoordinatorRef) (o : OrderRef)
  | pay (c : CoordinatorRef) (o : OrderRef)
  | tell (c : CoordinatorRef) (o : OrderRef) (m : MessageType)
  | escalate (c : CoordinatorRef) (o : OrderRef)
  | enqueue (c : CoordinatorRef) (t : Task)

def Request.action : Request → Action
  | .place c o => .place c o
  | .pay c o => .pay c o
  | .tell c o m => .tell c o m
  | .escalate c o => .escalate c o
  | .enqueue c t => .enqueue c t

inductive Move where
  /-- The thread at this place performs its first action. -/
  | act (i : Nat)
  /-- The pending job at this place starts on a thread of its own. -/
  | start (i : Nat)
  /-- A request is made, on a thread of its own. -/
  | ask (q : Request)
  | pass (d : Span)
  /-- A further failure in the script of a service. -/
  | fault (sv : Service) (f : Failure)
  /-- A further reply in the script of a collaborator. -/
  | reply (k : CallKind) (r : Reply)

/-- The replies that a move scripts leave calls whole. -/
def Move.Whole (s : Setup) : Move → Prop
  | .reply _ r => r.Whole s
  | _ => True

namespace System

/-- The thread at this place takes a step of its own run. -/
def act? (s : Setup) (i : Nat) (σ : System) : Option System :=
  match σ.threads[i]? with
  | none => none
  | some agenda =>
    let r := Run.step s { world := σ.world, agenda }
    if r.stuck then none else some ⟨r.world, σ.threads.set i r.agenda⟩

def start? (s : Setup) (i : Nat) (σ : System) : Option System :=
  match startAt? s i σ.world with
  | none => none
  | some (w, todo) => some ⟨w, σ.threads ++ [todo]⟩

def move? (s : Setup) (m : Move) (σ : System) : Option System :=
  match m with
  | .act i => σ.act? s i
  | .start i => σ.start? s i
  | .ask q => some { σ with threads := σ.threads ++ [[q.action]] }
  | .pass d => some { σ with world := σ.world.advance d }
  | .fault sv f =>
    some { σ with world := { σ.world with faults := σ.world.faults.push sv f } }
  | .reply k r =>
    some { σ with world := { σ.world with replies := σ.world.replies ++ [(k, r)] } }

def play? (s : Setup) : List Move → System → Option System
  | [], σ => some σ
  | m :: moves, σ => (σ.move? s m).bind (play? s moves)

/-! ## Runs of moves -/

/-- What every move of a run preserves holds at its end. -/
theorem play?_induct {s : Setup} {P : System → Prop} {moves : List Move}
    (step : ∀ m ∈ moves, ∀ σ τ, σ.move? s m = some τ → P σ → P τ) {σ τ : System}
    (h : play? s moves σ = some τ) (hσ : P σ) : P τ := by
  induction moves generalizing σ with
  | nil =>
    cases h
    exact hσ
  | cons m moves ih =>
    simp only [play?, Option.bind_eq_some_iff] at h
    obtain ⟨υ, hm, h⟩ := h
    have hυ : P υ := step m (List.mem_cons_self ..) σ υ hm hσ
    exact ih (fun n hn => step n (List.mem_cons_of_mem _ hn)) h hυ

/-! ## Whole attempts -/

structure Orderly (s : Setup) (σ : System) : Prop where
  clock : σ.world.clock ≤ World.lastClock
  unlocked : σ.world.Unlocked
  replies : σ.world.Whole s
  threads : ∀ agenda ∈ σ.threads, bracketed agenda = true

/-- The run of one thread. -/
theorem Orderly.thread {s : Setup} {σ : System} (h : σ.Orderly s) {i : Nat} {agenda : List Action}
    (hi : σ.threads[i]? = some agenda) : Run.Orderly s { world := σ.world, agenda } :=
  ⟨h.clock, h.unlocked, h.replies, h.threads agenda (List.mem_of_getElem? hi), rfl⟩

theorem act?_eq_some {s : Setup} {i : Nat} {σ τ : System} (h : σ.act? s i = some τ) :
    ∃ agenda, σ.threads[i]? = some agenda ∧
      τ = ⟨(Run.step s { world := σ.world, agenda }).world,
        σ.threads.set i (Run.step s { world := σ.world, agenda }).agenda⟩ := by
  simp only [act?] at h
  cases hi : σ.threads[i]? with
  | none =>
    rw [hi] at h
    cases h
  | some agenda =>
    rw [hi] at h
    simp only [Option.ite_none_left_eq_some, Option.some.injEq] at h
    exact ⟨agenda, rfl, h.2.symm⟩

theorem start?_eq_some {s : Setup} {i : Nat} {σ τ : System} (h : σ.start? s i = some τ) :
    ∃ w todo, startAt? s i σ.world = some (w, todo) ∧ τ = ⟨w, σ.threads ++ [todo]⟩ := by
  simp only [start?] at h
  cases hs : startAt? s i σ.world with
  | none =>
    rw [hs] at h
    cases h
  | some q =>
    rw [hs] at h
    cases h
    exact ⟨q.1, q.2, rfl, rfl⟩

/-- A thread that could not go on would have taken a lock twice. -/
theorem Orderly.act {s : Setup} {σ : System} (h : σ.Orderly s) {i : Nat} {agenda : List Action}
    (hi : σ.threads[i]? = some agenda) : ∃ τ, σ.move? s (.act i) = some τ := by
  have hf := (h.thread hi).step.2.free
  simp only [move?, act?, hi, hf]
  exact ⟨_, rfl⟩

/-- A move that scripts nothing changes the world as a step of a thread does. -/
theorem Orderly.move_changes {s : Setup} {σ τ : System} {m : Move} (h : σ.Orderly s)
    (hτ : σ.move? s m = some τ) :
    σ.world.Proceeds s τ.world ∨
      (∃ sv f, m = .fault sv f ∧
        τ.world = { σ.world with faults := σ.world.faults.push sv f }) ∨
      ∃ k r, m = .reply k r ∧
        τ.world = { σ.world with replies := σ.world.replies ++ [(k, r)] } := by
  cases m with
  | act i =>
    obtain ⟨agenda, hi, rfl⟩ := act?_eq_some hτ
    exact .inl (h.thread hi).step.1
  | start i =>
    obtain ⟨w, todo, hs, rfl⟩ := start?_eq_some hτ
    obtain ⟨j, -, -, -, -, hc⟩ := startAt_cases i σ.world w todo hs
    exact .inl ⟨_, hc⟩
  | ask q =>
    cases hτ
    exact .inl ⟨σ.world.pending, .refl⟩
  | pass d =>
    cases hτ
    exact .inl ⟨σ.world.pending, changes_advance σ.world (Int.natCast_nonneg d)⟩
  | fault sv f =>
    cases hτ
    exact .inr (.inl ⟨sv, f, rfl, rfl⟩)
  | reply k r =>
    cases hτ
    exact .inr (.inr ⟨k, r, rfl, rfl⟩)

theorem Orderly.open_move {s : Setup} {σ τ : System} {m : Move} (h : σ.Orderly s)
    (hτ : σ.move? s m = some τ) (ho : σ.world.Open) : τ.world.Open := by
  obtain ⟨pending, hc⟩ | ⟨sv, f, -, hw⟩ | ⟨k, r, -, hw⟩ := h.move_changes hτ
  · exact hc.isOpen ho
  · rw [hw]
    exact ho
  · rw [hw]
    exact ho

theorem Orderly.move {s : Setup} {σ τ : System} {m : Move} (h : σ.Orderly s) (hm : m.Whole s)
    (hτ : σ.move? s m = some τ) : σ.world.Evolves s τ.world ∧ τ.Orderly s := by
  cases m with
  | act i =>
    obtain ⟨agenda, hi, rfl⟩ := act?_eq_some hτ
    obtain ⟨he, ho⟩ := (h.thread hi).step
    refine ⟨he.evolves, ho.clock, ho.unlocked, ho.replies, fun a ha => ?_⟩
    obtain ha | rfl := List.mem_or_eq_of_mem_set ha
    · exact h.threads a ha
    · exact ho.agenda
  | start i =>
    obtain ⟨w, todo, hs, rfl⟩ := start?_eq_some hτ
    obtain ⟨j, -, rfl, -, -, hc⟩ := startAt_cases i σ.world w todo hs
    have he := (σ.world.evolves_handled σ.world.faults σ.world.replies
      (σ.world.pending.eraseIdx i)).trans hc.evolves
    refine ⟨he, (hc.timePasses h.clock).2, hc.unlocked (h.unlocked.of_orders rfl),
      hc.whole h.replies, fun a ha => ?_⟩
    obtain ha | ha := List.mem_append.mp ha
    · exact h.threads a ha
    · rw [List.mem_singleton.mp ha]
      rfl
  | ask q =>
    cases hτ
    refine ⟨.refl, h.clock, h.unlocked, h.replies, fun a ha => ?_⟩
    obtain ha | ha := List.mem_append.mp ha
    · exact h.threads a ha
    · rw [List.mem_singleton.mp ha]
      cases q <;> rfl
  | pass d =>
    cases hτ
    have hc : Changes s σ.world (σ.world.advance d) :=
      changes_advance σ.world (Int.natCast_nonneg d)
    exact ⟨hc.evolves, (hc.timePasses h.clock).2, hc.unlocked h.unlocked, hc.whole h.replies,
      h.threads⟩
  | fault sv f =>
    cases hτ
    exact ⟨σ.world.evolves_handled _ _ _, h.clock, h.unlocked.of_orders rfl, h.replies, h.threads⟩
  | reply k r =>
    cases hτ
    refine ⟨σ.world.evolves_handled _ _ _, h.clock, h.unlocked.of_orders rfl, ?_, h.threads⟩
    intro e he
    obtain he | he := List.mem_append.mp he
    · exact h.replies e he
    · rw [List.mem_singleton.mp he]
      exact hm

theorem Orderly.play {s : Setup} {σ τ : System} {moves : List Move} (h : σ.Orderly s)
    (hm : ∀ m ∈ moves, m.Whole s) (hτ : σ.play? s moves = some τ) :
    σ.world.Evolves s τ.world ∧ τ.Orderly s := by
  refine play?_induct (P := fun υ => σ.world.Evolves s υ.world ∧ υ.Orderly s) ?_ hτ ⟨.refl, h⟩
  intro m hmem υ ω hω hυ
  obtain ⟨he, ho⟩ := hυ.2.move (hm m hmem) hω
  exact ⟨hυ.1.trans he, ho⟩

end System
end Fulfilment
