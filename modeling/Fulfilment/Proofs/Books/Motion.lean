import Fulfilment.Proofs.Books.Effect
import Fulfilment.Proofs.Load
import Fulfilment.Proofs.Stage.Journal

/-! Which thread does what in a happening, said once.

* `Acts`: a thread performs its first action.
* `Motion`: that, or a thread waits, a pending job starts, a request is made, something is scripted,
  or a new order comes in.
* `System.Orderly.motion`: every happening is one of these.
* `Acts.load`: the actions of a kind that are still to be performed change with what the action
  spends and leaves. -/
namespace Fulfilment

set_option autoImplicit false

/-! ## Jobs that start -/

theorem startAt_books {s : Setup} {i : Nat} {w v : World} {todo : List Action}
    (h : startAt? s i w = some (v, todo)) :
    v.books = { w.books with pending := w.pending.eraseIdx i } := by
  obtain ⟨j, u, -, -, rfl, rfl | rfl | ⟨name, rfl⟩⟩ := startAt?_eq_some h
  · exact World.books_record _ rfl
  · exact World.books_record _ rfl
  · exact (World.books_record _ rfl).trans (World.books_remark _ rfl)

/-- A panic right before an end goes no further, and nothing else is done. -/
theorem unwind_books (s : Setup) (w : World) {a : Action} (more : List Action)
    (ha : a.isEnd = true) :
    ∃ v, Run.unwind s w (a :: more) = { world := v, agenda := more } ∧ v.books = w.books ∧
      v.clock = w.clock := by
  cases a with
  | finish j =>
    refine ⟨panicked s j w, rfl, ?_⟩
    simp only [panicked]
    cases s.dispatch with
    | threads => exact ⟨rfl, rfl⟩
    | pool name => exact ⟨World.books_remark _ rfl, rfl⟩
    | deferred | inline => exact ⟨World.books_remark _ rfl, rfl⟩
  | placed o => exact ⟨_, rfl, World.books_remark _ rfl, rfl⟩
  | _ => cases ha

/-! ## Motions -/

/-- A thread performs its first action and goes on with what that leaves to do; after a panic it
goes on behind the end that comes next. -/
structure Acts (s : Setup) (σ τ : System) (i : Nat) (a : Action) (rest : List Action) (v : World)
    (todo more : List Action) : Prop where
  thread : σ.threads[i]? = some (a :: rest)
  outcome : (perform s a σ.world).ComesTo v todo
  effect : Effect s σ.world a v todo
  books : τ.world.books = v.books
  clock : τ.world.clock = v.clock
  journal : v.journal <:+ τ.world.journal
  threads : τ.threads = σ.threads.set i (todo ++ more)
  more : more = rest ∨ todo = [] ∧ ∃ e, e.isEnd = true ∧ rest = e :: more

theorem Acts.meets {s : Setup} {σ τ : System} {i : Nat} {a : Action} {rest todo more : List Action}
    {v : World} {P : World → List Action → Prop} (h : Acts s σ τ i a rest v todo more)
    (hm : (perform s a σ.world).Meets P) : P v todo := by
  obtain hp | ⟨hp, ht⟩ := h.outcome
  · rw [hp] at hm
    exact hm
  · rw [hp] at hm
    rw [ht]
    exact hm

/-- Time passes, or something is scripted. -/
def Move.isScript : Move → Bool
  | .pass _ => true
  | .fault _ _ => true
  | .reply _ _ => true
  | _ => false

/-- The two actions a job that starts has before it. -/
def Job.agenda (j : Job) : List Action := [.attempt j 0, .finish j]

inductive Motion (s : Setup) (σ τ : System) : Happening → Prop
  | acted (i : Nat) (a : Action) (rest : List Action) (v : World) (todo more : List Action)
      (ha : Acts s σ τ i a rest v todo more) : Motion s σ τ (.move (.act i))
  /-- The thread has ended, or no job is there to be run meanwhile. -/
  | rested (i : Nat) (old more : List Action) (hi : σ.threads[i]? = some old)
      (hold : old = [] ∧ more = [] ∨ ∃ count, old = .serve count :: more) (hw : τ.world = σ.world)
      (ht : τ.threads = σ.threads.set i more) : Motion s σ τ (.move (.act i))
  /-- A thread runs a pending job meanwhile. -/
  | served (i n : Nat) (rest : List Action) (j : Job) (hj : σ.world.pending[0]? = some j)
      (hi : σ.threads[i]? = some (.serve (n + 1) :: rest))
      (hb : τ.world.books = { σ.world.books with pending := σ.world.pending.eraseIdx 0 })
      (ht : τ.threads = σ.threads.set i (j.agenda ++ .serve n :: rest)) :
      Motion s σ τ (.move (.act i))
  | started (k : Nat) (j : Job) (hj : σ.world.pending[k]? = some j)
      (hb : τ.world.books = { σ.world.books with pending := σ.world.pending.eraseIdx k })
      (ht : τ.threads = σ.threads ++ [j.agenda]) : Motion s σ τ (.move (.start k))
  | asked (q : Request) (hq : q.order < σ.world.orders.length) (hw : τ.world = σ.world)
      (ht : τ.threads = σ.threads ++ [[q.action]]) : Motion s σ τ (.move (.ask q))
  | scripted (m : Move) (hm : m.isScript = true) (hb : τ.world.books = σ.world.books)
      (ht : τ.threads = σ.threads) : Motion s σ τ (.move m)
  | ordered (c : CoordinatorRef) (customer : Customer) (item : String) (price : Float) (x : Order)
      (hx : System.Fresh x) (hb : τ.world.books = σ.world.books.addOrder x)
      (ht : τ.threads = σ.threads ++ [[.place c σ.world.orders.length]]) :
      Motion s σ τ (.order c customer item price)

namespace System
variable {s : Setup} {σ τ : System} {h : Happening}

theorem Orderly.motion_act {i : Nat} (hσ : σ.Orderly s) (hτ : σ.move? s (.act i) = some τ) :
    Motion s σ τ (.move (.act i)) := by
  obtain ⟨agenda, hi, rfl⟩ := act?_eq_some hτ
  cases agenda with
  | nil => exact .rested i [] [] hi (.inl ⟨rfl, rfl⟩) rfl rfl
  | cons a rest =>
    have hbr : bracketed (a :: rest) = true := (hσ.thread hi).agenda
    by_cases hserve : ∃ count, a = .serve count
    · obtain ⟨count, rfl⟩ := hserve
      rw [Run.step_cons]
      obtain hp | ⟨n, v, todo, hs, rfl, hp⟩ := serve_cases (s := s) count σ.world
      · rw [hp]
        exact .rested i _ rest hi (.inr ⟨count, rfl⟩) rfl rfl
      · rw [hp]
        obtain ⟨j, hj, rfl, hpending, -⟩ := startAt_cases 0 σ.world v todo hs
        refine .served i n rest j hj hi (startAt_books hs) ?_
        simp [Job.agenda]
    · have hns : ∀ count, a ≠ .serve count := fun count hc => hserve ⟨count, hc⟩
      have hmeets := perform_effect a σ.world hσ.unlocked hσ.replies (bracketed_head hbr) hns
      rw [Run.step_cons]
      cases hp : perform s a σ.world with
      | next v todo =>
        rw [hp] at hmeets
        exact .acted i a rest v todo rest
          ⟨hi, .inl hp, hmeets, rfl, rfl, List.suffix_rfl, rfl, .inl rfl⟩
      | panic v =>
        rw [hp] at hmeets
        -- Only an attempt panics, and the end that follows it swallows the panic.
        have heffect : Effect s σ.world a v [] := hmeets
        obtain ⟨j, n, rfl⟩ := panic_attempt a σ.world v (bracketed_head hbr) hp
        obtain ⟨e, more, he, rfl, -⟩ := bracketed_attempt hbr
        obtain ⟨u, hu, hbooks, hclock⟩ := unwind_books s v more he
        have hjournal := Run.unwind_journal s v (e :: more)
        rw [hu] at hjournal
        simp only [hu]
        exact .acted i _ (e :: more) v [] more
          ⟨hi, .inr ⟨hp, rfl⟩, heffect, hbooks, hclock, hjournal, rfl, .inr ⟨rfl, e, he, rfl⟩⟩
      | stuck v =>
        rw [hp] at hmeets
        exact hmeets.elim

theorem Orderly.motion (hσ : σ.Orderly s) (hτ : σ.happen? s h = some τ) : Motion s σ τ h := by
  cases happens_of_some hτ with
  | moved m hq hm =>
    cases m with
    | act i => exact hσ.motion_act hm
    | start i =>
      obtain ⟨w, todo, hs, rfl⟩ := start?_eq_some hm
      obtain ⟨j, hj, rfl, hpending, -⟩ := startAt_cases i σ.world w todo hs
      exact .started i j hj (startAt_books hs) rfl
    | ask q =>
      cases hm
      exact .asked q (hq q rfl) rfl rfl
    | pass | fault | reply =>
      cases hm
      exact .scripted _ rfl rfl rfl
  | ordered c customer item price x ids draws hx hυ =>
    subst hυ
    exact .ordered c customer item price x hx rfl rfl

end System

/-! ## Loads -/

section Loads
variable {s : Setup} {σ τ : System} {p : Action → Bool} (hp : Concern p)
include hp

theorem Job.countP_agenda (j : Job) :
    j.agenda.countP p = if p (.attempt j 0) then 1 else 0 := by
  simp only [agenda, List.countP_cons, List.countP_nil, hp.finish j, Bool.false_eq_true, if_false,
    Nat.zero_add, Nat.add_zero]

/-- The action that is performed is spent, and what it leaves to do or to wait comes instead. -/
theorem Acts.load {i : Nat} {a : Action} {rest todo more : List Action} {v : World}
    (h : Acts s σ τ i a rest v todo more) :
    τ.load p + (if p a then 1 else 0) + σ.world.waiting p =
      σ.load p + todo.countP p + v.waiting p := by
  have hwaiting : τ.world.waiting p = v.waiting p :=
    World.waiting_of_pending (World.pending_of_books h.books) p
  have hmore : more.countP p = rest.countP p := by
    obtain rfl | ⟨-, e, he, rfl⟩ := h.more
    · rfl
    · rw [List.countP_cons_of_neg (by rw [hp.of_end he]; decide)]
  have hset := System.load_set (p := p) h.thread τ.world (todo ++ more)
  rw [← h.threads, List.countP_append, hmore, List.countP_cons, hwaiting] at hset
  have hτ : (⟨τ.world, τ.threads⟩ : System).load p = τ.load p := rfl
  omega

/-- A pending job that starts counts on a thread what it counted while it waited. -/
theorem waiting_of_start {k : Nat} {j : Job} (hj : σ.world.pending[k]? = some j)
    (hb : τ.world.books = { σ.world.books with pending := σ.world.pending.eraseIdx k }) :
    j.agenda.countP p + τ.world.waiting p = σ.world.waiting p := by
  have hpending : τ.world.pending = σ.world.pending.eraseIdx k := congrArg Books.pending hb
  have hw := countP_of_getElem? (fun j => p (.attempt j 0)) σ.world.pending k j hj
  rw [j.countP_agenda hp, World.waiting, World.waiting, hpending]
  omega

theorem load_of_rest {i : Nat} {old more : List Action} (hi : σ.threads[i]? = some old)
    (hold : old = [] ∧ more = [] ∨ ∃ count, old = .serve count :: more) (hw : τ.world = σ.world)
    (ht : τ.threads = σ.threads.set i more) : τ.load p = σ.load p := by
  have hset := System.load_set (p := p) hi τ.world more
  have hcount : old.countP p = more.countP p := by
    obtain ⟨rfl, rfl⟩ | ⟨count, rfl⟩ := hold
    · rfl
    · rw [List.countP_cons_of_neg (by rw [hp.serve]; decide)]
  have hτ : (⟨σ.world, τ.threads⟩ : System).load p = τ.load p := by rw [← hw]
  rw [← ht, hw, hcount] at hset
  omega

theorem load_of_served {i n : Nat} {rest : List Action} {j : Job}
    (hj : σ.world.pending[0]? = some j) (hi : σ.threads[i]? = some (.serve (n + 1) :: rest))
    (hb : τ.world.books = { σ.world.books with pending := σ.world.pending.eraseIdx 0 })
    (ht : τ.threads = σ.threads.set i (j.agenda ++ .serve n :: rest)) : τ.load p = σ.load p := by
  have hset := System.load_set (p := p) hi τ.world (j.agenda ++ .serve n :: rest)
  have hstart := waiting_of_start hp hj hb
  have hτ : (⟨τ.world, τ.threads⟩ : System).load p = τ.load p := rfl
  rw [← ht, List.countP_append, List.countP_cons_of_neg (by rw [hp.serve]; decide),
    List.countP_cons_of_neg (by rw [hp.serve]; decide)] at hset
  omega

omit hp in
theorem load_append {new : List Action} (ht : τ.threads = σ.threads ++ [new]) :
    τ.load p + σ.world.waiting p = σ.load p + new.countP p + τ.world.waiting p := by
  simp only [System.load, ht, List.flatten_append, List.flatten_singleton, List.countP_append]
  omega

theorem load_of_started {k : Nat} {j : Job} (hj : σ.world.pending[k]? = some j)
    (hb : τ.world.books = { σ.world.books with pending := σ.world.pending.eraseIdx k })
    (ht : τ.threads = σ.threads ++ [j.agenda]) : τ.load p = σ.load p := by
  have hload := load_append (p := p) ht
  have hstart := waiting_of_start hp hj hb
  omega

omit hp in
theorem load_of_new {a : Action} (hw : τ.world.pending = σ.world.pending)
    (ht : τ.threads = σ.threads ++ [[a]]) : τ.load p = σ.load p + if p a then 1 else 0 := by
  have hload := load_append (p := p) ht
  rw [World.waiting_of_pending hw, List.countP_singleton] at hload
  omega

end Loads
end Fulfilment
