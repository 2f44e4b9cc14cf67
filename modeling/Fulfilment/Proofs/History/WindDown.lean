import Fulfilment.Proofs.Books.Topic
import Fulfilment.Proofs.Queue.Accounts
import Fulfilment.Proofs.Stage.Background

/-! Once the time of every order is over, no stage is attempted anew: what was spawned before may
still run, but only looks at the queue and removals from it are spawned any more.

* `World.spawnings`: the jobs that were spawned.
* `perform_spawnings`: an action spawns one job at most, and only in time.
* `World.Spent`: the time for every stage of an order is over.
* `System.wind_down`. -/
namespace Fulfilment

set_option autoImplicit false

/-! ## Jobs spawned -/

def Event.spawned? : Event → Option Job
  | .spawned j => some j
  | _ => none

/-- The jobs that were spawned, the latest first. -/
def World.spawnings (w : World) : List Job := w.journal.filterMap Event.spawned?

def Outcome.spawnings (x : Outcome) : List Job := x.journal.filterMap Event.spawned?

theorem filterMap_background (journal : List Event) :
    (journal.filter Event.isBackground).filterMap Event.spawned? =
      journal.filterMap Event.spawned? := by
  rw [List.filterMap_filter]
  congr 1
  funext e
  cases e <;> rfl

/-- What adds nothing on jobs and sleeps spawns nothing. -/
theorem spawnings_of_background {x : Outcome} {w : World} (h : x.background = w.background) :
    x.spawnings = w.spawnings := by
  rw [Outcome.spawnings, World.spawnings, ← filterMap_background, ← filterMap_background w.journal]
  exact congrArg _ h

/-- The time for what the action is to spawn is not over. -/
def Action.InTime (s : Setup) (w : World) : Action → Prop
  | .pay _ o => w.budgetExceeded o s.config.limits.payment = false
  | .tell _ o _ => w.budgetExceeded o s.config.limits.message = false
  | .escalate _ o => w.budgetExceeded o s.config.limits.employee = false
  | .enqueue _ t => w.budgetExceeded t.order s.config.limits.queue = false
  | _ => True

/-- Nothing is spawned, or one job that the action spawns while it is in time. -/
def World.SpawnsBy (s : Setup) (w : World) (a : Action) (js : List Job) : Prop :=
  js = w.spawnings ∨ ∃ j, a.Spawns j ∧ a.InTime s w ∧ js = j :: w.spawnings

section Actions
variable {s : Setup}

theorem spawn_spawnings (j : Job) (w : World) : (spawn s j w).spawnings = j :: w.spawnings := by
  simp only [spawn, launch]
  repeat' split
  all_goals rfl

theorem startAt_spawnings {i : Nat} {w v : World} {todo : List Action}
    (h : startAt? s i w = some (v, todo)) : v.spawnings = w.spawnings := by
  obtain ⟨j, u, -, -, rfl, rfl | rfl | ⟨name, rfl⟩⟩ := startAt?_eq_some h
  · rfl
  · rfl
  · rfl

theorem spawnsBy_spawn {a : Action} {j : Job} {w : World} (hj : a.Spawns j)
    (htime : a.InTime s w) : w.SpawnsBy s a (spawn s j w).spawnings :=
  .inr ⟨j, hj, htime, spawn_spawnings j w⟩

theorem pay_spawnings (c : CoordinatorRef) (o : OrderRef) (w : World) (hu : w.Unlocked) :
    w.SpawnsBy s (.pay c o) (pay s c o w).spawnings := by
  simp only [pay]
  split
  · rw [failPayment_eq s o w hu]
    have hfailed := w.background_failPending o
    generalize failPending o w = q at hfailed
    obtain ⟨v, changed⟩ := q
    have hremarked (r : Remark) : (v.remark r).background = w.background :=
      (v.background_remark r).trans hfailed
    cases changed with
    | true => exact .inl (spawnings_of_background (x := .next _ _) (hremarked _))
    | false => exact .inl (spawnings_of_background (x := .next _ _) (hremarked _))
  · next htime =>
    exact spawnsBy_spawn ⟨rfl, rfl⟩ (Bool.of_not_eq_true htime)

/-- An action spawns one job at most, and only in time. -/
theorem perform_spawnings (a : Action) (w : World) (hu : w.Unlocked) (ha : a.isWhole = true) :
    w.SpawnsBy s a (perform s a w).spawnings := by
  have same : w.SpawnsBy s a w.spawnings := .inl rfl
  cases a with
  | place | escalateTask | placed => exact same
  | pay c o => exact pay_spawnings c o w hu
  | tell c o m =>
    simp only [perform, tell]
    split
    · exact same
    · next htime =>
      exact spawnsBy_spawn ⟨rfl, rfl⟩ (Bool.of_not_eq_true htime)
  | escalate c o =>
    simp only [perform, escalate]
    split
    · exact same
    · next htime =>
      exact spawnsBy_spawn ⟨rfl, rfl⟩ (Bool.of_not_eq_true htime)
  | enqueue c t =>
    simp only [perform, enqueue]
    split
    · exact same
    · next htime =>
      repeat' split
      · exact same
      · exact spawnsBy_spawn ⟨rfl, rfl⟩ (Bool.of_not_eq_true htime)
      · exact same
  | deferPayment | settleDrain =>
    simp only [perform, deferPayment, settleDrain]
    split <;> exact same
  | drain c | dequeue c =>
    simp only [perform]
    split
    · exact spawnsBy_spawn ⟨rfl, rfl⟩ trivial
    · exact same
  | attempt j n => exact .inl (spawnings_of_background (attempt_background j n w))
  | conclude => cases ha
  | pause d =>
    simp only [perform, pause]
    cases s.sleepsPass <;> exact same
  | serve count =>
    obtain h | ⟨n, v, todo, hs, -, h⟩ := serve_cases (s := s) count w
    · rw [h]
      exact same
    · rw [h]
      exact .inl (startAt_spawnings hs)
  | finish j =>
    simp only [perform, finished]
    cases s.dispatch <;> exact same

theorem Run.unwind_spawnings (w : World) (agenda : List Action) :
    (Run.unwind s w agenda).world.spawnings = w.spawnings := by
  induction agenda with
  | nil => rfl
  | cons a agenda ih =>
    cases a with
    | finish j =>
      simp only [unwind, panicked]
      cases s.dispatch <;> rfl
    | placed o => rfl
    | _ => exact ih

theorem Run.step_spawnings (w : World) (a : Action) (rest : List Action) (hu : w.Unlocked)
    (ha : a.isWhole = true) :
    w.SpawnsBy s a (Run.step s { world := w, agenda := a :: rest }).world.spawnings := by
  have hperform := perform_spawnings (s := s) a w hu ha
  rw [Run.step_cons]
  cases hp : perform s a w with
  | next v todo | stuck v =>
    rw [hp] at hperform
    exact hperform
  | panic v =>
    rw [hp] at hperform
    simp only [Run.unwind_spawnings]
    exact hperform

end Actions

/-! ## Orders whose time is over -/

/-- The time for every stage of the order is over. -/
structure World.Spent (s : Setup) (w : World) (o : OrderRef) : Prop where
  payment : w.budgetExceeded o s.config.limits.payment = true
  message : w.budgetExceeded o s.config.limits.message = true
  employee : w.budgetExceeded o s.config.limits.employee = true
  queue : w.budgetExceeded o s.config.limits.queue = true

/-- A look at the queue, or a removal from it. -/
def Job.Tends (j : Job) : Prop := j.name = "queue-drain" ∨ j.name = "queue-dequeue"

section Spent
variable {s : Setup} {w : World} {a : Action}

theorem World.Evolves.spent {v : World} (h : w.Evolves s v) (hclock : w.clock ≤ World.lastClock)
    {o : OrderRef} (hw : w.Spent s o) : v.Spent s o :=
  ⟨h.budgetExceeded hclock o _ hw.payment, h.budgetExceeded hclock o _ hw.message,
    h.budgetExceeded hclock o _ hw.employee, h.budgetExceeded hclock o _ hw.queue⟩

/-- What an action spawns for an order whose time is over, or for none, tends to the queue. -/
theorem Action.tends_of_spent (hspent : ∀ x, a.topic? = some x → w.Spent s x.order) {j : Job}
    (hj : a.Spawns j) (htime : a.InTime s w) : j.Tends := by
  have late {b : Span} {o : OrderRef} (hlate : w.budgetExceeded o b = true)
      (hearly : w.budgetExceeded o b = false) : j.Tends := by
    rw [hlate] at hearly
    cases hearly
  have hwork := hj.work
  cases a with
  | pay c o => exact late (hspent _ rfl).payment htime
  | tell c o m => exact late (hspent _ rfl).message htime
  | escalate c o => exact late (hspent _ rfl).employee htime
  | enqueue c t => exact late (hspent _ rfl).queue htime
  | drain c =>
    have hdrain : j.work = .drain := (Option.some.inj hwork).symm
    exact .inl (by rw [Job.name, hdrain]; rfl)
  | dequeue c =>
    have hdequeue : j.work = .dequeue := (Option.some.inj hwork).symm
    exact .inr (by rw [Job.name, hdequeue]; rfl)
  | _ => cases hwork

/-- What a coordinator can be asked to do, and what it does for that itself. -/
def Action.isCall : Action → Bool
  | .place _ _ => true
  | .pay _ _ => true
  | .tell _ _ _ => true
  | .escalate _ _ => true
  | .enqueue _ _ => true
  | .deferPayment _ _ => true
  | .escalateTask _ _ _ => true
  | .attempt ⟨_, .shipping _⟩ _ => true
  | _ => false

/-- Every order is as it was but for its notice, unless its pending payment fails. -/
def World.Settles (w : World) (a : Action) (v : World) : Prop :=
  ∀ o, (v.order o).bare = (w.order o).bare ∨
    ∃ c, a = .pay c o ∧ (w.order o).payment = .trying ∧
      (v.order o).bare = { (w.order o).bare with payment := .notDone }

theorem World.settles_of_books {b : Books} {v : World} (hv : v.books = b)
    (hb : ∀ o, (b.order o).bare = (w.order o).bare) : w.Settles a v := by
  intro o
  have ho : v.order o = b.order o := congrArg (fun b : Books => b.order o) hv
  rw [ho]
  exact .inl (hb o)

/-- A call changes no flag of an order, except that it fails the pending payment of one whose time is
over. -/
theorem Effect.settles_of_call {v : World} {todo : List Action} (h : Effect s w a v todo)
    (ha : a.isCall = true) : w.Settles a v := by
  cases h with
  | idle _ _ _ _ hv => exact World.settles_of_books hv fun _ => rfl
  | expired c p _ hp ht hv =>
    intro o
    have ho : v.order o = (w.books.pay p .notDone).order o :=
      congrArg (fun b : Books => b.order o) hv
    rw [ho, Books.pay, Books.order_change]
    split
    · next hop =>
      obtain ⟨rfl, -⟩ := hop
      exact .inr ⟨c, rfl, hp, rfl⟩
    · exact .inl rfl
  | crashed j n r _ hr hp hv => exact World.settles_of_books hv fun _ => rfl
  | succeeded c work n _ _ hs =>
    cases hs with
    | shipped o r _ hv => exact World.settles_of_books hv fun _ => rfl
    | _ => cases ha
  | failed c work n f _ _ hf hs =>
    cases hs with
    | turnedAway o _ _ _ _ hv => exact World.settles_of_books hv fun p => w.books.bare_note o p _
    | notPlaced o _ _ hv => exact World.settles_of_books hv fun p => w.books.bare_note o p _
    | unseen _ _ _ hw hv => exact World.settles_of_books hv fun _ => rfl
    | _ => cases ha
  | _ => next hv => exact World.settles_of_books hv fun _ => rfl

/-- An attempt to ship leads to the payment or to an employee, or to another attempt to ship. -/
theorem shipping_leads {v : World} {todo : List Action} {c : CoordinatorRef} {o : OrderRef}
    {n : UInt32} (h : Effect s w (.attempt ⟨c, .shipping o⟩ n) v todo) :
    v.pending = w.pending ∧ ∀ b ∈ todo, b.isCall = true ∨ b.isMinor = true := by
  have hpending : v.pending = w.pending := by
    obtain hp | ⟨j, hj, -⟩ := System.pending_of_effect h
    · exact hp
    · cases hj.work
  refine ⟨hpending, ?_⟩
  cases h with
  | idle _ _ hidle => cases hidle
  | waiting | lost | passed | crashed => exact List.forall_mem_nil _
  | started j _ hj => cases hj.work
  | again j n m d f _ hf hv =>
    exact List.forall_mem_cons.mpr ⟨.inr rfl, List.forall_mem_singleton.mpr (.inl rfl)⟩
  | unneeded j n _ hn hv => cases hn
  | succeeded c work n _ _ hs =>
    cases hs with
    | shipped => exact List.forall_mem_singleton.mpr (.inl rfl)
  | failed c work n f _ _ hf hs =>
    cases hs with
    | turnedAway => exact List.forall_mem_singleton.mpr (.inl rfl)
    | notPlaced | unseen => exact List.forall_mem_nil _

/-- For an order whose time is over a call starts no job, and leads to calls only. -/
theorem call_of_spent (hu : w.Unlocked) (hw : w.Whole s) (ha : a.isCall = true)
    (hspent : ∀ x, a.topic? = some x → w.Spent s x.order) :
    (perform s a w).Meets fun v todo =>
      v.pending = w.pending ∧ ∀ b ∈ todo, b.isCall = true ∨ b.isMinor = true := by
  have one {d : Action} (hd : d.isCall = true) : ∀ b ∈ [d], b.isCall = true ∨ b.isMinor = true :=
    List.forall_mem_singleton.mpr (.inl hd)
  cases a with
  | place c o =>
    exact ⟨rfl, List.forall_mem_cons.mpr ⟨.inl rfl, List.forall_mem_singleton.mpr (.inr rfl)⟩⟩
  | pay c o =>
    simp only [perform, pay, (hspent _ rfl).payment, if_true, failPayment_eq s o w hu]
    have hpending : (failPending o w).1.pending = w.pending := by
      simp only [failPending]
      split <;> rfl
    generalize failPending o w = q at hpending
    obtain ⟨v, changed⟩ := q
    cases changed with
    | true => exact ⟨hpending, one rfl⟩
    | false => exact ⟨hpending, List.forall_mem_nil _⟩
  | tell c o m =>
    simp only [perform, tell, (hspent _ rfl).message, if_true]
    exact ⟨rfl, List.forall_mem_nil _⟩
  | escalate c o =>
    simp only [perform, escalate, (hspent _ rfl).employee, if_true]
    exact ⟨rfl, List.forall_mem_nil _⟩
  | enqueue c t =>
    have hqueue : w.budgetExceeded t.order s.config.limits.queue = true := (hspent _ rfl).queue
    simp only [perform, enqueue, hqueue, if_true]
    exact ⟨rfl, List.forall_mem_nil _⟩
  | deferPayment c o =>
    simp only [perform, deferPayment, (hspent _ rfl).payment, Bool.not_true, Bool.and_false,
      Bool.false_eq_true, if_false]
    exact ⟨rfl, List.forall_mem_nil _⟩
  | escalateTask c t f => exact ⟨rfl, one rfl⟩
  | attempt j n =>
    obtain ⟨c, work⟩ := j
    cases work with
    | shipping o =>
      exact (attempt_effect ⟨c, .shipping o⟩ n w hu hw).mono fun v todo he => shipping_leads he
    | _ => cases ha
  | _ => cases ha

end Spent

/-! ## Histories -/

namespace System
variable {s : Setup} {σ τ : System}

/-- What a move spawns is spawned in time by an action that was outstanding. -/
theorem Orderly.spawnings (hσ : σ.Orderly s) {m : Move} (hτ : σ.move? s m = some τ) :
    τ.world.spawnings = σ.world.spawnings ∨ ∃ a ∈ σ.outstanding, ∃ j, a.Spawns j ∧
      a.InTime s σ.world ∧ τ.world.spawnings = j :: σ.world.spawnings := by
  cases m with
  | act i =>
    obtain ⟨agenda, hi, rfl⟩ := act?_eq_some hτ
    have hthread := hσ.thread hi
    cases agenda with
    | nil => exact .inl rfl
    | cons a rest =>
      have hmem : a ∈ σ.outstanding := mem_outstanding.mpr (.inl (List.mem_flatten.mpr
        ⟨a :: rest, List.mem_of_getElem? hi, List.mem_cons_self ..⟩))
      obtain hsame | ⟨j, hj, htime, hone⟩ := Run.step_spawnings (s := s) σ.world a rest
        hσ.unlocked (bracketed_head hthread.agenda)
      · exact .inl hsame
      · exact .inr ⟨a, hmem, j, hj, htime, hone⟩
  | start i =>
    obtain ⟨w, todo, hs, rfl⟩ := start?_eq_some hτ
    exact .inl (startAt_spawnings hs)
  | ask | pass | fault | reply =>
    cases hτ
    exact .inl rfl

/-- The time for every stage of every order that is there is over. -/
def Spent (s : Setup) (σ : System) : Prop := ∀ o < σ.world.orders.length, σ.world.Spent s o

/-- Everything that is outstanding is about an order whose time is over. -/
theorem Known.spent (hk : σ.Known) (hspent : σ.Spent s) {a : Action} (ha : a ∈ σ.outstanding) :
    ∀ x, a.topic? = some x → σ.world.Spent s x.order :=
  fun x hx => hspent _ (hk.topics x (.inl ⟨a, ha, hx⟩))

/-- An orderly system in which the time of every order is over, and what was spawned since some
moment tends to the queue. -/
structure WindsDown (s : Setup) (spawned : List Job) (σ : System) : Prop where
  orderly : σ.Orderly s
  known : σ.Known
  spent : σ.Spent s
  tends : ∃ js, σ.world.spawnings = js ++ spawned ∧ ∀ j ∈ js, j.Tends

theorem WindsDown.move {spawned : List Job} {m : Move} (hσ : σ.WindsDown s spawned)
    (hw : m.Whole s) (hτ : σ.happen? s (.move m) = some τ) : τ.WindsDown s spawned := by
  have hmove : σ.move? s m = some τ := by
    cases happens_of_some hτ with
    | moved _ _ hm => exact hm
  obtain ⟨hevolves, horderly⟩ := hσ.orderly.move hw hmove
  refine ⟨horderly, hσ.known.happen (h := .move m) hσ.orderly hw hτ, fun o ho => ?_, ?_⟩
  · rw [hevolves.length hσ.orderly.clock] at ho
    exact hevolves.spent hσ.orderly.clock (hσ.spent o ho)
  · obtain ⟨js, hjs, htends⟩ := hσ.tends
    obtain hsame | ⟨a, ha, j, hj, htime, hone⟩ := hσ.orderly.spawnings hmove
    · exact ⟨js, hsame.trans hjs, htends⟩
    · have hj' : j.Tends := Action.tends_of_spent (hσ.known.spent hσ.spent ha) hj htime
      refine ⟨j :: js, ?_, List.forall_mem_cons.mpr ⟨hj', htends⟩⟩
      rw [hone, hjs, List.cons_append]

/-- From a moment at which the time of every order is over, as long as no new order comes in: all
jobs that are spawned are looks at the queue and removals from it, and no call, whoever makes it and
whatever it leads to, changes more of an order than its notice, except that a pending payment
fails. -/
theorem wind_down (s : Setup) (σ₀ σ₁ σ₂ : System) (before : List Happening) (after : List Move)
    (h₀ : σ₀.Orderly s) (hk : σ₀.Known)
    (hwhole : ∀ h ∈ before ++ after.map .move, h.Whole s) (h₁ : after? s before σ₀ = some σ₁)
    (hspent : σ₁.Spent s) (h₂ : after? s (after.map .move) σ₁ = some σ₂) :
    (∃ recent, σ₂.world.journal = recent ++ σ₁.world.journal ∧
      ∀ j, Event.spawned j ∈ recent → j.name = "queue-drain" ∨ j.name = "queue-dequeue") ∧
    ∀ a : Action, a.isCall = true → (∀ x, a.topic? = some x → x.order < σ₂.world.orders.length) →
      (perform s a σ₂.world).Meets fun v todo => σ₂.world.Settles a v ∧
        v.pending = σ₂.world.pending ∧ ∀ b ∈ todo, b.isCall = true ∨ b.isMinor = true := by
  have hbefore : ∀ h ∈ before, h.Whole s := fun h hm => hwhole h (List.mem_append_left _ hm)
  have hafter : ∀ h ∈ after.map Happening.move, h.Whole s :=
    fun h hm => hwhole h (List.mem_append_right _ hm)
  obtain ⟨ho₁, hk₁⟩ := after?_induct (P := fun υ => υ.Orderly s ∧ υ.Known)
    (fun h hm υ ω hω hυ => ⟨hυ.1.happen (hbefore h hm) hω, hυ.2.happen hυ.1 (hbefore h hm) hω⟩) h₁
    ⟨h₀, hk⟩
  have hstart : σ₁.WindsDown s σ₁.world.spawnings :=
    ⟨ho₁, hk₁, hspent, [], rfl, fun j hj => absurd hj List.not_mem_nil⟩
  obtain ⟨hdown, recent, hjournal⟩ := after?_induct
    (P := fun υ => υ.WindsDown s σ₁.world.spawnings ∧ σ₁.world.journal <:+ υ.world.journal)
    (fun h hm υ ω hω hυ => by
      obtain ⟨m, -, rfl⟩ := List.mem_map.mp hm
      exact ⟨hυ.1.move (hafter _ hm) hω, hυ.2.trans (happen_journal hω)⟩) h₂
    ⟨hstart, List.suffix_rfl⟩
  refine ⟨⟨recent, hjournal.symm, fun j hj => ?_⟩, fun a ha hknown => ?_⟩
  · obtain ⟨js, hjs, htends⟩ := hdown.tends
    -- The jobs spawned since are those on record in the new part of the journal.
    have hsplit : σ₂.world.spawnings = recent.filterMap Event.spawned? ++ σ₁.world.spawnings := by
      rw [World.spawnings, ← hjournal, List.filterMap_append, World.spawnings]
    have hrecent : recent.filterMap Event.spawned? = js :=
      List.append_cancel_right (hsplit.symm.trans hjs)
    exact htends j (hrecent ▸ List.mem_filterMap.mpr ⟨_, hj, rfl⟩)
  · have hcall := call_of_spent hdown.orderly.unlocked hdown.orderly.replies ha
      fun x hx => hdown.spent _ (hknown x hx)
    have hwhole' : a.isWhole = true := by cases a <;> first | rfl | cases ha
    have hserve : ∀ count, a ≠ .serve count := by
      rintro count rfl
      cases ha
    have heffect := perform_effect a σ₂.world hdown.orderly.unlocked hdown.orderly.replies hwhole'
      hserve
    cases hp : perform s a σ₂.world with
    | next v todo | panic v =>
      rw [hp] at hcall heffect
      exact ⟨Effect.settles_of_call heffect ha, hcall⟩
    | stuck v =>
      rw [hp] at hcall
      exact hcall

/-- An order is shipped and a job for its payment spawned, and then its time goes by. -/
def leftUnpaid : List Happening :=
  .order 0 ⟨"Jim", "ABCD"⟩ "book" 10 ::
    [.act 0, .act 0, .act 0, .act 0, .pass 1000000000000000].map .move

/-- The payment is asked for once more and put off, and the job runs. -/
def askedLate : List Move :=
  [.ask (.pay 0 0), .act 1, .act 1, .ask (.enqueue 0 (.payment 0)), .act 2, .start 0, .act 3, .act 3]

theorem leftUnpaid_winds_down :
    ∃ σ₁ σ₂, after? {} leftUnpaid newShop = some σ₁ ∧
      after? {} (askedLate.map .move) σ₁ = some σ₂ ∧
      σ₁.world.spawnings = [⟨0, .payment 0⟩] ∧ (σ₁.world.order 0).payment = .trying ∧
      (σ₂.world.order 0).payment = .notDone ∧ σ₂.Idle ∧
      (∃ recent, σ₂.world.journal = recent ++ σ₁.world.journal ∧
        ∀ j, Event.spawned j ∈ recent → j.name = "queue-drain" ∨ j.name = "queue-dequeue") ∧
      (perform {} (.escalate 0 0) σ₂.world).Meets fun v todo =>
        σ₂.world.Settles (.escalate 0 0) v ∧ v.pending = σ₂.world.pending ∧
          ∀ b ∈ todo, b.isCall = true ∨ b.isMinor = true := by
  refine ⟨_, _, rfl, rfl, rfl, rfl, rfl, ⟨rfl, by decide⟩, ?_⟩
  have h := wind_down {} newShop _ _ leftUnpaid askedLate (newShop_orderly {})
    (known_of_nothing rfl rfl rfl)
    (by simp [leftUnpaid, askedLate, Happening.Whole, Move.Whole]) rfl
    (fun o ho => by
      obtain rfl : o = 0 := Nat.lt_one_iff.mp ho
      exact ⟨rfl, rfl, rfl, rfl⟩) rfl
  refine ⟨h.1, h.2 (.escalate 0 0) rfl fun x hx => ?_⟩
  cases hx
  exact Nat.zero_lt_one

end System
end Fulfilment
