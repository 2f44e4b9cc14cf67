import Fulfilment.Proofs.History.Basic
import Fulfilment.Proofs.Inline.Convergence
import Fulfilment.Proofs.Inline.Stake

/-! Whatever a coordinator is asked to do comes to an end, if jobs run on the spot: the failures
that are left and the time that tasks may still stay in play pay for all steps that a run can take.

* `Run.outlook`: a number of steps after which a run is over.
* `Run.Pays`: after some steps the run has fewer before it by at least as many.
* `System.inline_request_returns`: in every state that can be reached, every request returns. -/
namespace Fulfilment

set_option autoImplicit false

/-- How long a task may stay in play. -/
abbrev Setup.limit (s : Setup) : Span := s.config.limits.queueTask

namespace Run

/-- If the run is about to sleep, the clock moves by exactly that time. -/
def onTime (s : Setup) (r : Run) : Bool :=
  match r.agenda with
  | .pause d :: _ => (r.step s).world.clock == r.world.clock + d
  | _ => true

/-- The run is over after so many steps. -/
def outlook (s : Setup) (r : Run) : Nat :=
  r.world.stock.reserve s.limit + weigh s.limit r.agenda

/-- A run on the spot, with a clock that keeps the time. -/
structure Direct (s : Setup) (r : Run) : Prop where
  world : r.world.Plain
  agenda : r.agenda.all (·.isPlain) = true
  free : r.stuck = false
  time : ∀ k, (r.drive s k).onTime s = true

def Pays (s : Setup) (r : Run) (total : Nat) : Prop := ∃ k, (r.drive s k).outlook s + k ≤ total

section Steps
variable {s : Setup} {r : Run}

theorem Pays.now {total : Nat} (h : r.outlook s ≤ total) : r.Pays s total := ⟨0, h⟩

theorem Pays.later {total : Nat} (hover : r.isOver = false) (h : (r.step s).Pays s total) :
    r.Pays s (total + 1) := by
  obtain ⟨k, hk⟩ := h
  refine ⟨k + 1, ?_⟩
  rw [drive_succ hover]
  exact Nat.succ_le_succ hk

variable {w v : World} {a : Action} {rest todo : List Action}

theorem isOver_cons : isOver { world := w, agenda := a :: rest } = false := rfl

theorem Direct.plain_head (h : Direct s { world := w, agenda := a :: rest }) :
    a.isPlain = true ∧ rest.all (·.isPlain) = true := by
  have hall := h.agenda
  simp only [List.all_cons, Bool.and_eq_true] at hall
  exact hall

theorem Direct.performed (h : Direct s { world := w, agenda := a :: rest })
    (hp : perform s a w = .next v todo) (hplain : todo.all (·.isPlain) = true) :
    step s { world := w, agenda := a :: rest } = { world := v, agenda := todo ++ rest } ∧
      Direct s { world := v, agenda := todo ++ rest } := by
  obtain ⟨ha, hrest⟩ := h.plain_head
  have hstep : step s { world := w, agenda := a :: rest } =
      { world := v, agenda := todo ++ rest } := by
    rw [step_cons, hp]
  refine ⟨hstep, h.world.changes (h.world.performed ha hp), ?_, rfl, fun k => ?_⟩
  · simp only [List.all_append, hplain, hrest, Bool.and_self]
  · rw [← hstep, ← drive_succ isOver_cons]
    exact h.time (k + 1)

/-- What a step leaves before the run, it has before it with one step more. -/
theorem Direct.pays (h : Direct s { world := w, agenda := a :: rest })
    (hp : perform s a w = .next v todo) (hplain : todo.all (·.isPlain) = true) {total : Nat}
    (hpays : Pays s { world := v, agenda := todo ++ rest } total) :
    Pays s { world := w, agenda := a :: rest } (total + 1) := by
  refine .later isOver_cons ?_
  rw [(h.performed hp hplain).1]
  exact hpays

theorem Direct.pays_of_yields (h : Direct s { world := w, agenda := a :: rest }) {st : Stock}
    {b : Nat} (hy : (perform s a w).Yields s.limit st b) :
    Pays s { world := w, agenda := a :: rest }
      (st.reserve s.limit + b + weigh s.limit rest + 1) := by
  obtain ⟨v, todo, hp, rfl, hplain, hb⟩ := hy.next
  refine h.pays hp hplain (.now ?_)
  simp only [outlook, weigh_append]
  omega

end Steps

/-! ## The drain loop -/

section Rounds
variable {s : Setup} {w : World} {c : CoordinatorRef} {rest : List Action}

/-- A removal takes the stake of a task, or a failure pays for it. -/
theorem Direct.removes (hs : s.dispatch = .inline) (hstore : s.hasStore = true) {t : Task}
    {tasks : List Task} (hne : w.collaborators.store = t :: tasks)
    (h : Direct s { world := w, agenda := .dequeue c :: rest }) :
    ∃ total, Pays s { world := w, agenda := .dequeue c :: rest } total ∧
      total + 8 ≤ w.stock.reserve s.limit + weigh s.limit rest := by
  obtain ⟨v, hv, hstock⟩ := spawn_starts hs h.world ⟨c, .dequeue⟩
  have hp : perform s (.dequeue c) w =
      .next v [.attempt ⟨c, .dequeue⟩ 0, .finish ⟨c, .dequeue⟩] := by
    simp only [perform, hstore, if_true, hv]
  have hd : Direct s
      { world := v, agenda := .attempt ⟨c, .dequeue⟩ 0 :: .finish ⟨c, .dequeue⟩ :: rest } :=
    (h.performed hp rfl).2
  have hvs : v.stock.store = t :: tasks := (congrArg Stock.store hstock).trans hne
  rw [← hstock]
  cases hf : v.faults.get (Work.service .dequeue) with
  | cons f more =>
    have hmet := attempt_met (s := s) s.limit (j := ⟨c, .dequeue⟩) 0 hd.world hf
    have hreserve := Stock.reserve_fault s.limit v.stock hf
    refine ⟨_, h.pays hp rfl (hd.pays_of_yields hmet), ?_⟩
    simp only [weigh_cons, Action.weight, Work.weight]
    omega
  | nil =>
    obtain ⟨hnil, -⟩ | ⟨u, more, hcons, htaken⟩ :=
      removal_cases (s := s) s.limit c 0 hd.world hf
    · rw [World.stock, hnil] at hvs
      cases hvs
    · have hreserve := v.stock.reserve_take s.limit hcons (v.queued.modify c (· - 1))
      refine ⟨_, h.pays hp rfl (hd.pays_of_yields htaken), ?_⟩
      simp only [weigh_cons, Action.weight]
      omega

/-- The head of the queue was visited before, and its time is not over. -/
def Live (s : Setup) (w : World) : Prop :=
  ∃ t tasks first, w.collaborators.store = t :: tasks ∧ t.firstAttempt = some first ∧
    w.now.since first < s.limit

/-- A visit takes eleven from the stake of the head of the queue, unless the head is live: this is
its first visit, or its time is over and it is removed. -/
theorem Direct.visits (hs : s.dispatch = .inline) (hstore : s.hasStore = true) {n : UInt32}
    (hf : w.faults.get (Work.service .drain) = []) (hc : w.queuedItems c ≠ 0)
    (h : Direct s { world := w, agenda := .attempt ⟨c, .drain⟩ n :: rest }) :
    ∃ total, Pays s { world := w, agenda := .attempt ⟨c, .drain⟩ n :: rest } total ∧
      (total ≤ w.stock.reserve s.limit + weigh s.limit rest + 12 ∧ Live s w ∨
        total ≤ w.stock.reserve s.limit + weigh s.limit rest + 1) := by
  obtain hempty | ⟨t, tasks, hcons, v, b, hlook, hstock, hplain, hb, hover⟩ :=
    look_cases (s := s) (w := w) s.limit c n h.world hf hc
  · refine ⟨_, h.pays_of_yields hempty, .inr ?_⟩
    omega
  have hplains : [b, .settleDrain c].all (·.isPlain) = true := by
    simp only [List.all_cons, hplain]
    rfl
  have hd : Direct s { world := v, agenda := b :: .settleDrain c :: rest } :=
    (h.performed hlook hplains).2
  have hleft : outlook s { world := v, agenda := b :: .settleDrain c :: rest } ≤
      v.stock.reserve s.limit + weigh s.limit rest + 11 := by
    have hsettle : (Action.settleDrain c).weight s.limit = 5 := rfl
    simp only [outlook, weigh_cons, hsettle]
    omega
  have pays {total : Nat}
      (hpays : Pays s { world := v, agenda := b :: .settleDrain c :: rest } total) :
      Pays s { world := w, agenda := .attempt ⟨c, .drain⟩ n :: rest } (total + 1) :=
    h.pays hlook hplains hpays
  cases hfirst : t.firstAttempt with
  | none =>
    have hreserve : v.stock.reserve s.limit + 11 = w.stock.reserve s.limit := by
      rw [hstock]
      exact w.stock.reserve_first s.limit hcons hfirst w.queued
    refine ⟨_, pays (.now hleft), .inr ?_⟩
    omega
  | some first =>
    have hreserve : v.stock.reserve s.limit ≤ w.stock.reserve s.limit := by
      rw [hstock]
      exact w.stock.reserve_visit s.limit hcons w.queued
    by_cases hlive : w.now.since first < s.limit
    · refine ⟨_, pays (.now hleft), .inl ⟨?_, t, tasks, first, hcons, hfirst, hlive⟩⟩
      omega
    · have hdead : b = .dequeue c := by
        refine hover ?_
        rw [Task.firstVisit, hfirst]
        exact Nat.not_lt.mp hlive
      subst hdead
      have hvs : v.collaborators.store = t.markFirstAttempt w.now :: tasks :=
        congrArg Stock.store hstock
      obtain ⟨total, htotal, hle⟩ := hd.removes hs hstore hvs
      refine ⟨_, pays htotal, .inr ?_⟩
      simp only [weigh_cons, Action.weight] at hle
      omega

/-- A look at the queue pays for itself, unless the head of the queue is live. -/
theorem Direct.looks (hs : s.dispatch = .inline) (hc : w.queuedItems c ≠ 0)
    (h : Direct s { world := w, agenda := .drain c :: rest }) :
    ∃ total, Pays s { world := w, agenda := .drain c :: rest } total ∧
      (total ≤ w.stock.reserve s.limit + weigh s.limit rest + 14 ∧ Live s w ∨
        total ≤ w.stock.reserve s.limit + weigh s.limit rest + 3) := by
  cases hstore : s.hasStore with
  | false =>
    have hp : perform s (.drain c) w = .next w [] := by
      simp only [perform, hstore, Bool.false_eq_true, if_false]
    refine ⟨_, h.pays hp rfl (.now (Nat.le_refl _)), .inr ?_⟩
    simp only [outlook, List.nil_append]
    omega
  | true =>
    obtain ⟨v, hv, hstock⟩ := spawn_starts hs h.world ⟨c, .drain⟩
    have hp : perform s (.drain c) w =
        .next v [.attempt ⟨c, .drain⟩ 0, .finish ⟨c, .drain⟩] := by
      simp only [perform, hstore, if_true, hv]
    have hd : Direct s
        { world := v, agenda := .attempt ⟨c, .drain⟩ 0 :: .finish ⟨c, .drain⟩ :: rest } :=
      (h.performed hp rfl).2
    rw [← hstock]
    cases hf : v.faults.get (Work.service .drain) with
    | cons f more =>
      have hmet := attempt_met (s := s) s.limit (j := ⟨c, .drain⟩) 0 hd.world hf
      have hreserve := Stock.reserve_fault s.limit v.stock hf
      refine ⟨_, h.pays hp rfl (hd.pays_of_yields hmet), .inr ?_⟩
      simp only [weigh_cons, Action.weight, Work.weight]
      omega
    | nil =>
      have hcount : v.queuedItems c ≠ 0 := by
        have hqueued : v.queued = w.queued := congrArg Stock.queued hstock
        rw [World.queuedItems, hqueued]
        exact hc
      obtain ⟨total, htotal, hle⟩ := hd.visits hs hstore hf hcount
      refine ⟨_, h.pays hp rfl htotal, ?_⟩
      simp only [weigh_cons, Action.weight] at hle
      obtain ⟨hle, t, tasks, first, hcons, hfirst, hlive⟩ | hle := hle
      · refine .inl ⟨by omega, t, tasks, first, ?_, hfirst, ?_⟩
        · exact (congrArg Stock.store hstock).symm.trans hcons
        · have hclock : v.clock = w.clock := congrArg Stock.clock hstock
          rw [World.now, ← hclock]
          exact hlive
      · exact .inr (by omega)

/-- One round of the drain loop pays for itself. -/
theorem Direct.round (hs : s.dispatch = .inline) (ht : s.limit = 0 ∨ 3 ≤ s.limit)
    (hc : w.queuedItems c ≠ 0)
    (h : Direct s { world := w, agenda := .settleDrain c :: rest }) :
    ∃ total, Pays s
      { world := w, agenda := .pause s.config.limits.drainInterval :: .drain c :: rest } total ∧
      total + 1 ≤ outlook s { world := w, agenda := .settleDrain c :: rest } := by
  have hp : perform s (.settleDrain c) w =
      .next w [.pause s.config.limits.drainInterval, .drain c] := by
    simp only [perform, settleDrain, hc, if_false]
  have hd : Direct s
      { world := w, agenda := .pause s.config.limits.drainInterval :: .drain c :: rest } :=
    (h.performed hp rfl).2
  obtain ⟨v, hv, hstock, hforward⟩ := pause_passes hs h.world s.config.limits.drainInterval
  have hd' : Direct s { world := v, agenda := .drain c :: rest } := (hd.performed hv rfl).2
  have hcount : v.queuedItems c ≠ 0 := by
    have hqueued : v.queued = w.queued := congrArg Stock.queued hstock
    rw [World.queuedItems, hqueued]
    exact hc
  have htime : v.clock = w.clock + s.config.limits.drainInterval := by
    have h0 := hd.time 0
    simp only [drive, onTime, (hd.performed hv rfl).1, beq_iff_eq] at h0
    exact h0
  obtain ⟨total, htotal, hle⟩ := hd'.looks hs hcount
  refine ⟨_, hd.pays hv rfl htotal, ?_⟩
  simp only [outlook, weigh_cons, Action.weight]
  obtain ⟨hle, t, tasks, first, hcons, hfirst, hlive⟩ | hle := hle
  · -- The head is still in play after the pause, so all of the pause was taken from its time.
    have hpause : 0 < s.config.limits.drainInterval := by
      obtain hzero | hlong := ht
      · rw [hzero] at hlive
        exact absurd hlive (Nat.not_lt_zero _)
      · exact Nat.div_pos hlong (by decide)
    have hwstore : w.stock.store = t :: tasks := (congrArg Stock.store hstock).symm.trans hcons
    have hreserve : v.stock.reserve s.limit + 11 ≤ w.stock.reserve s.limit := by
      rw [World.now, htime] at hlive
      rw [hstock, htime]
      exact w.stock.reserve_pause s.limit hwstore hfirst hpause hlive
    omega
  · have hreserve : v.stock.reserve s.limit ≤ w.stock.reserve s.limit := by
      rw [hstock]
      exact w.stock.reserve_later s.limit hforward
    omega

end Rounds

/-! ## Whole runs -/

section Runs
variable {s : Setup} {r : Run}

/-- A step leads to a run that is on the spot as well, and pays for all that it leaves to do. -/
theorem Direct.step (hs : s.dispatch = .inline) (ht : s.limit = 0 ∨ 3 ≤ s.limit)
    (h : r.Direct s) (hover : r.isOver = false) :
    (r.step s).Direct s ∧ ∃ total, (r.step s).Pays s total ∧ total < r.outlook s := by
  obtain ⟨w, agenda, stuck⟩ := r
  cases h.free
  cases agenda with
  | nil => cases hover
  | cons a rest =>
    by_cases hsettle : ∃ c, a = .settleDrain c
    · obtain ⟨c, rfl⟩ := hsettle
      by_cases hc : w.queuedItems c = 0
      · have hp : perform s (.settleDrain c) w = .next (w.remark .drained) [] := by
          simp only [perform, settleDrain, hc, if_true]
        obtain ⟨hstep, hd⟩ := h.performed hp rfl
        rw [hstep]
        refine ⟨hd, _, .now (Nat.le_refl _), ?_⟩
        simp only [outlook, List.nil_append, weigh_cons, World.stock_remark, Action.weight]
        omega
      · have hp : perform s (.settleDrain c) w =
            .next w [.pause s.config.limits.drainInterval, .drain c] := by
          simp only [perform, settleDrain, hc, if_false]
        obtain ⟨hstep, hd⟩ := h.performed hp rfl
        rw [hstep]
        exact ⟨hd, h.round hs ht hc⟩
    · have hne : ∀ c, a ≠ .settleDrain c := fun c hc => hsettle ⟨c, hc⟩
      obtain ⟨st, b, hy, hlt⟩ := perform_yields (w := w) s.limit hs h.world a
        h.plain_head.1 hne
      obtain ⟨v, todo, hp, rfl, hplain, hb⟩ := hy.next
      obtain ⟨hstep, hd⟩ := h.performed hp hplain
      rw [hstep]
      refine ⟨hd, _, .now (Nat.le_refl _), ?_⟩
      simp only [outlook, weigh_append, weigh_cons]
      omega

theorem Direct.drive (hs : s.dispatch = .inline) (ht : s.limit = 0 ∨ 3 ≤ s.limit)
    (h : r.Direct s) (k : Nat) : (r.drive s k).Direct s := by
  induction k generalizing r with
  | zero => exact h
  | succ k ih =>
    cases hover : r.isOver with
    | true =>
      rw [drive_of_over hover]
      exact h
    | false =>
      rw [drive_succ hover]
      exact ih (h.step hs ht hover).1

/-- A run on the spot is over after as many steps as its outlook says. -/
theorem Direct.ends (hs : s.dispatch = .inline) (ht : s.limit = 0 ∨ 3 ≤ s.limit)
    (h : r.Direct s) {n : Nat} (hn : r.outlook s ≤ n) : (r.drive s n).agenda = [] := by
  induction n using Nat.strongRecOn generalizing r with
  | _ n ih =>
    cases hover : r.isOver with
    | true =>
      rw [drive_of_over hover]
      simp only [isOver, h.free, Bool.false_or, List.isEmpty_iff] at hover
      exact hover
    | false =>
      obtain ⟨hd, total, ⟨k, hk⟩, hlt⟩ := h.step hs ht hover
      obtain ⟨m, rfl⟩ : ∃ m, n = k + 1 + m := Nat.exists_eq_add_of_le (by omega)
      rw [drive_add, drive_succ hover]
      exact ih m (by omega) (hd.drive hs ht k) (by omega)

/-! ## Clocks that keep the time -/

/-- In a run that is over within so many steps, the clock moves by exactly the time of each
sleep. -/
def keepsTime (s : Setup) : Nat → Run → Bool
  | 0, r => r.agenda.isEmpty
  | n + 1, r => r.onTime s && (r.isOver || keepsTime s n (r.step s))

theorem onTime_of_keepsTime {n : Nat} (h : keepsTime s n r = true) (k : Nat) :
    (r.drive s k).onTime s = true := by
  induction n generalizing r k with
  | zero =>
    have hnil : r.agenda = [] := List.isEmpty_iff.mp h
    have hover : r.isOver = true := by simp only [isOver, hnil, List.isEmpty_nil, Bool.or_true]
    rw [drive_of_over hover]
    simp only [onTime, hnil]
  | succ n ih =>
    simp only [keepsTime, Bool.and_eq_true, Bool.or_eq_true] at h
    obtain ⟨hnow, hlater⟩ := h
    cases hover : r.isOver with
    | true =>
      rw [drive_of_over hover]
      exact hnow
    | false =>
      cases k with
      | zero => exact hnow
      | succ k =>
        rw [drive_succ hover]
        exact ih (hlater.resolve_left (by simp [hover])) k

end Runs
end Run

/-! ## Requests -/

/-- The run of a request. -/
def Request.run (q : Request) (w : World) : Run := { world := w, agenda := [q.action] }

theorem Request.isPlain_action (q : Request) : q.action.isPlain = true := by
  cases q <;> rfl

namespace System

/-- Where no replies are scripted, none are in the end. -/
theorem Orderly.plain_after {s : Setup} {σ₀ σ₁ : System} {happenings : List Happening}
    (h₀ : σ₀.Orderly s) (hopen : σ₀.world.Open) (hreplies : σ₀.world.replies = [])
    (hstubs : ∀ k r, .move (.reply k r) ∉ happenings) (h₁ : after? s happenings σ₀ = some σ₁) :
    σ₁.world.Plain := by
  obtain ⟨ho, hopen₁, hreplies₁⟩ : σ₁.Orderly s ∧ σ₁.world.Open ∧ σ₁.world.replies = [] := by
    refine after?_induct (P := fun υ => υ.Orderly s ∧ υ.world.Open ∧ υ.world.replies = []) ?_ h₁
      ⟨h₀, hopen, hreplies⟩
    rintro h hh υ ω hω ⟨ho, hopen, hreplies⟩
    have hwhole : h.Whole s := by
      cases h with
      | order => trivial
      | move m =>
        cases m with
        | reply k r => exact absurd hh (hstubs k r)
        | _ => trivial
    refine ⟨ho.happen hwhole hω, ho.open_happen hω hopen, ?_⟩
    refine List.eq_nil_iff_forall_not_mem.mpr fun ⟨k, r⟩ hr => ?_
    obtain hbefore | rfl := ho.replies_happen hω hr
    · rw [hreplies] at hbefore
      exact absurd hbefore List.not_mem_nil
    · exact hstubs k r hh
  exact ⟨ho.clock, ho.unlocked, hreplies₁, hopen₁⟩

/-- With jobs that run on the spot and collaborators that answer for themselves or raise the
failures scripted for them, with or without a queue store, every request returns in every state that
a history can lead to, if a queued task has either no time at all or at least three nanoseconds and
each sleep of the request moves the clock by exactly its time. It takes no more steps than the
failures that are left and the time left to the queued tasks pay for. -/
theorem inline_request_returns (s : Setup) (σ₀ σ₁ : System) (happenings : List Happening)
    (q : Request) (hinline : s.dispatch = .inline)
    (hlimit : s.config.limits.queueTask = 0 ∨ 3 ≤ s.config.limits.queueTask)
    (h₀ : σ₀.Orderly s) (hopen : σ₀.world.Open) (hreplies : σ₀.world.replies = [])
    (hstubs : ∀ k r, .move (.reply k r) ∉ happenings) (h₁ : after? s happenings σ₀ = some σ₁)
    (hclock : ∀ k, ((q.run σ₁.world).drive s k).onTime s = true) :
    let returned := (q.run σ₁.world).drive s ((q.run σ₁.world).outlook s)
    returned.agenda = [] ∧ returned.stuck = false := by
  have hdirect : (q.run σ₁.world).Direct s := by
    refine ⟨h₀.plain_after hopen hreplies hstubs h₁, ?_, rfl, hclock⟩
    simp only [Request.run, List.all_cons, q.isPlain_action]
    rfl
  exact ⟨hdirect.ends hinline hlimit (Nat.le_refl _), (hdirect.drive hinline hlimit _).free⟩

/-- The queue store will fail as well. -/
def queueOutage : List Happening := [.move (.pass 7), .move (.fault .queue .databaseUnavailable)]

theorem outages_return :
    ∃ σ₁, after? Run.noRetries queueOutage ⟨Run.outages, []⟩ = some σ₁ ∧
      let placed := (Request.place 0 0).run σ₁.world
      (placed.drive Run.noRetries (placed.outlook Run.noRetries)).agenda = [] ∧
        (placed.drive Run.noRetries (placed.outlook Run.noRetries)).stuck = false := by
  refine ⟨_, rfl, ?_⟩
  refine inline_request_returns Run.noRetries ⟨Run.outages, []⟩ _ queueOutage (.place 0 0) rfl
    (.inr (by decide)) ⟨by decide, .of_forall (by decide), by simp [World.Whole, Run.outages],
      by simp⟩ ⟨rfl, rfl⟩ rfl (by simp [queueOutage]) rfl ?_
  exact Run.onTime_of_keepsTime (n := 80) rfl

end System
end Fulfilment
