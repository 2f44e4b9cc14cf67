import Fulfilment.Proofs.Pool.Accounting

/-! The threads around a pool one by one. A job is counted before it is sent, and its end is counted
after it; other threads take steps in between. Seen from the counters nothing changes: the job
comes in when it is counted, and goes when its end is.

* `PoolThreads.step?`: one step of one thread.
* `PoolThreads.run`: what the counters see.
* `PoolThreads.run_of_step`: a step of a thread is a step of the pool, or does not show.
* `PoolThreads.exists_steps_iff`: the counters see the runs of the pool and no others.
* `PoolThreads.steps_faithful`: what the pool keeps to holds under any interleaving of the threads.
* `PoolThreads.steps_working`: none of them waits for another one for ever. -/
namespace Fulfilment

set_option autoImplicit false

/-- One step of one thread. -/
inductive PoolStep (α : Type) where
  /-- A job is counted, and the channel stays locked until it is sent. -/
  | count (spawner : Option Nat) (job : α)
  | send
  | take
  /-- The `i`-th of the taken jobs ends. -/
  | endJob (i : Nat) (panicked : Bool)
  /-- The end of the `i`-th of the taken jobs is counted, and its worker is free. -/
  | countEnd (i : Nat) (panicked : Bool)
  | close

/-- What the counters see of a step. -/
def PoolStep.event? {α : Type} : PoolStep α → Option (PoolEvent α)
  | .count spawner job => some (.spawn spawner job)
  | .send => none
  | .take => some .take
  | .endJob _ _ => none
  | .countEnd i panicked => some (.finish i panicked)
  | .close => some .close

/-- What goes on without anybody from outside. -/
def PoolStep.isWork {α : Type} : PoolStep α → Bool
  | .count _ _ => false
  | .close => false
  | _ => true

/-- A pool between the steps of its threads. -/
structure PoolThreads (α : Type) where
  workers : Nat
  /-- Sent and not taken, the oldest first. -/
  channel : List (Nat × α) := []
  /-- Counted and not sent, with the number of the job that hands it in. -/
  sending : Option (Option Nat × Nat × α) := none
  /-- The taken jobs whose end is not counted, with the way in which they ended if they did. -/
  taken : List ((Nat × α) × Option Bool) := []
  closed : Bool := false
  stats : PoolStats := {}
  accepted : List (Option Nat × α) := []
  started : List Nat := []
  ended : List Nat := []

namespace PoolThreads

variable {α : Type}

/-- The numbers of the jobs that have not ended. -/
def busy (t : PoolThreads α) : List Nat :=
  (t.taken.filter (·.2.isNone)).map (·.1.1)

/-- The lock on the channel is held while a job is sent, so nobody else counts one and nobody
closes the pool; a job that hands one in goes on when it is sent. -/
def step? (t : PoolThreads α) : PoolStep α → Option (PoolThreads α)
  | .count spawner job =>
    if t.sending.isNone ∧ ∀ n ∈ spawner, n ∈ t.busy then
      some (if t.closed then { t with stats := t.stats.refused }
        else { t with
          sending := some (spawner, t.accepted.length, job)
          stats := t.stats.accepted
          accepted := t.accepted ++ [(spawner, job)] })
    else none
  | .send =>
    t.sending.map fun x => { t with channel := t.channel ++ [x.2], sending := none }
  | .take =>
    match t.channel with
    | [] => none
    | x :: rest =>
      if t.taken.length < max t.workers 1 then
        some { t with
          channel := rest, taken := t.taken ++ [(x, none)], started := t.started ++ [x.1] }
      else none
  | .endJob i panicked =>
    match t.taken[i]? with
    | some (x, none) =>
      if t.sending.all (·.1 != some x.1) then
        some { t with taken := t.taken.set i (x, some panicked) }
      else none
    | _ => none
  | .countEnd i panicked =>
    match t.taken[i]? with
    | some (x, some p) =>
      if p = panicked then
        some { t with
          taken := t.taken.eraseIdx i, stats := t.stats.ended panicked, ended := t.ended ++ [x.1] }
      else none
    | _ => none
  | .close => if t.sending.isNone then some { t with closed := true } else none

def after? : List (PoolStep α) → PoolThreads α → Option (PoolThreads α)
  | [], t => some t
  | e :: steps, t => (t.step? e).bind (after? steps)

/-- What the counters see: a job is in the queue once it is counted, and runs until its end is. -/
def run (t : PoolThreads α) : PoolRun α where
  workers := t.workers
  pool :=
    { queued := t.channel ++ t.sending.toList.map Prod.snd
      running := t.taken.map Prod.fst
      closed := t.closed
      stats := t.stats }
  accepted := t.accepted
  started := t.started
  ended := t.ended

/-! ## Steps -/

theorem mem_running_of_busy {t : PoolThreads α} {n : Nat} (h : n ∈ t.busy) :
    n ∈ PoolRun.numbers t.run.pool.running := by
  obtain ⟨x, hx, rfl⟩ := List.mem_map.mp h
  have hfirst : x.1 ∈ t.taken.map Prod.fst := List.mem_map_of_mem (List.mem_of_mem_filter hx)
  exact List.mem_map_of_mem hfirst

theorem map_set_fst {β γ : Type} {xs : List (β × γ)} {i : Nat} {x : β} {y : γ} (z : γ)
    (h : xs[i]? = some (x, y)) : (xs.set i (x, z)).map Prod.fst = xs.map Prod.fst := by
  have hfirst : (xs.map Prod.fst)[i]? = some x := by rw [List.getElem?_map, h]; rfl
  obtain ⟨hi, hx⟩ := List.getElem?_eq_some_iff.mp hfirst
  rw [List.map_set]
  conv_lhs => rw [← hx]
  exact List.set_getElem_self hi

theorem run_count {t t' : PoolThreads α} {spawner : Option Nat} {job : α}
    (h : t.step? (.count spawner job) = some t') :
    t.run.step? (.spawn spawner job) = some t'.run := by
  simp only [step?, Option.ite_none_right_eq_some, Option.some.injEq] at h
  obtain ⟨⟨hfree, hspawner⟩, rfl⟩ := h
  have hnone : t.sending = none := Option.isNone_iff_eq_none.mp hfree
  have hrunning : ∀ n ∈ spawner, n ∈ PoolRun.numbers t.run.pool.running :=
    fun n hn => mem_running_of_busy (hspawner n hn)
  rw [PoolRun.step?, if_pos hrunning]
  cases hclosed : t.closed with
  | true => simp [run, Pool.spawn, hclosed, hnone]
  | false => simp [run, Pool.spawn, hclosed, hnone]

theorem run_send {t t' : PoolThreads α} (h : t.step? .send = some t') : t'.run = t.run := by
  obtain ⟨x, hx, rfl⟩ := Option.map_eq_some_iff.mp h
  simp [run, hx]

theorem run_take {t t' : PoolThreads α} (h : t.step? .take = some t') :
    t.run.step? .take = some t'.run := by
  simp only [step?] at h
  split at h
  · cases h
  · next x rest hchannel =>
    simp only [Option.ite_none_right_eq_some, Option.some.injEq] at h
    obtain ⟨hfree, rfl⟩ := h
    have hworker : t.run.pool.running.length < max t.run.workers 1 := by
      rw [← List.length_map (f := Prod.fst)] at hfree
      exact hfree
    rw [PoolRun.step?, if_pos hworker]
    simp [run, Pool.take?, hchannel]

theorem run_endJob {t t' : PoolThreads α} {i : Nat} {panicked : Bool}
    (h : t.step? (.endJob i panicked) = some t') : t'.run = t.run := by
  simp only [step?] at h
  split at h
  · next x hx =>
    simp only [Option.ite_none_right_eq_some, Option.some.injEq] at h
    obtain ⟨-, rfl⟩ := h
    simp only [run, map_set_fst _ hx]
  · cases h

theorem run_countEnd {t t' : PoolThreads α} {i : Nat} {panicked : Bool}
    (h : t.step? (.countEnd i panicked) = some t') :
    t.run.step? (.finish i panicked) = some t'.run := by
  simp only [step?] at h
  split at h
  · next x p hx =>
    simp only [Option.ite_none_right_eq_some, Option.some.injEq] at h
    obtain ⟨rfl, rfl⟩ := h
    have hrunning : t.run.pool.running[i]? = some x := by
      simp only [run, List.getElem?_map, hx]
      rfl
    obtain ⟨hi, -⟩ := List.getElem?_eq_some_iff.mp hrunning
    rw [PoolRun.step?, hrunning, Option.bind_some, Pool.finish?, if_pos hi]
    simp only [Option.map_some, run, List.eraseIdx_map]
  · cases h

theorem run_close {t t' : PoolThreads α} (h : t.step? .close = some t') :
    t.run.step? .close = some t'.run := by
  simp only [step?, Option.ite_none_right_eq_some, Option.some.injEq] at h
  obtain ⟨-, rfl⟩ := h
  rfl

/-- A step of a thread is a step of the pool, or does not show in the counters. -/
theorem run_of_step {t t' : PoolThreads α} {e : PoolStep α} (h : t.step? e = some t') :
    PoolRun.after? e.event?.toList t.run = some t'.run := by
  have shows {e' : PoolEvent α} (hstep : t.run.step? e' = some t'.run) :
      PoolRun.after? [e'] t.run = some t'.run := by
    rw [PoolRun.after?, hstep]
    rfl
  cases e with
  | count spawner job => exact shows (run_count h)
  | send => exact congrArg some (run_send h).symm
  | take => exact shows (run_take h)
  | endJob i panicked => exact congrArg some (run_endJob h).symm
  | countEnd i panicked => exact shows (run_countEnd h)
  | close => exact shows (run_close h)

/-! ## Runs -/

theorem filterMap_event?_cons (e : PoolStep α) (steps : List (PoolStep α)) :
    (e :: steps).filterMap PoolStep.event? =
      e.event?.toList ++ steps.filterMap PoolStep.event? := by
  rw [List.filterMap_cons]
  cases e.event? with
  | none => rfl
  | some e' => rfl

theorem after?_append (steps later : List (PoolStep α)) (t : PoolThreads α) :
    t.after? (steps ++ later) = (t.after? steps).bind (after? later) := by
  induction steps generalizing t with
  | nil => rfl
  | cons e steps ih =>
    rw [List.cons_append, after?, after?, Option.bind_assoc]
    congr 1
    exact funext ih

/-- Whatever the threads do, the counters see the pool take the steps it can take. -/
theorem run_of_steps {steps : List (PoolStep α)} {t t' : PoolThreads α}
    (h : t.after? steps = some t') :
    PoolRun.after? (steps.filterMap PoolStep.event?) t.run = some t'.run := by
  induction steps generalizing t with
  | nil =>
    cases h
    rfl
  | cons e steps ih =>
    obtain ⟨u, hu, h⟩ := Option.bind_eq_some_iff.mp h
    rw [filterMap_event?_cons, PoolRun.after?_append, run_of_step hu]
    exact ih h

theorem steps_faithful (workers : Nat) {steps : List (PoolStep α)} {t : PoolThreads α}
    (h : after? steps { workers } = some t) :
    PoolRun.Faithful (steps.filterMap PoolStep.event?) t.run := by
  have hrun : PoolRun.after? (steps.filterMap PoolStep.event?) { workers } = some t.run :=
    run_of_steps h
  exact (PoolRun.accounts_of_run hrun).keep (PoolRun.rejected_of_run hrun)

/-- The lock on the channel holds nothing up: while a job waits or runs some thread can go on. -/
theorem steps_working (workers : Nat) {steps : List (PoolStep α)} {t : PoolThreads α}
    (h : after? steps { workers } = some t) (hbusy : t.run.pool.isIdle = false) :
    ∃ e, e.isWork = true ∧ (t.step? e).isSome = true := by
  have haccounts := (steps_faithful workers h).toAccounts
  have hpending : t.stats.pending ≠ 0 := of_decide_eq_false hbusy
  have hcounted : t.stats.pending =
      (t.channel ++ t.sending.toList.map Prod.snd).length + (t.taken.map Prod.fst).length :=
    haccounts.pending
  cases hsending : t.sending with
  | some x => exact ⟨.send, rfl, by rw [step?, hsending]; rfl⟩
  | none =>
    cases htaken : t.taken with
    | cons x rest =>
      obtain ⟨x, _ | panicked⟩ := x
      · exact ⟨.endJob 0 false, rfl, by simp [step?, htaken, hsending]⟩
      · exact ⟨.countEnd 0 panicked, rfl, by simp [step?, htaken]⟩
    | nil =>
      cases hchannel : t.channel with
      | cons x rest =>
        have hfree : 0 < max t.workers 1 := Nat.lt_of_lt_of_le Nat.one_pos (Nat.le_max_right ..)
        exact ⟨.take, rfl, by simp [step?, hchannel, htaken, hfree]⟩
      | nil =>
        rw [hsending, htaken, hchannel] at hcounted
        exact absurd hcounted hpending

/-! ## The pool as threads -/

/-- The threads of a pool in which nothing is half done. -/
def ofRun (s : PoolRun α) : PoolThreads α where
  workers := s.workers
  channel := s.pool.queued
  taken := s.pool.running.map fun x => (x, none)
  closed := s.pool.closed
  stats := s.pool.stats
  accepted := s.accepted
  started := s.started
  ended := s.ended

theorem run_ofRun (s : PoolRun α) : (ofRun s).run = s := by
  simp [run, ofRun, Function.comp_def]

theorem busy_ofRun (s : PoolRun α) : (ofRun s).busy = PoolRun.numbers s.pool.running := by
  simp [busy, ofRun, PoolRun.numbers, List.filter_map, Function.comp_def]

/-- A job that is handed in is sent right after it is counted. -/
theorem spawn_ofRun {s : PoolRun α} {spawner : Option Nat} (job : α)
    (hspawner : ∀ n ∈ spawner, n ∈ PoolRun.numbers s.pool.running) :
    ∃ steps, steps.filterMap PoolStep.event? = [.spawn spawner job] ∧
      (ofRun s).after? steps = some (ofRun { s with
        pool := s.pool.spawn (s.accepted.length, job)
        accepted := if s.pool.closed then s.accepted else s.accepted ++ [(spawner, job)] }) := by
  have hbusy : ∀ n ∈ spawner, n ∈ (ofRun s).busy := by
    rw [busy_ofRun]
    exact hspawner
  cases hclosed : s.pool.closed with
  | true =>
    refine ⟨[.count spawner job], rfl, ?_⟩
    rw [after?, step?, if_pos ⟨rfl, hbusy⟩]
    simp [after?, ofRun, Pool.spawn, hclosed]
  | false =>
    refine ⟨[.count spawner job, .send], rfl, ?_⟩
    rw [after?, step?, if_pos ⟨rfl, hbusy⟩]
    simp [after?, step?, ofRun, Pool.spawn, hclosed]

/-- The end of a job is counted right after it. -/
theorem finish_ofRun {s : PoolRun α} {i : Nat} {x : Nat × α} (panicked : Bool)
    (hx : s.pool.running[i]? = some x) :
    (ofRun s).after? [.endJob i panicked, .countEnd i panicked] = some (ofRun { s with
      pool := ⟨s.pool.queued, s.pool.running.eraseIdx i, s.pool.closed,
        s.pool.stats.ended panicked⟩
      ended := s.ended ++ [x.1] }) := by
  have htaken : (ofRun s).taken[i]? = some (x, none) := by
    rw [ofRun, List.getElem?_map, hx]
    rfl
  have hfirst : (ofRun s).step? (.endJob i panicked) =
      some { ofRun s with taken := (ofRun s).taken.set i (x, some panicked) } := by
    simp only [step?, htaken]
    rfl
  have hended : ((ofRun s).taken.set i (x, some panicked))[i]? = some (x, some panicked) :=
    List.getElem?_set_self (List.getElem?_eq_some_iff.mp htaken).1
  have hrest : ((ofRun s).taken.set i (x, some panicked)).eraseIdx i =
      (s.pool.running.eraseIdx i).map fun x => (x, none) := by
    rw [List.eraseIdx_set_eq, ← List.eraseIdx_map]
    rfl
  rw [after?, hfirst, Option.bind_some, after?]
  simp only [step?, hended, hrest, if_true]
  rfl

theorem exists_steps_of_step {s s' : PoolRun α} {e : PoolEvent α} (h : s.step? e = some s') :
    ∃ steps, steps.filterMap PoolStep.event? = [e] ∧ (ofRun s).after? steps = some (ofRun s') := by
  cases e with
  | spawn spawner job =>
    simp only [PoolRun.step?, Option.ite_none_right_eq_some, Option.some.injEq] at h
    obtain ⟨hspawner, rfl⟩ := h
    exact spawn_ofRun job hspawner
  | take =>
    simp only [PoolRun.step?, Option.ite_none_right_eq_some] at h
    obtain ⟨hfree, h⟩ := h
    obtain ⟨⟨x, pool⟩, htake, rfl⟩ := Option.map_eq_some_iff.mp h
    refine ⟨[.take], rfl, ?_⟩
    unfold Pool.take? at htake
    split at htake
    · cases htake
    · next rest hqueued =>
      cases htake
      simp [after?, step?, ofRun, hqueued, hfree]
  | finish i panicked =>
    cases PoolRun.turn_of_step h with
    | ended _ _ n job hrunning =>
      exact ⟨[.endJob i panicked, .countEnd i panicked], rfl, finish_ofRun panicked hrunning⟩
  | close =>
    cases h
    exact ⟨[.close], rfl, rfl⟩

theorem exists_steps {events : List (PoolEvent α)} {s s' : PoolRun α}
    (h : s.after? events = some s') :
    ∃ steps, steps.filterMap PoolStep.event? = events ∧
      (ofRun s).after? steps = some (ofRun s') := by
  induction events generalizing s with
  | nil =>
    cases h
    exact ⟨[], rfl, rfl⟩
  | cons e events ih =>
    obtain ⟨u, hu, h⟩ := Option.bind_eq_some_iff.mp h
    obtain ⟨first, hfirst, hstep⟩ := exists_steps_of_step hu
    obtain ⟨later, hlater, hsteps⟩ := ih h
    refine ⟨first ++ later, ?_, ?_⟩
    · rw [List.filterMap_append, hfirst, hlater]
      rfl
    · rw [after?_append, hstep]
      exact hsteps

/-- The counters see the runs of the pool and no others. -/
theorem exists_steps_iff (workers : Nat) (events : List (PoolEvent α)) (s : PoolRun α) :
    PoolRun.after? events { workers } = some s ↔
      ∃ steps t, steps.filterMap PoolStep.event? = events ∧ after? steps { workers } = some t ∧
        t.run = s := by
  constructor
  · intro h
    obtain ⟨steps, hevents, hsteps⟩ := exists_steps h
    exact ⟨steps, ofRun s, hevents, hsteps, run_ofRun s⟩
  · rintro ⟨steps, t, rfl, hsteps, rfl⟩
    exact run_of_steps hsteps

end PoolThreads
end Fulfilment
