import Mathlib.Data.List.Perm.Basic
import Mathlib.Data.List.Range
import Fulfilment.Pool.Basic

/-! A worker pool in any interleaving of what happens to it: its counters and its jobs.

* `PoolRun.step?`: a job is handed in from outside or by a running job, a free worker takes the
  oldest job, a job ends in a panic or not, the pool is closed.
* `PoolRun.Turn`: everything one step can do.
* `PoolRun.Accounts`: the counters agree with the jobs, and jobs start in the order in which they
  were accepted.
* `PoolRun.Faithful`: moreover only late jobs are refused, the count of jobs never falls below zero,
  and a pool that is closed runs what it accepted.
* `PoolRun.faithful`: so it is after any steps; in particular an idle pool has run every job it
  accepted. -/
namespace Fulfilment

set_option autoImplicit false

inductive PoolEvent (α : Type) where
  /-- A job is handed in, by the running job with the given number if there is one. -/
  | spawn (spawner : Option Nat) (job : α)
  | take
  /-- The `i`-th of the running jobs ends. -/
  | finish (i : Nat) (panicked : Bool)
  | close

namespace PoolEvent

variable {α : Type}

def isSpawn : PoolEvent α → Bool
  | .spawn _ _ => true
  | _ => false

def isClose : PoolEvent α → Bool
  | .close => true
  | _ => false

/-- What the workers do. -/
def isWork : PoolEvent α → Bool
  | .take => true
  | .finish _ _ => true
  | _ => false

/-- The jobs handed in after the pool was closed. -/
def late (events : List (PoolEvent α)) : Nat :=
  (events.dropWhile (!·.isClose)).countP isSpawn

end PoolEvent

/-- A pool whose jobs carry a number, the first accepted being number 0, and their history. -/
structure PoolRun (α : Type) where
  workers : Nat
  pool : Pool (Nat × α) := {}
  /-- Each accepted job, with the number of the job that handed it in. -/
  accepted : List (Option Nat × α) := []
  started : List Nat := []
  ended : List Nat := []

namespace PoolStats

variable (stats : PoolStats) (panic : Bool)

@[simp] theorem ended_spawned : (stats.ended panic).spawned = stats.spawned := by
  cases panic <;> rfl

@[simp] theorem ended_rejected : (stats.ended panic).rejected = stats.rejected := by
  cases panic <;> rfl

@[simp] theorem ended_pending : (stats.ended panic).pending = stats.pending - 1 := by
  cases panic <;> rfl

theorem ended_done : (stats.ended panic).completed + (stats.ended panic).panicked =
    stats.completed + stats.panicked + 1 := by
  cases panic with
  | false => exact Nat.add_right_comm _ _ _
  | true => rfl

end PoolStats

namespace PoolRun

variable {α : Type}

def numbers (jobs : List (Nat × α)) : List Nat := jobs.map Prod.fst

/-- A pool has one worker at least. The count of a job and its sending are one step here, and so
are its end and the count of it; `PoolThreads` takes them apart. -/
def step? (s : PoolRun α) : PoolEvent α → Option (PoolRun α)
  | .spawn spawner job =>
    if ∀ n ∈ spawner, n ∈ numbers s.pool.running then
      some { s with
        pool := s.pool.spawn (s.accepted.length, job)
        accepted := if s.pool.closed then s.accepted else s.accepted ++ [(spawner, job)] }
    else none
  | .take =>
    if s.pool.running.length < max s.workers 1 then
      s.pool.take?.map fun (job, pool) => { s with pool, started := s.started ++ [job.1] }
    else none
  | .finish i panicked =>
    s.pool.running[i]?.bind fun job =>
      (s.pool.finish? i panicked).map fun pool => { s with pool, ended := s.ended ++ [job.1] }
  | .close => some { s with pool := s.pool.close }

def after? : List (PoolEvent α) → PoolRun α → Option (PoolRun α)
  | [], s => some s
  | e :: events, s => (s.step? e).bind (after? events)

/-! ## Steps -/

/-- Everything a step can do. -/
inductive Turn (s : PoolRun α) : PoolEvent α → PoolRun α → Prop
  | accepted (spawner : Option Nat) (job : α) (hopen : s.pool.closed = false)
      (hspawner : ∀ n ∈ spawner, n ∈ numbers s.pool.running) :
      Turn s (.spawn spawner job) { s with
        pool := ⟨s.pool.queued ++ [(s.accepted.length, job)], s.pool.running, s.pool.closed,
          s.pool.stats.accepted⟩
        accepted := s.accepted ++ [(spawner, job)] }
  | refused (spawner : Option Nat) (job : α) (hclosed : s.pool.closed = true) :
      Turn s (.spawn spawner job) { s with
        pool := ⟨s.pool.queued, s.pool.running, s.pool.closed, s.pool.stats.refused⟩ }
  | taken (n : Nat) (job : α) (rest : List (Nat × α)) (hqueued : s.pool.queued = (n, job) :: rest) :
      Turn s .take { s with
        pool := ⟨rest, s.pool.running ++ [(n, job)], s.pool.closed, s.pool.stats⟩
        started := s.started ++ [n] }
  | ended (i : Nat) (panicked : Bool) (n : Nat) (job : α)
      (hrunning : s.pool.running[i]? = some (n, job)) :
      Turn s (.finish i panicked) { s with
        pool := ⟨s.pool.queued, s.pool.running.eraseIdx i, s.pool.closed,
          s.pool.stats.ended panicked⟩
        ended := s.ended ++ [n] }
  | closed : Turn s .close { s with
      pool := ⟨s.pool.queued, s.pool.running, true, s.pool.stats⟩ }

theorem turn_of_step {s s' : PoolRun α} {e : PoolEvent α} (h : s.step? e = some s') :
    Turn s e s' := by
  cases e with
  | spawn spawner job =>
    simp only [step?, Pool.spawn] at h
    split at h
    · next hspawner =>
      cases h
      cases hclosed : s.pool.closed with
      | true => simpa only [hclosed, if_true] using Turn.refused spawner job hclosed
      | false =>
        simpa only [hclosed, Bool.false_eq_true, if_false] using
          Turn.accepted spawner job hclosed hspawner
    · cases h
  | take =>
    simp only [step?] at h
    split at h
    · obtain ⟨⟨⟨n, job⟩, pool⟩, htake, rfl⟩ := Option.map_eq_some_iff.mp h
      unfold Pool.take? at htake
      split at htake
      · cases htake
      · next hqueued =>
        cases htake
        exact .taken n job _ hqueued
    · cases h
  | finish i panicked =>
    simp only [step?] at h
    obtain ⟨⟨n, job⟩, hrunning, h⟩ := Option.bind_eq_some_iff.mp h
    obtain ⟨pool, hfinish, rfl⟩ := Option.map_eq_some_iff.mp h
    unfold Pool.finish? at hfinish
    split at hfinish
    · cases hfinish
      exact .ended i panicked n job hrunning
    · cases hfinish
  | close =>
    cases h
    exact .closed

/-! ## The accounts -/

/-- The counters agree with the jobs, and the jobs with their history. -/
structure Accounts (s : PoolRun α) : Prop where
  pending : s.pool.stats.pending = s.pool.queued.length + s.pool.running.length
  spawned : s.pool.stats.spawned =
    s.pool.stats.completed + s.pool.stats.panicked + s.pool.stats.pending
  counted : s.pool.stats.spawned = s.accepted.length
  /-- Jobs start in the order in which they were accepted, each once. -/
  order : s.started ++ numbers s.pool.queued = List.range s.accepted.length
  /-- What started runs or has ended, and not both. -/
  fate : s.started.Perm (numbers s.pool.running ++ s.ended)
  done : s.ended.length = s.pool.stats.completed + s.pool.stats.panicked
  /-- A job is in the pool under the number under which it was accepted. -/
  contents : ∀ x ∈ s.pool.queued ++ s.pool.running, (s.accepted.map Prod.snd)[x.1]? = some x.2
  /-- Only a job accepted before hands another one in. -/
  descent : ∀ (n spawner : Nat), (s.accepted.map Prod.fst)[n]? = some (some spawner) → spawner < n

theorem numbers_append (xs ys : List (Nat × α)) : numbers (xs ++ ys) = numbers xs ++ numbers ys :=
  List.map_append

/-- A job that ends leaves the others running. -/
theorem numbers_eraseIdx {jobs : List (Nat × α)} {i n : Nat} {job : α}
    (h : jobs[i]? = some (n, job)) : (numbers jobs).Perm (n :: numbers (jobs.eraseIdx i)) := by
  obtain ⟨hi, hn⟩ := List.getElem?_eq_some_iff.mp h
  have hperm := (List.getElem_cons_eraseIdx_perm hi).symm.map Prod.fst
  rwa [hn] at hperm

theorem length_eraseIdx_succ {jobs : List (Nat × α)} {i n : Nat} {job : α}
    (h : jobs[i]? = some (n, job)) : (jobs.eraseIdx i).length + 1 = jobs.length := by
  have hlength := (numbers_eraseIdx h).length_eq
  simp only [numbers, List.length_cons, List.length_map] at hlength
  omega

theorem Accounts.running_lt {s : PoolRun α} (h : s.Accounts) {n : Nat}
    (hn : n ∈ numbers s.pool.running) : n < s.accepted.length := by
  have hstarted : n ∈ s.started := h.fate.symm.subset (List.mem_append_left _ hn)
  have hrange : n ∈ List.range s.accepted.length := by
    rw [← h.order]
    exact List.mem_append_left _ hstarted
  exact List.mem_range.mp hrange

theorem accounts_start (workers : Nat) : Accounts ({ workers } : PoolRun α) where
  pending := rfl
  spawned := rfl
  counted := rfl
  order := rfl
  fate := .refl []
  done := rfl
  contents := fun _ h => absurd h List.not_mem_nil
  descent := fun _ _ h => by cases h

/-- The next number is that of the job which is accepted now. -/
theorem getElem?_append_accepted {β : Type} {xs : List β} {x y : β} {n : Nat}
    (h : (xs ++ [x])[n]? = some y) : xs[n]? = some y ∨ (n = xs.length ∧ x = y) := by
  rw [List.getElem?_append] at h
  split at h
  · exact .inl h
  · next hn =>
    obtain ⟨hlt, heq⟩ := List.getElem?_eq_some_iff.mp h
    rw [List.length_singleton] at hlt
    exact .inr ⟨by omega, by simpa using heq⟩

theorem Accounts.accepted {s : PoolRun α} (h : s.Accounts) {spawner : Option Nat} (job : α)
    (hspawner : ∀ n ∈ spawner, n ∈ numbers s.pool.running) :
    Accounts { s with
      pool := ⟨s.pool.queued ++ [(s.accepted.length, job)], s.pool.running, s.pool.closed,
        s.pool.stats.accepted⟩
      accepted := s.accepted ++ [(spawner, job)] } where
  pending := by
    have hpending := h.pending
    simp only [PoolStats.accepted, List.length_append, List.length_singleton]
    omega
  spawned := by
    have hspawned := h.spawned
    simp only [PoolStats.accepted]
    omega
  counted := by
    rw [List.length_append, ← h.counted]
    rfl
  order := by
    rw [List.length_append, List.length_singleton, List.range_succ, ← h.order, numbers_append,
      ← List.append_assoc]
    rfl
  fate := h.fate
  done := h.done
  contents := by
    have old : ∀ x ∈ s.pool.queued ++ s.pool.running,
        (s.accepted.map Prod.snd ++ [job])[x.1]? = some x.2 := by
      intro x hx
      have hs := h.contents x hx
      obtain ⟨hlt, -⟩ := List.getElem?_eq_some_iff.mp hs
      rw [List.getElem?_append_left hlt, hs]
    intro x hx
    rw [List.map_append]
    simp only [List.mem_append, List.mem_singleton] at hx
    obtain (hx | rfl) | hx := hx
    · exact old x (List.mem_append_left _ hx)
    · rw [List.getElem?_append_right (by rw [List.length_map]), List.length_map, Nat.sub_self]
      rfl
    · exact old x (List.mem_append_right _ hx)
  descent := by
    intro n parent hn
    rw [List.map_append] at hn
    obtain hn | ⟨rfl, rfl⟩ := getElem?_append_accepted hn
    · exact h.descent n parent hn
    · rw [List.length_map]
      exact h.running_lt (hspawner parent rfl)

theorem Accounts.taken {s : PoolRun α} (h : s.Accounts) {n : Nat} {job : α}
    {rest : List (Nat × α)} (hqueued : s.pool.queued = (n, job) :: rest) :
    Accounts { s with
      pool := ⟨rest, s.pool.running ++ [(n, job)], s.pool.closed, s.pool.stats⟩
      started := s.started ++ [n] } where
  pending := by
    have hpending := h.pending
    rw [hqueued, List.length_cons] at hpending
    simp only [List.length_append, List.length_singleton]
    omega
  spawned := h.spawned
  counted := h.counted
  order := by
    have horder := h.order
    rw [hqueued] at horder
    rw [← horder, List.append_assoc]
    rfl
  fate := by
    have hnew : (s.started ++ [n]).Perm ((numbers s.pool.running ++ s.ended) ++ [n]) :=
      h.fate.append_right [n]
    refine hnew.trans ?_
    rw [numbers_append, List.append_assoc, List.append_assoc]
    exact List.perm_append_comm.append_left _
  done := h.done
  contents := by
    intro x hx
    refine h.contents x ?_
    rw [hqueued]
    simp only [List.mem_append, List.mem_cons] at hx ⊢
    tauto
  descent := h.descent

theorem Accounts.ended {s : PoolRun α} (h : s.Accounts) {i n : Nat} {job : α}
    (hrunning : s.pool.running[i]? = some (n, job)) (panicked : Bool) :
    Accounts { s with
      pool := ⟨s.pool.queued, s.pool.running.eraseIdx i, s.pool.closed,
        s.pool.stats.ended panicked⟩
      ended := s.ended ++ [n] } where
  pending := by
    have hpending := h.pending
    have hlength := length_eraseIdx_succ hrunning
    simp only [PoolStats.ended_pending]
    omega
  spawned := by
    have hpending := h.pending
    have hspawned := h.spawned
    have hlength := length_eraseIdx_succ hrunning
    rw [PoolStats.ended_done, PoolStats.ended_spawned, PoolStats.ended_pending]
    omega
  counted := by
    rw [PoolStats.ended_spawned]
    exact h.counted
  order := h.order
  fate := by
    have hrest := (numbers_eraseIdx hrunning).append_right s.ended
    refine (h.fate.trans hrest).trans ?_
    rw [List.cons_append, ← List.append_assoc]
    exact (List.perm_append_singleton n _).symm
  done := by
    rw [PoolStats.ended_done, List.length_append, h.done]
    rfl
  contents := by
    intro x hx
    refine h.contents x ?_
    obtain hx | hx := List.mem_append.mp hx
    · exact List.mem_append_left _ hx
    · exact List.mem_append_right _ (List.mem_of_mem_eraseIdx hx)
  descent := h.descent

theorem Turn.accounts {s s' : PoolRun α} {e : PoolEvent α} (h : Turn s e s') (hs : s.Accounts) :
    s'.Accounts := by
  cases h with
  | accepted spawner job _ hspawner => exact hs.accepted job hspawner
  | refused => exact { hs with }
  | taken n job rest hqueued => exact hs.taken hqueued
  | ended i panicked n job hrunning => exact hs.ended hrunning panicked
  | closed => exact { hs with }

/-! ## Runs -/

theorem after?_append (events later : List (PoolEvent α)) (s : PoolRun α) :
    s.after? (events ++ later) = (s.after? events).bind (after? later) := by
  induction events generalizing s with
  | nil => rfl
  | cons e events ih =>
    rw [List.cons_append, after?, after?, Option.bind_assoc]
    congr 1
    exact funext ih

/-- What every step preserves holds at the end. -/
theorem after?_induct {P : PoolRun α → Prop} {events : List (PoolEvent α)} {s s' : PoolRun α}
    (step : ∀ e s s', Turn s e s' → P s → P s') (h : after? events s = some s') (hs : P s) :
    P s' := by
  induction events generalizing s with
  | nil =>
    cases h
    exact hs
  | cons e events ih =>
    obtain ⟨t, ht, h⟩ := Option.bind_eq_some_iff.mp h
    exact ih h (step e s t (turn_of_step ht) hs)

/-- The refused jobs are those handed in after the pool was closed. -/
theorem after?_rejected {events : List (PoolEvent α)} {s s' : PoolRun α}
    (h : after? events s = some s') :
    s'.pool.stats.rejected = s.pool.stats.rejected +
      if s.pool.closed then events.countP PoolEvent.isSpawn else PoolEvent.late events := by
  induction events generalizing s with
  | nil =>
    cases h
    split <;> rfl
  | cons e events ih =>
    obtain ⟨t, ht, h⟩ := Option.bind_eq_some_iff.mp h
    rw [ih h]
    cases turn_of_step ht with
    | accepted spawner job hopen =>
      simp only [hopen]
      rfl
    | refused spawner job hclosed =>
      simp only [hclosed, if_true, PoolStats.refused, List.countP_cons, PoolEvent.isSpawn]
      omega
    | taken | ended =>
      simp [PoolEvent.late, PoolEvent.isClose, PoolEvent.isSpawn]
    | closed =>
      simp [PoolEvent.late, PoolEvent.isClose, PoolEvent.isSpawn]

/-- What the workers have to do: each waiting job is to be taken and to end, each running one to
end. -/
def remaining (s : PoolRun α) : Nat := 2 * s.pool.queued.length + s.pool.running.length

/-- A closed pool accepts nothing, and every step of a worker brings it closer to its end. -/
theorem after?_closed {events : List (PoolEvent α)} {s s' : PoolRun α}
    (hclosed : s.pool.closed = true) (h : after? events s = some s') :
    events.countP PoolEvent.isWork + s'.remaining = s.remaining ∧ s'.accepted = s.accepted := by
  induction events generalizing s with
  | nil =>
    cases h
    exact ⟨Nat.zero_add _, rfl⟩
  | cons e events ih =>
    obtain ⟨t, ht, h⟩ := Option.bind_eq_some_iff.mp h
    have hlater := fun htclosed => ih htclosed h
    rw [List.countP_cons]
    cases turn_of_step ht with
    | accepted spawner job hopen =>
      rw [hopen] at hclosed
      cases hclosed
    | refused => exact hlater hclosed
    | taken n job rest hqueued =>
      obtain ⟨hwork, haccepted⟩ := hlater hclosed
      refine ⟨?_, haccepted⟩
      simp only [remaining, hqueued, List.length_append, List.length_cons, List.length_nil,
        PoolEvent.isWork, if_true] at hwork ⊢
      omega
    | ended i panicked n job hrunning =>
      obtain ⟨hwork, haccepted⟩ := hlater hclosed
      have hlength := length_eraseIdx_succ hrunning
      refine ⟨?_, haccepted⟩
      simp only [remaining, PoolEvent.isWork, if_true] at hwork ⊢
      omega
    | closed => exact hlater rfl

theorem Accounts.working {s : PoolRun α} (h : s.Accounts) (hbusy : s.pool.isIdle = false) :
    ∃ e, e.isWork = true ∧ (s.step? e).isSome = true := by
  have hpending : s.pool.stats.pending ≠ 0 := of_decide_eq_false hbusy
  have hcounted := h.pending
  cases hrunning : s.pool.running with
  | cons job rest =>
    refine ⟨.finish 0 false, rfl, ?_⟩
    simp [step?, Pool.finish?, hrunning]
  | nil =>
    cases hqueued : s.pool.queued with
    | nil =>
      rw [hqueued, hrunning] at hcounted
      exact absurd hcounted hpending
    | cons job rest =>
      have hfree : s.pool.running.length < max s.workers 1 := by
        rw [hrunning]
        exact Nat.lt_of_lt_of_le Nat.one_pos (Nat.le_max_right ..)
      refine ⟨.take, rfl, ?_⟩
      simp [step?, Pool.take?, hfree, hqueued]

theorem Accounts.idle {s : PoolRun α} (h : s.Accounts) (hidle : s.pool.isIdle = true) :
    s.started = List.range s.accepted.length ∧ s.ended.Perm (List.range s.accepted.length) := by
  have hpending : s.pool.stats.pending = 0 := of_decide_eq_true hidle
  have hcounted := h.pending
  have hqueued : s.pool.queued = [] := List.eq_nil_of_length_eq_zero (by omega)
  have hrunning : s.pool.running = [] := List.eq_nil_of_length_eq_zero (by omega)
  have hstarted : s.started = List.range s.accepted.length := by
    rw [← h.order, hqueued]
    exact (List.append_nil _).symm
  have hended : s.started.Perm s.ended := by
    have hfate := h.fate
    rwa [hrunning] at hfate
  exact ⟨hstarted, hstarted ▸ hended.symm⟩

/-- What a pool keeps to, after these steps and from then on. -/
structure Faithful (events : List (PoolEvent α)) (s : PoolRun α) : Prop extends Accounts s where
  rejected : s.pool.stats.rejected = PoolEvent.late events
  /-- A refused job changes no other counter, and nothing else. -/
  refusal : ∀ spawner job s', s.pool.closed = true → s.step? (.spawn spawner job) = some s' →
    s' = { s with pool := ⟨s.pool.queued, s.pool.running, s.pool.closed,
      ⟨s.pool.stats.spawned, s.pool.stats.completed, s.pool.stats.panicked,
        s.pool.stats.rejected + 1, s.pool.stats.pending⟩⟩ }
  /-- The count of pending jobs is not zero when it is lowered. -/
  lowered : ∀ i panicked s', s.step? (.finish i panicked) = some s' →
    s'.pool.stats.pending + 1 = s.pool.stats.pending
  /-- The workers of a closed pool have a fixed amount of work left. -/
  drains : s.pool.closed = true → ∀ later s', after? later s = some s' →
    later.countP PoolEvent.isWork + s'.remaining = s.remaining ∧ s'.accepted = s.accepted
  working : s.pool.isIdle = false → ∃ e, e.isWork = true ∧ (s.step? e).isSome = true
  /-- In an idle pool every accepted job has started, in order, and has ended. -/
  idle : s.pool.isIdle = true →
    s.started = List.range s.accepted.length ∧ s.ended.Perm (List.range s.accepted.length)

theorem accounts_of_run {workers : Nat} {events : List (PoolEvent α)} {s : PoolRun α}
    (h : after? events { workers } = some s) : s.Accounts :=
  after?_induct (fun _ _ _ hturn hs => hturn.accounts hs) h (accounts_start workers)

theorem rejected_of_run {workers : Nat} {events : List (PoolEvent α)} {s : PoolRun α}
    (h : after? events { workers } = some s) :
    s.pool.stats.rejected = PoolEvent.late events := by
  have hrejected := after?_rejected h
  rwa [if_neg Bool.false_ne_true, Nat.zero_add] at hrejected

theorem refusal_of_closed {s s' : PoolRun α} {spawner : Option Nat} {job : α}
    (hclosed : s.pool.closed = true) (hstep : s.step? (.spawn spawner job) = some s') :
    s' = { s with pool := ⟨s.pool.queued, s.pool.running, s.pool.closed,
      ⟨s.pool.stats.spawned, s.pool.stats.completed, s.pool.stats.panicked,
        s.pool.stats.rejected + 1, s.pool.stats.pending⟩⟩ } := by
  cases turn_of_step hstep with
  | accepted _ _ hopen =>
    rw [hopen] at hclosed
    cases hclosed
  | refused => rfl

theorem Accounts.lowered {s s' : PoolRun α} (h : s.Accounts) {i : Nat} {panicked : Bool}
    (hstep : s.step? (.finish i panicked) = some s') :
    s'.pool.stats.pending + 1 = s.pool.stats.pending := by
  cases turn_of_step hstep with
  | ended _ _ n job hrunning =>
    have hpending := h.pending
    have hlength := length_eraseIdx_succ hrunning
    simp only [PoolStats.ended_pending]
    omega

theorem Accounts.keep {events : List (PoolEvent α)} {s : PoolRun α} (h : s.Accounts)
    (hrejected : s.pool.stats.rejected = PoolEvent.late events) : Faithful events s :=
  { h with
    rejected := hrejected
    refusal := fun _ _ _ hclosed hstep => refusal_of_closed hclosed hstep
    lowered := fun _ _ _ hstep => h.lowered hstep
    drains := fun hclosed _ _ hlater => after?_closed hclosed hlater
    working := h.working
    idle := h.idle }

/-- A pool keeps its accounts, whoever hands jobs in and in whatever order its workers do their
work. -/
theorem faithful (workers : Nat) {events : List (PoolEvent α)} {s : PoolRun α}
    (h : after? events { workers } = some s) : Faithful events s := by
  have haccounts : s.Accounts := accounts_of_run h
  exact haccounts.keep (rejected_of_run h)

/-- Two workers; a job hands in another one, the pool is closed, a third job comes too late. -/
theorem nested_faithful :
    ∃ s : PoolRun String, Faithful [.spawn none "outer", .take, .spawn (some 0) "inner", .close,
        .spawn none "late", .take, .finish 0 true, .finish 0 false] s ∧
      s.pool.stats = ⟨2, 1, 1, 1, 0⟩ ∧ s.pool.isIdle = true ∧ s.ended.Perm [0, 1] := by
  have h : Faithful [.spawn none "outer", .take, .spawn (some 0) "inner", .close,
      .spawn none "late", .take, .finish 0 true, .finish 0 false] _ :=
    faithful 2 rfl
  exact ⟨_, h, rfl, rfl, (h.idle rfl).2⟩

end PoolRun
end Fulfilment
