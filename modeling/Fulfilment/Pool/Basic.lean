/-!
A pool of workers that take jobs from one queue.

Main definitions:
- `Pool`: the jobs that wait and the jobs that run, with counters.
- `Pool.spawn`, `Pool.take?`, `Pool.finish?`, `Pool.close`: a job comes in, a worker takes the
  oldest waiting job, a job ends, and no more jobs are accepted.
-/
namespace Fulfilment

set_option autoImplicit false

/-- Counters of a pool since its start. -/
structure PoolStats where
  spawned : Nat := 0
  completed : Nat := 0
  panicked : Nat := 0
  rejected : Nat := 0
  /-- Jobs accepted and not yet ended. -/
  pending : Nat := 0
  deriving DecidableEq, Repr, Inhabited

namespace PoolStats

def accepted (s : PoolStats) : PoolStats :=
  { s with spawned := s.spawned + 1, pending := s.pending + 1 }

def refused (s : PoolStats) : PoolStats := { s with rejected := s.rejected + 1 }

/-- A job ended, in a panic or not. -/
def ended (s : PoolStats) (panicked : Bool) : PoolStats :=
  if panicked then { s with panicked := s.panicked + 1, pending := s.pending - 1 }
  else { s with completed := s.completed + 1, pending := s.pending - 1 }

def diagnostic (s : PoolStats) : String :=
  "WorkerPoolStats \x7b tasks_spawned: " ++ toString s.spawned ++ ", tasks_completed: " ++
    toString s.completed ++ ", tasks_panicked: " ++ toString s.panicked ++ ", tasks_rejected: " ++
    toString s.rejected ++ ", pending: " ++ toString s.pending ++ " \x7d"

end PoolStats

/-- How many workers there are, and the name they share. -/
structure PoolConfig where
  name : String := "commander-worker"
  workers : Nat := 8
  deriving DecidableEq, Repr

/-- At least one worker. -/
def PoolConfig.withWorkers (c : PoolConfig) (n : Nat) : PoolConfig := { c with workers := max n 1 }

structure Pool (α : Type) where
  /-- The oldest job first. -/
  queued : List α := []
  running : List α := []
  closed : Bool := false
  stats : PoolStats := {}

namespace Pool

variable {α : Type}

instance : Inhabited (Pool α) := ⟨{}⟩

def spawn (p : Pool α) (job : α) : Pool α :=
  if p.closed then { p with stats := p.stats.refused }
  else { p with queued := p.queued ++ [job], stats := p.stats.accepted }

/-- The job a worker starts. -/
def take? (p : Pool α) : Option (α × Pool α) :=
  match p.queued with
  | [] => none
  | job :: rest => some (job, { p with queued := rest, running := p.running ++ [job] })

/-- The `i`-th of the running jobs ends. -/
def finish? (p : Pool α) (i : Nat) (panicked : Bool) : Option (Pool α) :=
  if i < p.running.length then
    some { p with running := p.running.eraseIdx i, stats := p.stats.ended panicked }
  else none

def close (p : Pool α) : Pool α := { p with closed := true }

/-- Nothing waits and nothing runs, as the counters have it. -/
def isIdle (p : Pool α) : Bool := p.stats.pending = 0

end Pool
end Fulfilment
