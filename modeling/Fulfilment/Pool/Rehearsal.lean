import Fulfilment.Pool.Basic
import Fulfilment.Text.Quoted

/-!
Rehearsals of a worker pool with jobs of a few fixed kinds.

Main definitions:
- `PoolJob`: counting, panicking, waiting at a gate, and spawning itself again.
- `PoolRehearsal.work`: free workers take jobs until none waits or every worker stands at the gate.
-/
namespace Fulfilment

set_option autoImplicit false

inductive PoolJob where
  /-- Adds one to the counter. -/
  | count
  | panic
  /-- Waits until the gate is open, then counts. -/
  | gate
  /-- Counts, and spawns the same job one level less deep. -/
  | nest (depth : Nat)
  deriving DecidableEq, Repr

structure PoolRehearsal where
  workers : Nat
  pool : Pool PoolJob := {}
  counter : Nat := 0
  opened : Bool := false

namespace PoolRehearsal

/-- The job that was taken last ends. -/
def endLast (r : PoolRehearsal) (panicked : Bool) : PoolRehearsal :=
  match r.pool.finish? (r.pool.running.length - 1) panicked with
  | some pool => { r with pool }
  | none => r

def counted (r : PoolRehearsal) : PoolRehearsal := { r with counter := r.counter + 1 }

/-- The job that was taken last runs as far as it can. -/
def runLast (r : PoolRehearsal) : PoolJob → PoolRehearsal
  | .count => r.counted.endLast false
  | .panic => r.endLast true
  | .gate => if r.opened then r.counted.endLast false else r
  | .nest 0 => r.counted.endLast false
  | .nest (depth + 1) =>
    let r := r.counted
    { r with pool := r.pool.spawn (.nest depth) }.endLast false

/-- A free worker takes a job. -/
def advance? (r : PoolRehearsal) : Option PoolRehearsal :=
  if r.pool.running.length < r.workers then
    r.pool.take?.map fun (job, pool) => { r with pool }.runLast job
  else none

def work : Nat → PoolRehearsal → PoolRehearsal
  | 0, r => r
  | fuel + 1, r =>
    match r.advance? with
    | none => r
    | some r => work fuel r

/-- How many jobs a job amounts to. -/
def weight : PoolJob → Nat
  | .nest depth => depth + 1
  | _ => 1

def quiesce (r : PoolRehearsal) : PoolRehearsal := r.work (r.pool.queued.foldl (fun n job => n + weight job) 0)

def spawn (r : PoolRehearsal) (job : PoolJob) (times : Nat) : PoolRehearsal :=
  { r with pool := times.repeat (·.spawn job) r.pool }.quiesce

/-- All jobs at the gate end. -/
def openGate (r : PoolRehearsal) : PoolRehearsal :=
  (r.pool.running.length.repeat (fun r : PoolRehearsal => r.counted.endLast false)
    { r with opened := true }).quiesce

def close (r : PoolRehearsal) : PoolRehearsal := { r with pool := r.pool.close }

end PoolRehearsal

/-- The form diagnostics show. -/
def Pool.diagnostic {α : Type} (name : String) (p : Pool α) : String :=
  "WorkerPool \x7b name: " ++ Text.quote name ++ ", stats: " ++ p.stats.diagnostic ++ " \x7d"

end Fulfilment
