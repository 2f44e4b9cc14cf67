import Fulfilment.Span

/-!
How the coordinator works: retries, time budgets, and the guard around check and change.

Main definitions:
- `Config` with its parts `RetryParams`, `TimeLimits` and `Consistency`, and their defaults.
- `TimeLimits.drainInterval`: a third of the time a queued task may stay in play.
- `Config.diagnostic`: the form diagnostics show.
-/
namespace Fulfilment

set_option autoImplicit false

structure RetryParams where
  /-- Repetitions after the first attempt. -/
  retries : UInt32 := 3
  /-- No single wait is longer. -/
  maxDelay : Span := Span.ofSecs 30
  deriving DecidableEq, Inhabited

/-- The budgets run from the creation of the order, except that of a queued task, which runs from
the first visit of the drain loop. -/
structure TimeLimits where
  queue : Span := Span.ofSecs 240
  queueTask : Span := Span.ofSecs 60
  payment : Span := Span.ofSecs 120
  message : Span := Span.ofSecs 150
  employee : Span := Span.ofSecs 240
  deriving DecidableEq, Inhabited

def TimeLimits.drainInterval (l : TimeLimits) : Span := l.queueTask / 3

inductive Consistency where
  /-- Flags are checked and changed without a lock. -/
  | relaxed
  /-- Every check and the change after it hold the lock of the order. -/
  | serialized
  deriving DecidableEq, Inhabited

namespace Consistency

def name : Consistency → String
  | .relaxed => "relaxed"
  | .serialized => "serialized"

def label : Consistency → String
  | .relaxed => "Relaxed"
  | .serialized => "Serialized"

def all : List Consistency := [.relaxed, .serialized]

def named? (s : String) : Option Consistency := all.find? (·.name == s)

end Consistency

structure Config where
  retry : RetryParams := {}
  limits : TimeLimits := {}
  consistency : Consistency := .relaxed
  deriving DecidableEq

instance : Inhabited Config := ⟨{}⟩

/-! ## Diagnostics -/

def RetryParams.diagnostic (r : RetryParams) : String :=
  "RetryParams \x7b num_of_retries: " ++ toString r.retries.toNat ++ ", max_retry_delay: " ++
    Span.text r.maxDelay ++ " \x7d"

def TimeLimits.diagnostic (l : TimeLimits) : String :=
  "TimeLimits \x7b queue_time: " ++ Span.text l.queue ++ ", queue_task_time: " ++
    Span.text l.queueTask ++ ", payment_time: " ++ Span.text l.payment ++ ", message_time: " ++
    Span.text l.message ++ ", employee_time: " ++ Span.text l.employee ++ " \x7d"

def Config.diagnostic (c : Config) : String :=
  "CommanderConfig \x7b retry: " ++ c.retry.diagnostic ++ ", limits: " ++ c.limits.diagnostic ++
    ", consistency: " ++ c.consistency.label ++ " \x7d"

end Fulfilment
