import Fulfilment.Failure
import Fulfilment.Draws
import Fulfilment.Backoff

/-!
Repeating an operation that fails.

Main definitions:
- `Retry`: the failures so far and how many more are allowed; it can be used again and goes on
  counting.
- `Retry.repeats`: after a failure, wait and repeat or hand it over.
- `Retry.perform?`: repeats an operation to its first success or to the failure handed over.
- `Retry.performFor?`: the same for a context, with the handler that takes the failure over.
- `Retry.Report`: what one use did.
-/
namespace Fulfilment

set_option autoImplicit false

structure Retry where
  /-- Repetitions after the first attempt. -/
  limit : UInt32
  maxDelay : Span
  /-- Which failures are repeated: those that one of these accepts, without any the retryable. -/
  predicates : List (Failure → Bool) := []
  /-- Failed attempts so far; a 32-bit counter that starts again at 0 after its last value. -/
  attempts : UInt32 := 0
  /-- The failures in their order. -/
  errors : List Failure := []

namespace Retry

def accepts (r : Retry) (f : Failure) : Bool :=
  if r.predicates.isEmpty then f.isRetryable else r.predicates.any (· f)

def record (r : Retry) (f : Failure) : Retry :=
  { r with attempts := r.attempts + 1, errors := r.errors ++ [f] }

/-- A failed attempt is repeated if the failure allows it and the limit is not passed. -/
def repeats (limit attempts : UInt32) (accepted : Bool) : Bool := accepted && !(limit < attempts)

/-- What one use of a retry did. -/
structure Report where
  invocations : Nat := 0
  sleeps : List Span := []
  /-- The failure given to the handler. -/
  handled : Option Failure := none
  deriving Repr, Inhabited, DecidableEq

def Report.invoked (p : Report) : Report := { p with invocations := p.invocations + 1 }

variable {σ κ : Type}

/-- Runs the operation until it succeeds or a failure is handed over, `fuel` times at most; each
wait takes one draw for its jitter. -/
def perform? (operation : σ → Option Failure × σ) :
    (fuel : Nat) → Retry → Draws → σ → Report → Option (Retry × Draws × σ × Report)
  | 0, _, _, _, _ => none
  | fuel + 1, r, draws, s, report =>
    match operation s with
    | (none, s) => some (r, draws, s, report.invoked)
    | (some f, s) =>
      let r := r.record f
      if repeats r.limit r.attempts (r.accepts f) then
        let (jitter, draws) := draws.below Backoff.jitterBound
        let pause := Backoff.delay r.attempts r.maxDelay jitter
        perform? operation fuel r draws s
          { report.invoked with sleeps := report.sleeps ++ [pause] }
      else some (r, draws, s, { report.invoked with handled := some f })

/-- A failure that is handed over goes to the handler, together with the context. -/
def handOver (handler : κ → Failure → σ → σ) (context : κ) (failure : Option Failure) (s : σ) : σ :=
  match failure with
  | none => s
  | some f => handler context f s

/-- One use of a retry: the handler takes over what is left when the operation is not repeated. -/
def performFor? (operation : σ → Option Failure × σ) (handler : κ → Failure → σ → σ) (context : κ)
    (fuel : Nat) (r : Retry) (draws : Draws) (s : σ) : Option (Retry × Draws × σ × Report) :=
  match r.perform? operation fuel draws s {} with
  | none => none
  | some (r, draws, s, report) =>
    some (r, draws, handOver handler context report.handled s, report)

end Retry
end Fulfilment
