import Fulfilment.Span

/-!
Delays between the attempts of a retry.

Main definitions:
- `Backoff.delay`: two to the number of the failed attempt in seconds plus a jitter in
  milliseconds, computed in saturating 64-bit milliseconds and capped.
-/
namespace Fulfilment.Backoff

set_option autoImplicit false

/-- Largest 64-bit word. -/
def wordMax : Nat := UInt64.size - 1

/-- The jitter lies below this number of milliseconds. -/
def jitterBound : Nat := 1000

def unitMillis : Nat := 1000

/-- A power of two; from the 64th attempt on the largest word. -/
def factor (attempt : UInt32) : Nat :=
  if attempt.toNat < 64 then Nat.pow 2 attempt.toNat else wordMax

def millis (attempt : UInt32) (jitter : Nat) : Nat :=
  min (min (factor attempt * unitMillis) wordMax + jitter) wordMax

/-- The delay after failed attempt number `attempt`, the first being 1. -/
def delay (attempt : UInt32) (maxDelay : Span) (jitter : Nat) : Span :=
  min (Span.ofMillis (millis attempt jitter)) maxDelay

end Fulfilment.Backoff
