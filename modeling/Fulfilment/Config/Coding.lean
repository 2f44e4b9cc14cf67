import Fulfilment.Config.Basic
import Fulfilment.Json.Members

/-!
Configurations as JSON.

Main definitions:
- `Config.toJson` and `Config.ofJson?`: spans as whole milliseconds; an absent mode is the relaxed
  one.
-/
namespace Fulfilment

set_option autoImplicit false

def Span.toJson (d : Span) : Json := .ofNat (Span.wholeMillis d)

def Span.ofJson? (v : Json) : Option Span := (v.natBelow? UInt64.size).map Span.ofMillis

namespace RetryParams

def toJson (r : RetryParams) : Json :=
  .object [("num_of_retries", .ofNat r.retries.toNat), ("max_retry_delay_ms", Span.toJson r.maxDelay)]

def ofJson? (v : Json) : Option RetryParams := do
  match ← v.members? ["num_of_retries", "max_retry_delay_ms"] 0 with
  | [some retries, some maxDelay] =>
    let retries ← retries.natBelow? UInt32.size
    let maxDelay ← Span.ofJson? maxDelay
    pure ⟨.ofNat retries, maxDelay⟩
  | _ => none

end RetryParams

namespace TimeLimits

def toJson (l : TimeLimits) : Json :=
  .object [("queue_time_ms", Span.toJson l.queue), ("queue_task_time_ms", Span.toJson l.queueTask),
    ("payment_time_ms", Span.toJson l.payment), ("message_time_ms", Span.toJson l.message),
    ("employee_time_ms", Span.toJson l.employee)]

def ofJson? (v : Json) : Option TimeLimits := do
  match ← v.members? ["queue_time_ms", "queue_task_time_ms", "payment_time_ms", "message_time_ms",
      "employee_time_ms"] 0 with
  | [some queue, some queueTask, some payment, some message, some employee] =>
    let queue ← Span.ofJson? queue
    let queueTask ← Span.ofJson? queueTask
    let payment ← Span.ofJson? payment
    let message ← Span.ofJson? message
    let employee ← Span.ofJson? employee
    pure ⟨queue, queueTask, payment, message, employee⟩
  | _ => none

end TimeLimits

namespace Consistency

def toJson (c : Consistency) : Json := .text c.name

def ofJson? (v : Json) : Option Consistency := v.choice?.bind named?

end Consistency

namespace Config

def toJson (c : Config) : Json :=
  .object [("retry", c.retry.toJson), ("limits", c.limits.toJson),
    ("consistency", c.consistency.toJson)]

def ofJson? (v : Json) : Option Config := do
  match ← v.members? ["retry", "limits", "consistency"] 1 with
  | [some retry, some limits, consistency] =>
    let retry ← RetryParams.ofJson? retry
    let limits ← TimeLimits.ofJson? limits
    let consistency ← match consistency with
      | none => some .relaxed
      | some v => Consistency.ofJson? v
    pure ⟨retry, limits, consistency⟩
  | _ => none

end Config
end Fulfilment
