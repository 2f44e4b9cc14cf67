import Fulfilment.Config.Basic
import Fulfilment.Text.Blank
import Fulfilment.Text.Numeral
import Fulfilment.Text.Quoted

/-!
Configuration from named texts.

Main definitions:
- `Setting`: the eight settings, in the order in which they are read.
- `Config.ofSettings`: the default configuration with every setting that has a text replaced; the
  first text that cannot be read is the fault.
-/
namespace Fulfilment

set_option autoImplicit false

inductive Setting where
  | numRetries
  | maxRetryDelay
  | queueTime
  | queueTaskTime
  | paymentTime
  | messageTime
  | employeeTime
  | consistency
  deriving DecidableEq, Repr

namespace Setting

def name : Setting → String
  | .numRetries => "COMMANDER_NUM_RETRIES"
  | .maxRetryDelay => "COMMANDER_MAX_RETRY_DELAY_MS"
  | .queueTime => "COMMANDER_QUEUE_TIME_MS"
  | .queueTaskTime => "COMMANDER_QUEUE_TASK_TIME_MS"
  | .paymentTime => "COMMANDER_PAYMENT_TIME_MS"
  | .messageTime => "COMMANDER_MESSAGE_TIME_MS"
  | .employeeTime => "COMMANDER_EMPLOYEE_TIME_MS"
  | .consistency => "COMMANDER_CONSISTENCY"

def all : List Setting :=
  [.numRetries, .maxRetryDelay, .queueTime, .queueTaskTime, .paymentTime, .messageTime,
    .employeeTime, .consistency]

inductive Reason where
  | numeral (f : Text.Numeral.Fault)
  | unknownMode
  deriving DecidableEq, Repr

def Reason.message : Reason → String
  | .numeral f => f.message
  | .unknownMode => "expected relaxed or serialized"

/-- A setting whose text cannot be read. -/
structure Fault where
  setting : Setting
  value : String
  reason : Reason
  deriving DecidableEq, Repr

def Fault.message (f : Fault) : String :=
  "invalid value for " ++ f.setting.name ++ ": " ++ Text.quote f.value ++ " (" ++
    f.reason.message ++ ")"

/-- A whole number below `limit`, with blanks around it allowed. -/
def readNat (s : Setting) (limit : Nat) (text : String) : Except Fault Nat :=
  match Text.Numeral.readList limit (Text.trimList text.toList) with
  | .ok n => .ok n
  | .error f => .error ⟨s, text, .numeral f⟩

def readCount (s : Setting) (text : String) : Except Fault UInt32 :=
  (readNat s UInt32.size text).map UInt32.ofNat

def readMillis (s : Setting) (text : String) : Except Fault Span :=
  (readNat s UInt64.size text).map Span.ofMillis

end Setting

/-- The name of a mode in any case, in either spelling, with blanks around it allowed. -/
def Consistency.read (text : String) : Except Setting.Fault Consistency :=
  let word := String.ofList ((Text.trimList text.toList).map Char.toLower)
  if word = "relaxed" then .ok .relaxed
  else if word = "serialized" ∨ word = "serialised" then .ok .serialized
  else .error ⟨.consistency, text, .unknownMode⟩

namespace Config

variable {α : Type}

/-- The value of a setting, `current` if it has no text. -/
def override (lookup : String → Option String) (s : Setting)
    (read : String → Except Setting.Fault α) (current : α) : Except Setting.Fault α :=
  match lookup s.name with
  | none => .ok current
  | some text => read text

def ofSettings (lookup : String → Option String) : Except Setting.Fault Config := do
  let base : Config := {}
  let millis (s : Setting) (current : Span) := override lookup s (Setting.readMillis s) current
  let retries ← override lookup .numRetries (Setting.readCount .numRetries) base.retry.retries
  let maxDelay ← millis .maxRetryDelay base.retry.maxDelay
  let queue ← millis .queueTime base.limits.queue
  let queueTask ← millis .queueTaskTime base.limits.queueTask
  let payment ← millis .paymentTime base.limits.payment
  let message ← millis .messageTime base.limits.message
  let employee ← millis .employeeTime base.limits.employee
  let consistency ← override lookup .consistency Consistency.read base.consistency
  pure ⟨⟨retries, maxDelay⟩, ⟨queue, queueTask, payment, message, employee⟩, consistency⟩

end Config
end Fulfilment
