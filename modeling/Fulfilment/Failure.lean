/-!
Failures of a collaborator.

Main definitions:
- `Failure`: what a call to shipping, payment, messaging, the employee handle or the queue store
  can fail with.
- `Failure.kind` and `Failure.Kind.isRetryable`: only an unreachable database is worth a retry.
-/
namespace Fulfilment

set_option autoImplicit false

inductive Failure where
  | databaseUnavailable
  | itemUnavailable
  | shippingNotPossible
  | paymentDetailsError
  | queueEmpty
  | other (text : String)
  deriving DecidableEq, Repr

namespace Failure

def message : Failure → String
  | .databaseUnavailable => "database unavailable"
  | .itemUnavailable => "item unavailable"
  | .shippingNotPossible => "shipping not possible"
  | .paymentDetailsError => "payment details error"
  | .queueEmpty => "queue is empty"
  | .other text => "unexpected failure: " ++ text

inductive Kind where
  | databaseUnavailable
  | itemUnavailable
  | shippingNotPossible
  | paymentDetailsError
  | unclassified
  deriving DecidableEq, Repr

def Kind.label : Kind → String
  | .databaseUnavailable => "DatabaseUnavailable"
  | .itemUnavailable => "ItemUnavailable"
  | .shippingNotPossible => "ShippingNotPossible"
  | .paymentDetailsError => "PaymentDetailsError"
  | .unclassified => "Unclassified"

def Kind.isRetryable : Kind → Bool
  | .databaseUnavailable => true
  | _ => false

def kind : Failure → Kind
  | .databaseUnavailable => .databaseUnavailable
  | .itemUnavailable => .itemUnavailable
  | .shippingNotPossible => .shippingNotPossible
  | .paymentDetailsError => .paymentDetailsError
  | .queueEmpty => .unclassified
  | .other _ => .unclassified

def isRetryable (f : Failure) : Bool := f.kind.isRetryable

/-- The database of the collaborator could not be reached. -/
def isOutage (f : Failure) : Bool := f.kind = .databaseUnavailable

theorem isRetryable_eq_isOutage (f : Failure) : f.isRetryable = f.isOutage := by
  cases f <;> rfl

end Failure

/-! ## Scripted failures -/

/-- Failures still to be raised, the next one first. -/
abbrev Faults := List Failure

namespace Faults

def pushed (faults : Faults) (f : Failure) : Faults := faults ++ [f]

def pop : Faults → Option Failure × Faults
  | [] => (none, [])
  | f :: rest => (some f, rest)

def next? (faults : Faults) : Option Failure := faults.head?

def repeated (f : Failure) (count : Nat) : Faults := List.replicate count f

end Faults
end Fulfilment
