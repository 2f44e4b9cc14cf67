import Fulfilment.Collaborators.Basic

/-!
Scenarios: one setup of scripted failures per way in which orders go wrong.

Main definitions:
- `Scenario` and `Scenario.faults`
-/
namespace Fulfilment

set_option autoImplicit false

inductive Scenario where
  /-- Every collaborator answers. -/
  | allSuccess
  /-- Payment, employee handle and queue store are down. -/
  | employeeDbDown
  /-- The item is out of stock. -/
  | itemUnavailable
  /-- Shipping is down. -/
  | shippingDbDown
  /-- The address cannot be shipped to. -/
  | shippingNotPossible
  /-- Payment is down once, then the card is rejected. -/
  | paymentDetailsError
  /-- Payment is down. -/
  | paymentDbDown
  /-- Payment and queue store are down. -/
  | paymentQueueDown
  /-- Messaging is down. -/
  | messagingDbDown
  /-- Messaging and queue store are down. -/
  | messagingQueueDown
  deriving DecidableEq, Repr, Inhabited

namespace Scenario

def all : List Scenario :=
  [.allSuccess, .employeeDbDown, .itemUnavailable, .shippingDbDown, .shippingNotPossible,
    .paymentDetailsError, .paymentDbDown, .paymentQueueDown, .messagingDbDown,
    .messagingQueueDown]

def name : Scenario → String
  | .allSuccess => "all-success"
  | .employeeDbDown => "employee-db-down"
  | .itemUnavailable => "item-unavailable"
  | .shippingDbDown => "shipping-db-down"
  | .shippingNotPossible => "shipping-not-possible"
  | .paymentDetailsError => "payment-details-error"
  | .paymentDbDown => "payment-db-down"
  | .paymentQueueDown => "payment-queue-down"
  | .messagingDbDown => "messaging-db-down"
  | .messagingQueueDown => "messaging-queue-down"

def named? (s : String) : Option Scenario := all.find? (·.name == s)

/-- Outages in a row, more than retries survive by default. -/
def down : Faults := Faults.repeated .databaseUnavailable 6

def faults : Scenario → FaultScripts
  | .allSuccess => {}
  | .employeeDbDown => { payment := down, employee := down, queue := down }
  | .itemUnavailable => { shipping := [.itemUnavailable] }
  | .shippingDbDown => { shipping := down }
  | .shippingNotPossible => { shipping := [.shippingNotPossible] }
  | .paymentDetailsError =>
    { payment := [.databaseUnavailable, .paymentDetailsError]
      messaging := [.databaseUnavailable]
      queue := [.databaseUnavailable] }
  | .paymentDbDown => { payment := down }
  | .paymentQueueDown => { payment := down, queue := down }
  | .messagingDbDown => { messaging := down }
  | .messagingQueueDown => { messaging := down, queue := down }

end Scenario
end Fulfilment
