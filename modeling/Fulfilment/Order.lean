import Fulfilment.OrderId
import Fulfilment.Timestamp
import Fulfilment.Decimal

/-!
Orders and the state of their stages.

Main definitions:
- `PaymentStatus`, `MessageSent`, `SiteNotice`: what has happened to an order so far.
- `Order`: who ordered what and when, with the flags above; every time budget runs from
  `createdAt`.
- `Order.recordNotice`: only the first notice is kept.
- `Snapshot`: a copy of an order at one moment.
-/
namespace Fulfilment

set_option autoImplicit false

/-! ## Payment -/

inductive PaymentStatus where
  | notDone
  | trying
  | done
  deriving DecidableEq, Repr, Inhabited

namespace PaymentStatus

def name : PaymentStatus → String
  | .notDone => "not_done"
  | .trying => "trying"
  | .done => "done"

def label : PaymentStatus → String
  | .notDone => "NotDone"
  | .trying => "Trying"
  | .done => "Done"

def isTerminal : PaymentStatus → Bool
  | .trying => false
  | _ => true

def all : List PaymentStatus := [.notDone, .trying, .done]

def named? (s : String) : Option PaymentStatus := all.find? (·.name == s)

end PaymentStatus

/-! ## Customer messages -/

/-- A message the customer can be sent about the payment. -/
inductive MessageType where
  | paymentFail
  | paymentTrying
  | paymentSuccess
  deriving DecidableEq, Repr, Inhabited

namespace MessageType

def name : MessageType → String
  | .paymentFail => "payment_fail"
  | .paymentTrying => "payment_trying"
  | .paymentSuccess => "payment_success"

def label : MessageType → String
  | .paymentFail => "PaymentFail"
  | .paymentTrying => "PaymentTrying"
  | .paymentSuccess => "PaymentSuccess"

/-- The number the messaging service knows the message by. -/
def code : MessageType → Nat
  | .paymentFail => 0
  | .paymentTrying => 1
  | .paymentSuccess => 2

/-- The words the customer receives. -/
def text : MessageType → String
  | .paymentSuccess =>
    "Msg: Your order has been placed and paid for successfully! Thank you for shopping with us!"
  | .paymentTrying =>
    "Msg: There was an error in your payment process, we are working on it and will return back " ++
      "to you shortly. Meanwhile, your order has been placed and will be shipped."
  | .paymentFail =>
    "Msg: There was an error in your payment process. Your order is placed and has been converted " ++
      "to COD. Please reach us on CUSTOMER-CARE-NUMBER in case of any queries. Thank you for " ++
      "shopping with us!"

def all : List MessageType := [.paymentFail, .paymentTrying, .paymentSuccess]

def named? (s : String) : Option MessageType := all.find? (·.name == s)

end MessageType

/-- The last message delivered for an order. -/
inductive MessageSent where
  | noneSent
  | paymentTrying
  | paymentFail
  | paymentSuccessful
  deriving DecidableEq, Repr, Inhabited

namespace MessageSent

def name : MessageSent → String
  | .noneSent => "none_sent"
  | .paymentTrying => "payment_trying"
  | .paymentFail => "payment_fail"
  | .paymentSuccessful => "payment_successful"

def label : MessageSent → String
  | .noneSent => "NoneSent"
  | .paymentTrying => "PaymentTrying"
  | .paymentFail => "PaymentFail"
  | .paymentSuccessful => "PaymentSuccessful"

/-- After a terminal message no other is sent. -/
def isTerminal : MessageSent → Bool
  | .paymentFail => true
  | .paymentSuccessful => true
  | _ => false

def ofMessage : MessageType → MessageSent
  | .paymentFail => .paymentFail
  | .paymentTrying => .paymentTrying
  | .paymentSuccess => .paymentSuccessful

def all : List MessageSent := [.noneSent, .paymentTrying, .paymentFail, .paymentSuccessful]

def named? (s : String) : Option MessageSent := all.find? (·.name == s)

end MessageSent

/-! ## Notices -/

/-- The outcome shown to the customer when the order is placed. -/
inductive SiteNotice where
  | paymentSuccessful
  | paymentPending
  | paymentDetailsInvalid
  | shippingNotPossible
  | itemUnavailable
  | orderNotPlaced
  deriving DecidableEq, Repr, Inhabited

namespace SiteNotice

def name : SiteNotice → String
  | .paymentSuccessful => "payment_successful"
  | .paymentPending => "payment_pending"
  | .paymentDetailsInvalid => "payment_details_invalid"
  | .shippingNotPossible => "shipping_not_possible"
  | .itemUnavailable => "item_unavailable"
  | .orderNotPlaced => "order_not_placed"

def label : SiteNotice → String
  | .paymentSuccessful => "PaymentSuccessful"
  | .paymentPending => "PaymentPending"
  | .paymentDetailsInvalid => "PaymentDetailsInvalid"
  | .shippingNotPossible => "ShippingNotPossible"
  | .itemUnavailable => "ItemUnavailable"
  | .orderNotPlaced => "OrderNotPlaced"

def text : SiteNotice → String
  | .paymentSuccessful => "Payment made successfully, thank you for shopping with us!!"
  | .paymentPending =>
    "There was an error in payment. We are on it, and will get back to you asap. Don't worry, " ++
      "your order has been placed and will be shipped."
  | .paymentDetailsInvalid =>
    "There was an error in payment. Your account/card details may have been incorrect. " ++
      "Meanwhile, your order has been converted to COD and will be shipped."
  | .shippingNotPossible =>
    "Shipping is currently not possible to your address. We are working on the problem and will " ++
      "get back to you asap."
  | .itemUnavailable =>
    "This item is currently unavailable. We will inform you as soon as the item becomes available " ++
      "again."
  | .orderNotPlaced => "Sorry, there was a problem in creating your order. Please try later."

def all : List SiteNotice :=
  [.paymentSuccessful, .paymentPending, .paymentDetailsInvalid, .shippingNotPossible,
    .itemUnavailable, .orderNotPlaced]

def named? (s : String) : Option SiteNotice := all.find? (·.name == s)

end SiteNotice

/-! ## Orders -/

structure Customer where
  name : String
  /-- Where to ship to. -/
  address : String
  deriving DecidableEq, Repr, Inhabited

structure Order where
  id : OrderId
  customer : Customer
  item : String
  price : Float
  createdAt : Instant
  payment : PaymentStatus := .trying
  sent : MessageSent := .noneSent
  /-- The employee handle has taken the order. -/
  escalated : Bool := false
  notice : Option SiteNotice := none
  /-- Some attempt is between its check of the flags and its change to them. -/
  locked : Bool := false
  deriving Inhabited

namespace Order

/-- Time since creation, nothing if the clock stands before it. -/
def age (o : Order) (now : Instant) : Span := now.since o.createdAt

def budgetExceeded (o : Order) (now : Instant) (budget : Span) : Bool := budget ≤ o.age now

/-- The first notice stays. -/
def recordNotice (o : Order) (n : SiteNotice) : Order :=
  match o.notice with
  | none => { o with notice := some n }
  | some _ => o

/-- Whether sending `m` would still change anything: the pending message goes out only while the
payment is pending and nothing was sent, any other only while no terminal message was sent. -/
def needsMessage (o : Order) (m : MessageType) : Bool :=
  match m with
  | .paymentTrying => o.payment = .trying && o.sent = .noneSent
  | _ => !o.sent.isTerminal

/-- Nothing more is to be expected for the customer: a terminal message was sent, an employee has
the order, or it was not placed. -/
def isConcluded (o : Order) : Bool :=
  o.sent.isTerminal || o.escalated || o.notice = some .orderNotPlaced

/-- The form diagnostics show. -/
def diagnostic (o : Order) : String :=
  "Order \x7b id: " ++ o.id.diagnostic ++ ", item: " ++ Text.quote o.item ++ ", price: " ++
    Decimal.text .diagnostic o.price ++ ", created_at: " ++ (Timestamp.ofInstant o.createdAt).text ++
    ", payment_status: " ++ o.payment.label ++ ", message_sent: " ++ o.sent.label ++
    ", added_to_employee_handle: " ++ (if o.escalated then "true" else "false") ++ ", notice: " ++
    (match o.notice with
      | none => "None"
      | some n => "Some(" ++ n.label ++ ")") ++ " \x7d"

end Order

/-- An order as it stood at one moment. -/
structure Snapshot where
  id : OrderId
  customer : Customer
  item : String
  price : Float
  createdAt : Timestamp
  payment : PaymentStatus
  sent : MessageSent
  escalated : Bool
  notice : Option SiteNotice
  deriving Inhabited

namespace Snapshot

/-- Equality of all fields; a price that is not a number differs from itself. -/
def agrees (a b : Snapshot) : Bool :=
  a.id = b.id && a.customer = b.customer && a.item = b.item && a.price == b.price &&
    a.createdAt = b.createdAt && a.payment = b.payment && a.sent = b.sent &&
    a.escalated = b.escalated && a.notice = b.notice

end Snapshot

def Order.snapshot (o : Order) : Snapshot :=
  ⟨o.id, o.customer, o.item, o.price, .ofInstant o.createdAt, o.payment, o.sent, o.escalated,
    o.notice⟩

/-- The place of an order in the list of orders of a run. -/
abbrev OrderRef := Nat

end Fulfilment
