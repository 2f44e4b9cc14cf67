import Fulfilment.Order.Coding
import Fulfilment.Records
import Fulfilment.TransactionId

/-!
What the collaborators keep of the requests they accepted.

Main definitions:
- `ShippingRecord`, `PaymentRecord`, `MessageRecord`: one per accepted request, under its id.
-/
namespace Fulfilment

set_option autoImplicit false

def TransactionId.toJson (id : TransactionId) : Json := .text id.text

def TransactionId.ofJson? (v : Json) : Option TransactionId :=
  match v with
  | .text s => (TransactionId.read s).toOption
  | _ => none

structure ShippingRecord where
  id : TransactionId
  item : String
  address : String
  receivedAt : Timestamp
  deriving Inhabited

structure PaymentRecord where
  id : TransactionId
  amount : Float
  paid : Bool
  receivedAt : Timestamp
  deriving Inhabited

structure MessageRecord where
  id : TransactionId
  message : MessageType
  text : String
  sentAt : Timestamp
  deriving Inhabited

/-! ## As JSON

`idText` is how ids are written. -/

namespace ShippingRecord

def toJson (idText : TransactionId → Json) (r : ShippingRecord) : Json :=
  .object [("transaction_id", idText r.id), ("item", .text r.item), ("address", .text r.address),
    ("received_at", r.receivedAt.toJson)]

def ofJson? (v : Json) : Option ShippingRecord := do
  match ← v.members? ["transaction_id", "item", "address", "received_at"] 0 with
  | [some id, some item, some address, some receivedAt] =>
    let id ← TransactionId.ofJson? id
    let item ← item.text?
    let address ← address.text?
    let receivedAt ← Timestamp.ofJson? receivedAt
    pure ⟨id, item, address, receivedAt⟩
  | _ => none

end ShippingRecord

namespace PaymentRecord

def toJson (idText : TransactionId → Json) (r : PaymentRecord) : Json :=
  .object [("transaction_id", idText r.id), ("amount", .real r.amount), ("paid", .bool r.paid),
    ("received_at", r.receivedAt.toJson)]

def ofJson? (v : Json) : Option PaymentRecord := do
  match ← v.members? ["transaction_id", "amount", "paid", "received_at"] 0 with
  | [some id, some amount, some paid, some receivedAt] =>
    let id ← TransactionId.ofJson? id
    let amount ← amount.float?
    let paid ← paid.bool?
    let receivedAt ← Timestamp.ofJson? receivedAt
    pure ⟨id, amount, paid, receivedAt⟩
  | _ => none

end PaymentRecord

namespace MessageRecord

def toJson (idText : TransactionId → Json) (r : MessageRecord) : Json :=
  .object [("request_id", idText r.id), ("message", r.message.toJson), ("text", .text r.text),
    ("sent_at", r.sentAt.toJson)]

def ofJson? (v : Json) : Option MessageRecord := do
  match ← v.members? ["request_id", "message", "text", "sent_at"] 0 with
  | [some id, some message, some text, some sentAt] =>
    let id ← TransactionId.ofJson? id
    let message ← MessageType.ofJson? message
    let text ← text.text?
    let sentAt ← Timestamp.ofJson? sentAt
    pure ⟨id, message, text, sentAt⟩
  | _ => none

end MessageRecord
end Fulfilment
