import Fulfilment.Task
import Fulfilment.Json.Members

/-!
Orders as JSON.

Main definitions:
- `Snapshot.toJson` and `Snapshot.ofJson?`: an absent notice is none; the id is any text.
-/
namespace Fulfilment

set_option autoImplicit false

def Timestamp.toJson (t : Timestamp) : Json := .text t.text

def Timestamp.ofJson? (v : Json) : Option Timestamp := v.text?.bind Timestamp.read?

def OrderId.toJson (id : OrderId) : Json := .text id.text

def OrderId.ofJson? (v : Json) : Option OrderId := v.text?.map OrderId.mk

def PaymentStatus.toJson (p : PaymentStatus) : Json := .text p.name

def PaymentStatus.ofJson? (v : Json) : Option PaymentStatus := v.choice?.bind PaymentStatus.named?

def MessageType.toJson (m : MessageType) : Json := .text m.name

def MessageType.ofJson? (v : Json) : Option MessageType := v.choice?.bind MessageType.named?

def MessageSent.toJson (m : MessageSent) : Json := .text m.name

def MessageSent.ofJson? (v : Json) : Option MessageSent := v.choice?.bind MessageSent.named?

def SiteNotice.toJson (n : SiteNotice) : Json := .text n.name

def SiteNotice.ofJson? (v : Json) : Option SiteNotice := v.choice?.bind SiteNotice.named?

def TaskType.toJson (t : TaskType) : Json := .text t.name

def TaskType.ofJson? (v : Json) : Option TaskType := v.choice?.bind TaskType.named?

namespace Customer

def toJson (c : Customer) : Json := .object [("name", .text c.name), ("address", .text c.address)]

def ofJson? (v : Json) : Option Customer := do
  match ← v.members? ["name", "address"] 0 with
  | [some name, some address] => pure ⟨← name.text?, ← address.text?⟩
  | _ => none

end Customer

namespace Snapshot

def toJson (s : Snapshot) : Json :=
  .object [("id", s.id.toJson), ("user", s.customer.toJson), ("item", .text s.item),
    ("price", .real s.price), ("created_at", s.createdAt.toJson),
    ("payment_status", s.payment.toJson), ("message_sent", s.sent.toJson),
    ("added_to_employee_handle", .bool s.escalated), ("notice", .ofOption SiteNotice.toJson s.notice)]

def ofJson? (v : Json) : Option Snapshot := do
  match ← v.members? ["id", "user", "item", "price", "created_at", "payment_status", "message_sent",
      "added_to_employee_handle", "notice"] 0 with
  | [some id, some customer, some item, some price, some createdAt, some payment, some sent,
      some escalated, notice] =>
    let id ← OrderId.ofJson? id
    let customer ← Customer.ofJson? customer
    let item ← item.text?
    let price ← price.float?
    let createdAt ← Timestamp.ofJson? createdAt
    let payment ← PaymentStatus.ofJson? payment
    let sent ← MessageSent.ofJson? sent
    let escalated ← escalated.bool?
    let notice ← Json.nullable? SiteNotice.ofJson? notice
    pure ⟨id, customer, item, price, createdAt, payment, sent, escalated, notice⟩
  | _ => none

end Snapshot
end Fulfilment
