import Fulfilment.Proofs.Inline.Ledger
import Fulfilment.Proofs.Stage.Course

/-! The books of a world: what stages and the queue act on, without clock, scripts, draws and log.

* `Books`, `World.books`: orders, queue store, counters, employee handle, pending jobs and deeds.
* `Books.change`, `Books.deed`: an order is changed, a deed is done.
* The small changes of a world as changes of its books. -/
namespace Fulfilment

set_option autoImplicit false

structure Books where
  orders : List Order
  store : List Task
  added : List TaskType
  employee : Records OrderId Snapshot
  queued : List Nat
  pending : List Job
  deeds : List Event

def World.books (w : World) : Books where
  orders := w.orders
  store := w.collaborators.store
  added := w.collaborators.added
  employee := w.collaborators.employee
  queued := w.queued
  pending := w.pending
  deeds := w.deeds

namespace Books

def order (b : Books) (o : OrderRef) : Order := b.orders.getD o default

/-- What a coordinator counts in the queue store. -/
def counted (b : Books) (c : CoordinatorRef) : Nat := b.queued.getD c 0

def change (b : Books) (o : OrderRef) (f : Order → Order) : Books :=
  { b with orders := b.orders.modify o f }

def note (b : Books) (o : OrderRef) (n : SiteNotice) : Books := b.change o (·.recordNotice n)

def pay (b : Books) (o : OrderRef) (p : PaymentStatus) : Books :=
  b.change o fun x => { x with payment := p }

def deed (b : Books) (e : Event) : Books := { b with deeds := e :: b.deeds }

def addOrder (b : Books) (x : Order) : Books := { b with orders := b.orders ++ [x] }

/-! ## Orders -/

theorem order_change (b : Books) (o p : OrderRef) (f : Order → Order) :
    (b.change o f).order p = if p = o ∧ o < b.orders.length then f (b.order o) else b.order p :=
  World.order_modifyOrder { clock := 0, orders := b.orders } o p f

theorem order_change_congr {α : Type} (view : Order → α) (b : Books) (o p : OrderRef)
    (f : Order → Order) (hf : ∀ x, view (f x) = view x) :
    view ((b.change o f).order p) = view (b.order p) :=
  World.order_modifyOrder_congr view { clock := 0, orders := b.orders } o p f hf

theorem length_change (b : Books) (o : OrderRef) (f : Order → Order) :
    (b.change o f).orders.length = b.orders.length :=
  List.length_modify ..

/-- A notice leaves everything but notices alone. -/
theorem bare_note (b : Books) (o p : OrderRef) (n : SiteNotice) :
    ((b.note o n).order p).bare = (b.order p).bare :=
  b.order_change_congr Order.bare o p _ fun x => by
    cases hx : x.notice <;> simp only [Order.recordNotice, hx, Order.bare]

theorem payment_note (b : Books) (o p : OrderRef) (n : SiteNotice) :
    ((b.note o n).order p).payment = (b.order p).payment :=
  (congrArg Order.payment (b.bare_note o p n) :)

theorem sent_note (b : Books) (o p : OrderRef) (n : SiteNotice) :
    ((b.note o n).order p).sent = (b.order p).sent :=
  (congrArg Order.sent (b.bare_note o p n) :)

/-- The first notice of an order that is there is recorded. -/
theorem order_note (b : Books) {o : OrderRef} (n : SiteNotice) (ho : o < b.orders.length)
    (hn : (b.order o).notice = none) :
    (b.note o n).order o = { b.order o with notice := some n } := by
  rw [note, order_change, if_pos ⟨rfl, ho⟩, Order.recordNotice, hn]

/-- A notice that is recorded stays, or this one is recorded. -/
theorem notice_note (b : Books) {o : OrderRef} (n : SiteNotice) (ho : o < b.orders.length) :
    ∃ i, ((b.note o n).order o).notice = some i := by
  rw [note, order_change, if_pos ⟨rfl, ho⟩, Order.recordNotice]
  cases hn : (b.order o).notice with
  | none => exact ⟨n, rfl⟩
  | some i => exact ⟨i, hn⟩

theorem order_pay (b : Books) {o : OrderRef} (status : PaymentStatus)
    (ho : o < b.orders.length) :
    (b.pay o status).order o = { b.order o with payment := status } := by
  rw [pay, order_change, if_pos ⟨rfl, ho⟩]

/-- A payment that is settled, and then the first notice. -/
theorem order_pay_note (b : Books) {o : OrderRef} (status : PaymentStatus) (n : SiteNotice)
    (ho : o < b.orders.length) (hn : (b.order o).notice = none) :
    ((b.pay o status).note o n).order o =
      { b.order o with payment := status, notice := some n } := by
  have hlength : o < (b.pay o status).orders.length := by
    rw [pay, length_change]
    exact ho
  have hnone : ((b.pay o status).order o).notice = none := by
    rw [b.order_pay status ho]
    exact hn
  rw [order_note _ n hlength hnone, b.order_pay status ho]

/-- The first notice, and then a payment that is settled. -/
theorem order_note_pay (b : Books) {o : OrderRef} (n : SiteNotice) (status : PaymentStatus)
    (ho : o < b.orders.length) (hn : (b.order o).notice = none) :
    ((b.note o n).pay o status).order o =
      { b.order o with notice := some n, payment := status } := by
  have hlength : o < (b.note o n).orders.length := by
    rw [note, length_change]
    exact ho
  rw [order_pay _ status hlength, b.order_note n ho hn]

theorem payment_pay (b : Books) {o : OrderRef} (status : PaymentStatus)
    (ho : o < b.orders.length) : ((b.pay o status).order o).payment = status := by
  rw [b.order_pay status ho]

theorem order_pay_ne (b : Books) {o p : OrderRef} (status : PaymentStatus) (hp : p ≠ o) :
    (b.pay o status).order p = b.order p := by
  rw [pay, order_change, if_neg fun h => hp h.1]

theorem sent_pay (b : Books) (o p : OrderRef) (status : PaymentStatus) :
    ((b.pay o status).order p).sent = (b.order p).sent :=
  b.order_change_congr Order.sent o p _ fun _ => rfl

end Books

/-! ## Worlds with the same books -/

section Same
variable {w v : World} (h : v.books = w.books)
include h

theorem World.order_of_books (o : OrderRef) : v.order o = w.order o :=
  congrArg (fun b : Books => b.order o) h

theorem World.pending_of_books : v.pending = w.pending := congrArg Books.pending h

theorem World.deeds_of_books : v.deeds = w.deeds := congrArg Books.deeds h

end Same

/-! ## Small changes -/

namespace World

theorem books_of_holdings {w v : World} (h : v.holdings = w.holdings) : v.books = w.books := by
  simp only [books, orders_of_holdings h, collaborators_of_holdings h, queued_of_holdings h,
    pending_of_holdings h, deeds_of_holdings h]

theorem books_record (w : World) {e : Event} (he : e.isDeed = false) :
    (w.record e).books = w.books := by
  have hd : (w.record e).deeds = w.deeds := by
    rw [deeds_record]
    simp [he]
  rw [books, hd]
  rfl

theorem books_remark (w : World) {r : Remark} (hr : r.isDropping = false) :
    (w.remark r).books = w.books :=
  w.books_record hr

theorem books_remark_dropping (w : World) {r : Remark} (hr : r.isDropping = true) :
    (w.remark r).books = w.books.deed (.remarked r) := by
  rw [books, w.deeds_remark_dropping hr]
  rfl

theorem books_showNotice (w : World) (o : OrderRef) (n : SiteNotice) :
    (w.showNotice o n).books = w.books.note o n := by
  simp only [showNotice]
  cases hn : (w.order o).notice with
  | none =>
    rw [books_remark _ rfl]
    rfl
  | some m =>
    have hsame : (w.order o).recordNotice n = w.order o := by simp only [Order.recordNotice, hn]
    have hw := congrArg books (w.modifyOrder_eq_self o (·.recordNotice n) hsame)
    exact hw.symm

end World
end Fulfilment
