import Mathlib.Data.List.Infix
import Fulfilment.Proofs.Faultless.Tally
import Fulfilment.Proofs.Queue.Accounts

/-! Where nothing fails and nothing comes too late, the schedule makes no difference: whoever orders
what, and in whatever order the placements and the jobs of all orders take their steps, the same
orders are fulfilled in the end, and the same requests were made.

* `World.Fulfils`: everything that was ordered is shipped, paid for and confirmed, and nothing else
  was done.
* `World.Alike`: two worlds differ in ids and times at most.
* `FaultlessRun`: a run from an empty shop until nothing is left to do.
* `FaultlessRun.confluent`. -/
namespace Fulfilment

set_option autoImplicit false

/-! ## Worlds up to ids and times -/

def Order.content (x : Order) : Order := { x with id := default, createdAt := default }

/-- The order of a purchase once it is fulfilled. -/
def Purchase.fulfilled (q : Purchase) : Order where
  id := default
  customer := q.customer
  item := q.item
  price := q.price
  createdAt := default
  payment := .done
  sent := .paymentSuccessful
  notice := some .paymentSuccessful

namespace World

/-- Every order is paid for and confirmed, shipping, payment and messaging were asked once for each
purchase, no two orders share an id, the queue and the employee handle were not used, and nothing
slept. -/
structure Fulfils (w : World) (placed : List Purchase) : Prop where
  purchases : w.orders.map Order.purchase = placed
  done : ∀ x ∈ w.orders, x.payment = .done ∧ x.sent = .paymentSuccessful ∧
    x.notice = some .paymentSuccessful ∧ x.escalated = false ∧ x.locked = false
  distinct : (w.orders.map (·.id)).Nodup
  shipping : (w.collaborators.shipping.values.map ShippingRecord.content).Perm
    (placed.map Purchase.shipment)
  payment : (w.collaborators.payment.values.map PaymentRecord.content).Perm (placed.map Purchase.bill)
  messaging : (w.collaborators.messaging.values.map MessageRecord.content).Perm
    (placed.map Purchase.message)
  employee : w.collaborators.employee = {}
  store : w.collaborators.store = []
  added : w.collaborators.added = []
  queued : ∀ c, w.queuedItems c = 0
  journal : ∀ e ∈ w.journal, e.isDirect = true

/-- The same orders in the same state, and the same requests, in whatever order they came. -/
structure Alike (w v : World) : Prop where
  orders : (w.orders.map Order.content).Perm (v.orders.map Order.content)
  shipping : (w.collaborators.shipping.values.map ShippingRecord.content).Perm
    (v.collaborators.shipping.values.map ShippingRecord.content)
  payment : (w.collaborators.payment.values.map PaymentRecord.content).Perm
    (v.collaborators.payment.values.map PaymentRecord.content)
  messaging : (w.collaborators.messaging.values.map MessageRecord.content).Perm
    (v.collaborators.messaging.values.map MessageRecord.content)
  employee : w.collaborators.employee = v.collaborators.employee
  store : w.collaborators.store = v.collaborators.store
  added : w.collaborators.added = v.collaborators.added
  queued : ∀ c, w.queuedItems c = v.queuedItems c

variable {w v : World} {placed placed' : List Purchase}

theorem Fulfils.contents (h : w.Fulfils placed) :
    w.orders.map Order.content = placed.map Purchase.fulfilled := by
  rw [← h.purchases, List.map_map]
  refine List.map_congr_left fun x hx => ?_
  obtain ⟨hpayment, hsent, hnotice, hescalated, hlocked⟩ := h.done x hx
  obtain ⟨id, customer, item, price, createdAt, payment, sent, escalated, notice, locked⟩ := x
  cases hpayment
  cases hsent
  cases hnotice
  cases hescalated
  cases hlocked
  rfl

/-- Worlds that fulfil the same purchases are alike. -/
theorem Fulfils.alike (hw : w.Fulfils placed) (hv : v.Fulfils placed') (h : placed.Perm placed') :
    w.Alike v where
  orders := by
    rw [hw.contents, hv.contents]
    exact h.map _
  shipping := (hw.shipping.trans (h.map _)).trans hv.shipping.symm
  payment := (hw.payment.trans (h.map _)).trans hv.payment.symm
  messaging := (hw.messaging.trans (h.map _)).trans hv.messaging.symm
  employee := hw.employee.trans hv.employee.symm
  store := hw.store.trans hv.store.symm
  added := hw.added.trans hv.added.symm
  queued := fun c => (hw.queued c).trans (hv.queued c).symm

end World

/-! ## Runs -/

/-- Nothing has happened yet, and nothing is scripted to fail. -/
structure System.Opens (σ : System) : Prop where
  idle : σ.Idle
  clear : σ.world.Clear
  orders : σ.world.orders = []
  collaborators : ∃ lastId, σ.world.collaborators = { lastId }
  queued : ∀ c, σ.world.queuedItems c = 0
  journal : σ.world.journal = []

/-- Orders are placed, and their placements and jobs take their steps in this order, until none is
left. -/
structure FaultlessRun (s : Setup) (σ₀ : System) (happenings : List Happening) (σ₁ : System) :
    Prop where
  opens : σ₀.Opens
  direct : ∀ h ∈ happenings, h.isDirect = true
  timely : ∀ before, before <+: happenings →
    ∀ υ, System.after? s before σ₀ = some υ → υ.world.Timely s
  reached : System.after? s happenings σ₀ = some σ₁
  idle : σ₁.Idle

namespace System
variable {s : Setup} {σ : System} {t : Tally}

theorem Opens.direct (h : σ.Opens) : σ.Direct s where
  orderly := by
    refine ⟨h.clear.clock, h.clear.unlocked, h.clear.whole, fun agenda ha => ?_⟩
    rw [h.idle.2 agenda ha]
    rfl
  clear := h.clear
  actions := by
    rw [h.idle.outstanding]
    exact fun b hb => absurd hb List.not_mem_nil

theorem Opens.tells (h : σ.Opens) : σ.Tells {} := by
  obtain ⟨lastId, hcollaborators⟩ := h.collaborators
  refine ⟨⟨?_, ?_, ?_⟩, ?_, ?_, fun l o => ?_, ?_, ?_, ?_, h.queued, ?_⟩
  · exact fun e he => absurd he List.not_mem_nil
  · exact fun l o => (if_neg (Nat.not_lt_zero _)).symm
  · exact fun o => Nat.zero_le _
  · rw [h.orders]
    rfl
  · exact fun o ho => absurd ho (Nat.not_lt_zero o)
  · rw [h.idle.load, if_neg fun ho => Nat.not_lt_zero o ho.1]
  · rw [hcollaborators]
    exact ⟨rfl, rfl, rfl, rfl, rfl, rfl⟩
  · rw [h.orders]
    exact List.nodup_nil
  · rw [h.orders]
    exact List.nil_subset _
  · rw [h.journal]
    rfl

/-- Once nothing is left to do, every order has all its legs behind it. -/
theorem Tells.behind_of_idle (h : σ.Tells t) (hidle : σ.Idle) :
    ∀ o < t.placed.length, t.behind o = Leg.count := by
  intro o ho
  refine Nat.le_antisymm (h.sound.within o) (Nat.le_of_not_lt fun hlt => ?_)
  obtain ⟨l, hl⟩ := Leg.exists_rank hlt
  have hleft := h.left l o
  rw [hidle.load, if_pos ⟨ho, hl.symm⟩] at hleft
  exact absurd hleft Nat.zero_ne_one

theorem Tells.fulfils (h : σ.Tells t) (hσ : σ.Direct s) (hidle : σ.Idle) :
    σ.world.Fulfils t.placed where
  purchases := h.placed
  done := by
    intro x hx
    obtain ⟨o, ho, rfl⟩ := List.mem_iff_getElem.mp hx
    have horder : σ.world.order o = σ.world.orders[o] := by
      rw [World.order, List.getD_eq_getElem?_getD, List.getElem?_eq_getElem ho, Option.getD_some]
    rw [h.length] at ho
    have halong := h.along o ho
    have hunlocked := hσ.clear.unlocked o
    rw [h.behind_of_idle hidle o ho, horder] at halong
    rw [horder] at hunlocked
    exact ⟨halong.payment, halong.sent, halong.notice, halong.escalated, hunlocked⟩
  distinct := by
    have htexts : ((σ.world.orders.map (·.id)).map OrderId.text).Nodup := by
      rw [List.map_map]
      exact h.distinct
    exact htexts.of_map _
  shipping := by
    rw [h.collaborators.shipping]
    exact (h.sound.served_perm (h.behind_of_idle hidle) _).map _
  payment := by
    rw [h.collaborators.payment]
    exact (h.sound.served_perm (h.behind_of_idle hidle) _).map _
  messaging := by
    rw [h.collaborators.messaging]
    exact (h.sound.served_perm (h.behind_of_idle hidle) _).map _
  employee := h.collaborators.employee
  store := h.collaborators.store
  added := h.collaborators.added
  queued := h.queued
  journal := List.all_eq_true.mp h.journal

end System

namespace FaultlessRun

theorem fulfils {s : Setup} {σ₀ σ₁ : System} {happenings : List Happening}
    (h : FaultlessRun s σ₀ happenings σ₁) :
    σ₁.world.Fulfils (happenings.filterMap Happening.purchase?) := by
  obtain ⟨u, hu, hplaced, hσ₁⟩ :=
    h.opens.tells.after h.opens.direct h.direct h.timely h.reached
  have hfulfils := hu.fulfils hσ₁ h.idle
  rwa [hplaced] at hfulfils

/-- Whatever was ordered is fulfilled in the end, whatever the schedule; and whenever the same things
are ordered, by whichever way from whichever empty shop, the end is the same up to ids and times. -/
theorem confluent (s : Setup) (σ₀ σ₁ : System) (happenings : List Happening)
    (h : FaultlessRun s σ₀ happenings σ₁) :
    σ₁.world.Fulfils (happenings.filterMap Happening.purchase?) ∧
      ∀ (s' : Setup) (σ₀' σ₁' : System) (happenings' : List Happening),
        FaultlessRun s' σ₀' happenings' σ₁' →
        (happenings'.filterMap Happening.purchase?).Perm
          (happenings.filterMap Happening.purchase?) →
        σ₁'.world.Alike σ₁.world := by
  have hfulfils := h.fulfils
  exact ⟨hfulfils, fun s' σ₀' σ₁' happenings' h' hsame => h'.fulfils.alike hfulfils hsame⟩

/-! ## Two schedules -/

/-- Two orders are placed and billed at the same time; the second one is shipped first, and the first
one billed first. -/
def mingled : List Happening :=
  .order 0 ⟨"Jim", "ABCD"⟩ "book" 10 :: .order 0 ⟨"Ann", "EFGH"⟩ "pen" 2 ::
    [.act 1, .act 0, .act 1, .act 1, .act 0, .act 0, .act 1, .act 0, .start 1, .act 2, .start 0,
      .act 3, .act 3, .pass 5, .act 2, .act 2, .act 3, .start 0, .start 0, .act 5, .act 4, .act 4,
      .act 5].map .move

/-- The same orders, the second one first, each of them fulfilled while it is placed. -/
def inTurn : List Happening :=
  .order 0 ⟨"Ann", "EFGH"⟩ "pen" 2 :: List.replicate 9 (.move (.act 0)) ++
    .order 0 ⟨"Jim", "ABCD"⟩ "book" 10 :: List.replicate 9 (.move (.act 1))

theorem newShop_opens : System.newShop.Opens where
  idle := ⟨rfl, fun agenda ha => absurd ha List.not_mem_nil⟩
  clear := ⟨⟨by decide, .of_forall (by decide), rfl, ⟨rfl, rfl⟩⟩, fun sv => by cases sv <;> rfl⟩
  orders := rfl
  collaborators := ⟨0, rfl⟩
  queued := by
    intro c
    cases c with
    | zero => rfl
    | succ c => rfl
  journal := rfl

theorem timely_of_inits {s : Setup} {σ₀ : System} {happenings : List Happening}
    (h : ∀ before ∈ happenings.inits, ∀ υ ∈ System.after? s before σ₀, υ.world.Timely s)
    (before : List Happening) (hbefore : before <+: happenings) (υ : System)
    (hυ : System.after? s before σ₀ = some υ) : υ.world.Timely s :=
  h before ((List.mem_inits _ _).mpr hbefore) υ hυ

theorem mingled_confluent : ∃ σ₁ σ₂ : System,
    FaultlessRun {} System.newShop mingled σ₁ ∧
      FaultlessRun { dispatch := .inline } System.newShop inTurn σ₂ ∧
      σ₁.world.collaborators.payment.values.map (·.amount) = [10, 2] ∧
      σ₂.world.collaborators.payment.values.map (·.amount) = [2, 10] ∧
      σ₁.world.Fulfils [⟨⟨"Jim", "ABCD"⟩, "book", 10⟩, ⟨⟨"Ann", "EFGH"⟩, "pen", 2⟩] ∧
      σ₂.world.Alike σ₁.world := by
  have h₁ : ∃ σ₁, FaultlessRun {} System.newShop mingled σ₁ ∧
      σ₁.world.collaborators.payment.values.map (·.amount) = [10, 2] := by
    refine ⟨_, ⟨newShop_opens, by decide, timely_of_inits ?_, rfl, ⟨rfl, by decide⟩⟩, rfl⟩
    decide +kernel
  have h₂ : ∃ σ₂, FaultlessRun { dispatch := .inline } System.newShop inTurn σ₂ ∧
      σ₂.world.collaborators.payment.values.map (·.amount) = [2, 10] := by
    refine ⟨_, ⟨newShop_opens, by decide, timely_of_inits ?_, rfl, ⟨rfl, by decide⟩⟩, rfl⟩
    decide +kernel
  obtain ⟨σ₁, hσ₁, hamounts₁⟩ := h₁
  obtain ⟨σ₂, hσ₂, hamounts₂⟩ := h₂
  have h := confluent {} System.newShop σ₁ mingled hσ₁
  exact ⟨σ₁, σ₂, hσ₁, hσ₂, hamounts₁, hamounts₂, h.1, h.2 _ _ _ _ hσ₂ (.swap ..)⟩

end FaultlessRun
end Fulfilment
