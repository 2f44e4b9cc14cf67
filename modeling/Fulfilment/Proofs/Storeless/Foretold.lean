import Mathlib.Data.List.TakeWhile
import Fulfilment.Config.Settings
import Fulfilment.Proofs.Storeless.Placement

/-! How the placement of a new order ends without a queue store, for all scripts and limits.

* `Run.placement_ends`: the run ends, and the order as the scripts tell.
* `Run.foretold_iff`: the services are asked again as often as the limit says, under every limit but
  the greatest.
* `Run.configured_unforetold`: that one can be configured. -/
namespace Fulfilment

set_option autoImplicit false

namespace Run

section Placements
variable {s : Setup} {c : CoordinatorRef} {o : OrderRef} {w : World}

/-- A new order that is placed in time and without a queue store ends as the scripts tell. -/
theorem placement_ends {n : Nat} (hs : s.Storeless) (hw : w.Plain) (ho : o < w.orders.length)
    (hasks : s.Asks n w.faults) (hnew : (w.docket c o).New)
    (ht : (placement c o w).Prompt s o) :
    ∃ k v, (placement c o w).drive s k = { world := v } ∧
      Docket.Ends n (w.docket c o) (v.docket c o) := by
  have hstart : At s n c o (placement c o w) (w.docket c o) [.place c o] :=
    ⟨0, w, rfl, hw, ho, hasks, rfl⟩
  obtain ⟨k, v, hk, -, -, -, hv⟩ := hstart.placed hs ht
  refine ⟨k, v, hk, ?_⟩
  rw [hv]
  exact Docket.place_ends hnew n

/-- With this limit every new order that is placed in time, jobs running on the spot and nothing put
off, ends as the scripts of the services tell. -/
def Foretold (limit : UInt32) : Prop :=
  ∀ (s : Setup) (c : CoordinatorRef) (o : OrderRef) (w : World),
    s.config.retry.retries = limit → s.Storeless → w.Plain → o < w.orders.length →
    (w.docket c o).New → (placement c o w).Prompt s o →
    ∃ k v, (placement c o w).drive s k = { world := v } ∧
      Docket.Ends limit.toNat (w.docket c o) (v.docket c o)

theorem foretold_of_lt {limit : UInt32} (hless : limit.toNat + 1 < UInt32.size) :
    Foretold limit := by
  intro s c o w hlimit hs hw ho hnew ht
  exact placement_ends hs hw ho (.limited (congrArg UInt32.toNat hlimit) hless) hnew ht

/-! ## Time without end -/

/-- Budgets that the clock cannot pass are never used up. -/
theorem prompt_of_unlimited {r : Run} (h : r.Orderly s)
    (hcreated : 0 ≤ (r.world.order o).createdAt)
    (hqueue : World.lastClock < s.config.limits.queue)
    (hpayment : World.lastClock < s.config.limits.payment)
    (hmessage : World.lastClock < s.config.limits.message)
    (hemployee : World.lastClock < s.config.limits.employee) : r.Prompt s o := by
  intro k
  obtain ⟨hevolves, horderly⟩ := h.drive k
  have hsame := (hevolves.later h.clock o).createdAt
  have hclock := horderly.clock
  have hnotBefore : (0 : Int) ≤ (r.world.order o).createdAt := hcreated
  have hb {b : Span} (hb : World.lastClock < b) :
      (r.drive s k).world.budgetExceeded o b = false := by
    refine decide_eq_false (Nat.not_le_of_lt (Nat.lt_of_le_of_lt ?_ hb))
    simp only [Order.age, Instant.since, World.now, hsame]
    omega
  exact ⟨hb hqueue, hb hpayment, hb hmessage, hb hemployee⟩

end Placements

/-- A new order; shipping will fail so often before it accepts. -/
def besieged (outages : Nat) : World :=
  { clock := 0
    orders := [{ id := ⟨"A1"⟩, customer := ⟨"Jim", "ABCD"⟩, item := "book", price := 10,
                 createdAt := 0 }]
    faults := { shipping := .repeated .databaseUnavailable outages } }

theorem besieged_plain (outages : Nat) : (besieged outages).Plain where
  clock := Nat.zero_le _
  unlocked := .of_forall fun x hx => by
    cases List.mem_singleton.mp hx
    rfl
  replies := rfl
  isOpen := ⟨rfl, rfl⟩

theorem besieged_new (outages : Nat) : ((besieged outages).docket 0 0).New :=
  ⟨rfl, rfl, rfl, rfl, rfl, rfl, rfl, rfl⟩

theorem besieged_asks {s : Setup} (hgreatest : s.config.retry.retries.toNat + 1 = UInt32.size)
    (outages : Nat) : s.Asks outages (besieged outages).faults := by
  refine .unlimited hgreatest fun sv => ?_
  cases sv with
  | shipping => exact Nat.le_of_eq List.length_replicate
  | _ => exact Nat.zero_le _

theorem besieged_result (outages n : Nat) :
    Faults.result n (besieged outages).faults.shipping =
      if outages ≤ n then none else some .databaseUnavailable := by
  have hall : ∀ f ∈ (besieged outages).faults.shipping, f.isOutage = true := fun f hf => by
    rw [List.eq_of_mem_replicate hf]
    rfl
  have hlength : (besieged outages).faults.shipping.length = outages := List.length_replicate
  rw [Faults.result, Faults.outages, List.takeWhile_eq_self_iff.mpr hall,
    List.dropWhile_eq_nil_iff.mpr hall, hlength]
  rfl

/-- Given up after fewer outages than there are, the order would not be placed. -/
theorem besieged_refused {outages n : Nat} (h : n < outages) :
    (besieged outages).faults.ending n = ⟨.trying, .orderNotPlaced, none, 0⟩ := by
  simp only [FaultScripts.ending, besieged_result, if_neg (Nat.not_le_of_lt h)]

theorem besieged_placed (outages : Nat) :
    (besieged outages).faults.ending outages =
      ⟨.done, .paymentSuccessful, some .paymentSuccess, 0⟩ := by
  simp only [FaultScripts.ending, besieged_result, if_pos (Nat.le_refl outages)]
  rfl

/-- Under the greatest limit the order is paid for once shipping has failed 2 ^ 32 times, although
the limit is passed. -/
theorem besieged_ends {s : Setup} (hs : s.Storeless)
    (hgreatest : s.config.retry.retries.toNat + 1 = UInt32.size)
    (ht : (placement 0 0 (besieged UInt32.size)).Prompt s 0) :
    ((besieged UInt32.size).faults.ending s.config.retry.retries.toNat =
      ⟨.trying, .orderNotPlaced, none, 0⟩) ∧
    ∃ k v, (placement 0 0 (besieged UInt32.size)).drive s k = { world := v } ∧
      (v.order 0).payment = .done ∧ (v.order 0).notice = some .paymentSuccessful ∧
      (v.order 0).sent = .paymentSuccessful := by
  refine ⟨besieged_refused (by omega), ?_⟩
  obtain ⟨k, v, hk, hends⟩ := placement_ends hs (besieged_plain _) (by exact Nat.zero_lt_one)
    (besieged_asks hgreatest _) (besieged_new _) ht
  have hplaced : ((besieged UInt32.size).docket 0 0).scripts.ending UInt32.size = _ :=
    besieged_placed UInt32.size
  have hpayment := hends.payment
  have hnotice := hends.notice
  have hsent := hends.sent
  rw [hplaced] at hpayment hnotice hsent
  exact ⟨k, v, hk, hpayment, hnotice, hsent⟩

/-- A run has one end. -/
theorem end_unique {s : Setup} {r : Run} {k l : Nat} {v u : World}
    (hk : r.drive s k = { world := v }) (hl : r.drive s l = { world := u }) : v = u := by
  have later {i j : Nat} {x y : World} (hi : r.drive s i = { world := x })
      (hj : r.drive s j = { world := y }) (hij : i ≤ j) : x = y := by
    obtain ⟨n, rfl⟩ := Nat.exists_eq_add_of_le hij
    rw [drive_add, hi, drive_of_over rfl] at hj
    exact congrArg Run.world hj
  obtain hkl | hlk := Nat.le_total k l
  · exact later hk hl hkl
  · exact (later hl hk hlk).symm

/-- Nothing can be put off, and the time for everything is as long as it can be. -/
def patient (retry : RetryParams) : Setup where
  config :=
    { retry
      limits :=
        { queue := Span.ofMillis Span.maxMillis, payment := Span.ofMillis Span.maxMillis
          message := Span.ofMillis Span.maxMillis, employee := Span.ofMillis Span.maxMillis } }
  dispatch := .inline
  hasStore := false

theorem patient_storeless (retry : RetryParams) : (patient retry).Storeless := ⟨rfl, rfl⟩

theorem patient_prompt (retry : RetryParams) (outages : Nat) :
    (placement 0 0 (besieged outages)).Prompt (patient retry) 0 := by
  have hplain := besieged_plain outages
  have horderly : (placement 0 0 (besieged outages)).Orderly (patient retry) :=
    ⟨hplain.clock, hplain.unlocked, hplain.whole, rfl, rfl⟩
  have hlong : World.lastClock < Span.ofMillis Span.maxMillis := by decide
  exact prompt_of_unlimited horderly (Int.le_refl 0) hlong hlong hlong hlong

/-- Every new order that is placed in time and without a queue store ends as the scripts tell, under
every limit but the greatest. -/
theorem foretold_iff (limit : UInt32) : Foretold limit ↔ limit.toNat + 1 < UInt32.size := by
  refine ⟨fun h => ?_, foretold_of_lt⟩
  by_contra hgreatest
  have hsize := limit.toNat_lt_size
  have hplain := besieged_plain UInt32.size
  have ht := patient_prompt { retries := limit } UInt32.size
  obtain ⟨hrefused, k, v, hk, hpayment, -⟩ :=
    besieged_ends (patient_storeless { retries := limit }) (by show limit.toNat + 1 = _; omega) ht
  obtain ⟨l, u, hl, hends⟩ :=
    h _ 0 0 _ rfl (patient_storeless { retries := limit }) hplain Nat.zero_lt_one
      (besieged_new _) ht
  have hpending : (u.order 0).payment = .trying :=
    hends.payment.trans (congrArg Ending.payment hrefused)
  rw [← end_unique hk hl, hpayment] at hpending
  cases hpending

/-- The greatest limit, and as much time as there is. -/
def relentless (name : String) : Option String :=
  if name = Setting.numRetries.name then some "4294967295"
  else if name = Setting.queueTime.name ∨ name = Setting.paymentTime.name ∨
      name = Setting.messageTime.name ∨ name = Setting.employeeTime.name then
    some "18446744073709551615"
  else none

/-- The greatest limit can be configured. With it an order is paid for that shipping has refused
more often than the limit allows, and that should have ended as not placed. -/
theorem configured_unforetold :
    ∃ config, Config.ofSettings relentless = .ok config ∧
      let s : Setup := { config, dispatch := .inline, hasStore := false }
      (placement 0 0 (besieged UInt32.size)).Prompt s 0 ∧
      ((besieged UInt32.size).docket 0 0).New ∧
      (besieged UInt32.size).faults.ending config.retry.retries.toNat =
        ⟨.trying, .orderNotPlaced, none, 0⟩ ∧
      ∃ k v, (placement 0 0 (besieged UInt32.size)).drive s k = { world := v } ∧
        (v.order 0).payment = .done ∧ (v.order 0).notice = some .paymentSuccessful ∧
        (v.order 0).sent = .paymentSuccessful := by
  refine ⟨(patient { retries := 4294967295 }).config, by decide, ?_⟩
  have ht := patient_prompt { retries := 4294967295 } UInt32.size
  obtain ⟨hrefused, hpaid⟩ := besieged_ends (patient_storeless _) (by decide) ht
  exact ⟨ht, besieged_new _, hrefused, hpaid⟩

end Run
end Fulfilment
