import Fulfilment.Proofs.Stage.Change

/-! Orders only go forward: whatever is settled about one stays as it is, so a task that is finished
stays finished. -/
namespace Fulfilment

set_option autoImplicit false

/-! ## Orders -/

/-- The second is the same order, possibly later. -/
structure Order.Later (x y : Order) : Prop where
  createdAt : y.createdAt = x.createdAt
  id : y.id = x.id
  payment : x.payment ≠ .trying → y.payment = x.payment
  some_sent : x.sent ≠ .noneSent → y.sent ≠ .noneSent
  terminal : x.sent.isTerminal = true → y.sent = x.sent
  escalated : x.escalated = true → y.escalated = true

theorem Order.Later.refl (x : Order) : x.Later x :=
  ⟨rfl, rfl, fun _ => rfl, fun h => h, fun _ => rfl, fun h => h⟩

theorem Order.Later.trans {x y z : Order} (h : x.Later y) (k : y.Later z) : x.Later z where
  createdAt := by rw [k.createdAt, h.createdAt]
  id := by rw [k.id, h.id]
  payment := by
    intro hx
    rw [k.payment (by rw [h.payment hx]; exact hx), h.payment hx]
  some_sent := fun hx => k.some_sent (h.some_sent hx)
  terminal := by
    intro hx
    rw [k.terminal (by rw [h.terminal hx]; exact hx), h.terminal hx]
  escalated := fun hx => k.escalated (h.escalated hx)

theorem Order.later_recordNotice (x : Order) (n : SiteNotice) : x.Later (x.recordNotice n) := by
  simp only [recordNotice]
  cases x.notice <;> exact ⟨rfl, rfl, fun _ => rfl, fun h => h, fun _ => rfl, fun h => h⟩

theorem World.later_modifyOrder (w : World) (o p : OrderRef) (f : Order → Order)
    (hf : (w.order o).Later (f (w.order o))) : (w.order p).Later ((w.modifyOrder o f).order p) := by
  rw [order_modifyOrder]
  split
  · next h =>
    rw [h.1]
    exact hf
  · exact .refl _

theorem Order.not_terminal_of_needs {x : Order} {m : MessageType} (h : x.needsMessage m = true) :
    x.sent.isTerminal = false := by
  cases m with
  | paymentTrying =>
    simp only [needsMessage, Bool.and_eq_true, decide_eq_true_eq] at h
    rw [h.2]
    rfl
  | paymentFail | paymentSuccess => simpa [needsMessage] using h

/-- A message that is needed is something new. -/
theorem Order.later_sent {x : Order} {m : MessageType} (h : x.needsMessage m = true) :
    x.Later { x with sent := .ofMessage m } := by
  refine ⟨rfl, rfl, fun _ => rfl, fun _ => ?_, fun hx => ?_, fun hx => hx⟩
  · cases m <;> exact MessageSent.noConfusion
  · rw [not_terminal_of_needs h] at hx
    cases hx

/-- A pending payment can be settled. -/
theorem Order.later_payment {x : Order} (h : x.payment = .trying) (p : PaymentStatus) :
    x.Later { x with payment := p } :=
  ⟨rfl, rfl, fun hx => absurd h hx, fun hx => hx, fun _ => rfl, fun hx => hx⟩

theorem Order.later_escalated (x : Order) : x.Later { x with escalated := true } :=
  ⟨rfl, rfl, fun _ => rfl, fun hx => hx, fun _ => rfl, fun _ => rfl⟩

/-- A call that was needed marks its order with something new. -/
theorem Work.later_mark {j : Job} {w : World} {o : OrderRef} (h : needed j w = true)
    (ho : j.work.checked? = some o) : (w.order o).Later (j.work.mark (w.order o)) := by
  cases hj : j.work with
  | payment p =>
    rw [hj] at ho
    cases ho
    have hp : (w.order o).payment = .trying := by simpa [needed, hj] using h
    exact Order.later_payment hp .done
  | messaging p m =>
    rw [hj] at ho
    cases ho
    have hn : (w.order o).needsMessage m = true := by simpa [needed, hj] using h
    exact Order.later_sent hn
  | escalation p => exact Order.later_escalated _
  | shipping | add | drain | dequeue => exact .refl _

theorem Change.later {s : Setup} {w v : World} (h : Change s w v) (o : OrderRef) :
    (w.order o).Later (v.order o) := by
  cases h with
  | aside h =>
    have hv : v.order o = w.order o := by rw [World.order, World.order, h.orders]
    rw [hv]
    exact .refl _
  | notice p n _ => exact w.later_modifyOrder p o _ (Order.later_recordNotice _ n)
  | failed p hp =>
    refine w.later_modifyOrder p o _ ?_
    exact Order.later_payment hp .notDone
  | fulfilled j empty hn =>
    rw [order_fulfil]
    split
    · next h => exact Work.later_mark hn h.1
    · exact .refl _
  | crashed | visited | dropped => exact .refl _

theorem Change.length {s : Setup} {w v : World} (h : Change s w v) :
    v.orders.length = w.orders.length := by
  cases h with
  | aside h => rw [h.orders]
  | notice o n _ => exact w.length_modifyOrder o _
  | failed o _ => exact w.length_modifyOrder o _
  | fulfilled j empty _ => exact length_fulfil j.work empty w
  | crashed | visited | dropped => rfl

theorem World.Evolves.later {s : Setup} {w v : World} (h : w.Evolves s v)
    (hclock : w.clock ≤ World.lastClock) (o : OrderRef) : (w.order o).Later (v.order o) :=
  (h.preserves (P := fun u => (w.order o).Later (u.order o)) hclock
    (fun _ _ _ hc hu => hu.trans (hc.later o)) (fun _ _ _ _ hu => hu) (.refl _)).2

/-! ## Tasks -/

theorem Order.Later.needsMessage {x y : Order} (h : x.Later y) (m : MessageType)
    (hx : x.needsMessage m = false) : y.needsMessage m = false := by
  have terminal (ht : x.sent.isTerminal = true) : y.sent.isTerminal = true := by
    rw [h.terminal ht]
    exact ht
  cases m with
  | paymentTrying =>
    simp only [Order.needsMessage, Bool.and_eq_false_iff, decide_eq_false_iff_not] at hx ⊢
    obtain hp | hs := hx
    · exact Or.inl (by rw [h.payment hp]; exact hp)
    · exact Or.inr (h.some_sent hs)
  | paymentFail | paymentSuccess =>
    simp only [Order.needsMessage, Bool.not_eq_false'] at hx ⊢
    exact terminal hx

theorem Order.Later.settled {x y : Order} (h : x.Later y) (t : Task)
    (hx : t.isSettled x = true) : t.isSettled y = true := by
  cases htype : t.type with
  | payment =>
    simp only [Task.isSettled, htype, decide_eq_true_eq] at hx ⊢
    rw [h.payment hx]
    exact hx
  | messaging =>
    cases hm : t.message with
    | none => simp only [Task.isSettled, htype, hm]
    | some m =>
      simp only [Task.isSettled, htype, hm, Bool.not_eq_true'] at hx ⊢
      exact h.needsMessage m hx
  | employeeDb =>
    simp only [Task.isSettled, htype] at hx ⊢
    exact h.escalated hx

theorem Instant.since_mono {a b first : Instant} (h : a ≤ b) : a.since first ≤ b.since first :=
  Int.toNat_le_toNat (Int.sub_le_sub_right h first)

theorem Change.finished {s : Setup} {w v : World} (h : Change s w v)
    (hw : w.clock ≤ World.lastClock) {t : Task} (ht : t.Finished s w) : t.Finished s v := by
  obtain hs | ⟨first, hf, hs⟩ := ht
  · exact .inl ((h.later t.order).settled t hs)
  · refine .inr ⟨first, hf, Nat.le_trans hs (Instant.since_mono ?_)⟩
    exact Int.ofNat_le.mpr (h.timePasses hw).1

/-- A budget that is used up stays used up. -/
theorem World.Evolves.budgetExceeded {s : Setup} {w v : World} (h : w.Evolves s v)
    (hclock : w.clock ≤ World.lastClock) (o : OrderRef) (b : Span)
    (hw : w.budgetExceeded o b = true) : v.budgetExceeded o b = true := by
  have hP := h.preserves (P := fun u => w.clock ≤ u.clock) hclock
    (fun _ _ hu hc hle => Nat.le_trans hle (hc.timePasses hu).1) (fun _ _ _ _ hle => hle)
    (Nat.le_refl _)
  have hage : (w.order o).age w.now ≤ (v.order o).age v.now := by
    simp only [Order.age, (h.later hclock o).createdAt]
    exact Instant.since_mono (Int.ofNat_le.mpr hP.2)
  simp only [World.budgetExceeded, Order.budgetExceeded, decide_eq_true_eq] at hw ⊢
  exact Nat.le_trans hw hage

end Fulfilment
