import Fulfilment.Proofs.Stage.Fulfil

/-! The lock of an order makes no difference to a section that is performed as a whole: a guarded
body gives what the body gives by itself, because it neither reads the lock nor leaves it set. -/
namespace Fulfilment

set_option autoImplicit false

/-- A call with this reply is not interrupted, and takes no negative time. -/
structure Reply.Whole (s : Setup) (r : Reply) : Prop where
  uninterrupted : interrupts s r = false
  forward : 0 ≤ r.advance

/-- All scripted replies leave calls whole. -/
def World.Whole (s : Setup) (w : World) : Prop := ∀ e ∈ w.replies, e.2.Whole s

theorem Reply.whole_default (s : Setup) : ({} : Reply).Whole s := by
  refine ⟨?_, Int.le_refl _⟩
  simp [interrupts]

theorem World.whole_of_no_replies {s : Setup} {w : World} (h : w.replies = []) : w.Whole s := by
  intro e he
  rw [h] at he
  exact absurd he List.not_mem_nil

/-- No scripted reply lets other jobs run before the call returns, however long the call takes. -/
def World.Uninterrupted (s : Setup) (w : World) : Prop :=
  ∀ e ∈ w.replies, interrupts s e.2 = false

theorem World.Whole.uninterrupted {s : Setup} {w : World} (h : w.Whole s) : w.Uninterrupted s :=
  fun e he => (h e he).uninterrupted

theorem World.takeReply_cases (w : World) (k : CallKind) :
    w.takeReply k = ({}, w) ∨
      ∃ r, (k, r) ∈ w.replies ∧
        w.takeReply k = (r, { w with replies := w.replies.eraseP (·.1 = k) }) := by
  simp only [takeReply]
  cases hf : w.replies.find? (·.1 = k) with
  | none => exact Or.inl rfl
  | some e =>
    obtain ⟨k', r⟩ := e
    have hk : k' = k := by simpa using List.find?_some hf
    subst hk
    exact Or.inr ⟨r, List.mem_of_find?_eq_some hf, rfl⟩

theorem World.Whole.takeReply {s : Setup} {w : World} (h : w.Whole s) (k : CallKind) :
    (w.takeReply k).1.Whole s ∧ (w.takeReply k).2.Whole s := by
  obtain hk | ⟨r, hr, hk⟩ := w.takeReply_cases k
  · rw [hk]
    exact ⟨Reply.whole_default s, h⟩
  · rw [hk]
    exact ⟨h _ hr, fun e he => h e (List.mem_of_mem_eraseP he)⟩

theorem World.Uninterrupted.takeReply {s : Setup} {w : World} (h : w.Uninterrupted s)
    (k : CallKind) : interrupts s (w.takeReply k).1 = false := by
  obtain hk | ⟨r, hr, hk⟩ := w.takeReply_cases k
  · rw [hk]
    exact (Reply.whole_default s).uninterrupted
  · rw [hk]
    exact h _ hr

/-! ## Bodies do not read the lock -/

theorem needed_setLocked (j : Job) (w : World) (o : OrderRef) (b : Bool) :
    needed j (w.setLocked o b) = needed j w := by
  unfold needed
  cases j.work with
  | payment p => simp
  | messaging p m => simp [Order.needsMessage]
  | escalation p => simp
  | drain => rfl
  | shipping | add | dequeue => rfl

theorem callOf_setLocked (work : Work) (w : World) (o : OrderRef) (b : Bool) :
    callOf work (w.setLocked o b) = callOf work w := by
  cases work <;> simp [callOf]

theorem takeReply_setLocked (w : World) (o : OrderRef) (b : Bool) (k : CallKind) :
    (w.setLocked o b).takeReply k =
      ((w.takeReply k).1, (w.takeReply k).2.setLocked o b) := by
  have h : (w.setLocked o b).replies = w.replies := rfl
  simp only [World.takeReply, h]
  cases w.replies.find? (·.1 = k) <;> rfl

theorem modifyOrder_setLocked (w : World) (o : OrderRef) (b : Bool) (f : Order → Order)
    (hf : ∀ x : Order, f { x with locked := b } = { f x with locked := b }) :
    (w.setLocked o b).modifyOrder o f = (w.modifyOrder o f).setLocked o b := by
  rw [World.setLocked, World.setLocked, World.modifyOrder_modifyOrder,
    World.modifyOrder_modifyOrder]
  congr 1
  funext x
  exact hf x

theorem fulfil_setLocked (work : Work) (o : OrderRef) (ho : work.checked? = some o) (empty : Bool)
    (w : World) (b : Bool) :
    fulfil work empty (w.setLocked o b) =
      ((fulfil work empty w).1.setLocked o b, (fulfil work empty w).2) := by
  have hc : (w.setLocked o b).collaborators = w.collaborators := rfl
  have hn : (w.setLocked o b).now = w.now := rfl
  cases work with
  | payment p =>
    cases ho
    simp only [fulfil, callOf_setLocked, World.order_setLocked, hc, hn]
    generalize w.collaborators.pay (w.order o).price w.now = q
    simp only [World.setLocked, World.setPayment, World.modifyOrder, World.accept, World.record,
      World.remark, List.modify_modify_eq]
    rfl
  | messaging p m =>
    cases ho
    simp only [fulfil, callOf_setLocked, hc, hn]
    generalize w.collaborators.deliver m w.now = q
    simp only [World.setLocked, World.setSent, World.modifyOrder, World.accept, World.record,
      World.remark, List.modify_modify_eq]
    rfl
  | escalation p =>
    cases ho
    have hid : ∀ c, ({ w.setLocked o b with collaborators := c } : World).idOf o =
        ({ w with collaborators := c } : World).idOf o := fun _ => w.idOf_setLocked o o b
    simp only [fulfil, callOf_setLocked, World.snapshot_setLocked, hc, hid]
    generalize w.collaborators.park (w.order o).snapshot = q
    obtain ⟨new, c⟩ := q
    cases new <;>
    · simp only [World.setLocked, World.markEscalated, World.modifyOrder, World.accept,
        World.record, World.remark, List.modify_modify_eq, Bool.false_eq_true, if_true, if_false]
      rfl
  | shipping | add | drain | dequeue => cases ho

theorem answer_setLocked (work : Work) (o : OrderRef) (ho : work.checked? = some o) (r : Reply)
    (w : World) (b : Bool) :
    answer work r (w.setLocked o b) = ((answer work r w).1.setLocked o b, (answer work r w).2) := by
  simp only [answer, callOf_setLocked]
  split
  · rfl
  · cases r.failure with
    | some f => rfl
    | none => exact fulfil_setLocked work o ho r.empty w b

theorem checkAndCall_setLocked (s : Setup) (j : Job) (o : OrderRef) (ho : j.work.checked? = some o)
    (w : World) (b : Bool) :
    checkAndCall s j (w.setLocked o b) =
      ((checkAndCall s j w).1.setLocked o b, (checkAndCall s j w).2) := by
  simp only [checkAndCall, needed_setLocked, callOf_setLocked]
  have hr : ∀ e, (w.setLocked o b).record e = (w.record e).setLocked o b := fun _ => rfl
  split
  · rw [hr, takeReply_setLocked]
    have ha : ∀ (v : World) d, (v.setLocked o b).advance d = (v.advance d).setLocked o b :=
      fun _ _ => rfl
    simp only [ha]
    split
    · rfl
    · exact answer_setLocked j.work o ho _ _ b
  · rfl

/-! ## Bodies leave the lock as it was -/

theorem World.Unlocked.fulfil {w : World} (h : w.Unlocked) (work : Work) (empty : Bool) :
    (fulfil work empty w).1.Unlocked := by
  intro o
  have hm : (work.mark (w.order o)).locked = (w.order o).locked := by
    cases work <;> rfl
  rw [order_fulfil]
  split
  · rw [hm]
    exact h o
  · exact h o

theorem World.Unlocked.answer {w : World} (h : w.Unlocked) (work : Work) (r : Reply) :
    (answer work r w).1.Unlocked := by
  simp only [Fulfilment.answer]
  split
  · exact h.of_orders rfl
  · cases r.failure with
    | some f => exact h.of_orders rfl
    | none => exact h.fulfil work r.empty

theorem World.orders_takeReply (w : World) (k : CallKind) :
    (w.takeReply k).2.orders = w.orders := by
  obtain hk | ⟨r, -, hk⟩ := w.takeReply_cases k
  · rw [hk]
  · rw [hk]

theorem World.Unlocked.checkAndCall {w : World} (h : w.Unlocked) (s : Setup) (j : Job) :
    (checkAndCall s j w).1.Unlocked := by
  simp only [Fulfilment.checkAndCall]
  split
  · have ho : (((w.record (.called (callOf j.work w))).takeReply j.work.callKind).2.advance
        ((w.record (.called (callOf j.work w))).takeReply j.work.callKind).1.advance).Unlocked :=
      h.of_orders (World.orders_takeReply _ _)
    split
    · exact ho
    · exact ho.answer j.work _
  · exact h

/-! ## Guarded sections -/

theorem guarded_of_commutes {α : Type} (s : Setup) (o : OrderRef) (body : World → World × α)
    (w : World) (hw : (w.order o).locked = false) (hb : ((body w).1.order o).locked = false)
    (hc : body (w.setLocked o true) = ((body w).1.setLocked o true, (body w).2)) :
    guarded s (some o) body w = some (body w) := by
  simp only [guarded]
  cases s.config.consistency with
  | relaxed => rfl
  | serialized =>
    simp only [hw, hc, World.setLocked_setLocked _ _ hb, Bool.false_eq_true, if_false]

theorem guarded_checkAndCall (s : Setup) (j : Job) (w : World) (hw : w.Unlocked) :
    guarded s j.work.checked? (checkAndCall s j) w = some (checkAndCall s j w) := by
  cases ho : j.work.checked? with
  | none =>
    simp only [guarded]
    cases s.config.consistency <;> rfl
  | some o =>
    exact guarded_of_commutes s o _ w (hw o) (hw.checkAndCall s j o)
      (checkAndCall_setLocked s j o ho w true)

theorem World.Unlocked.failPending {w : World} (h : w.Unlocked) (o : OrderRef) :
    (failPending o w).1.Unlocked := by
  simp only [Fulfilment.failPending]
  split
  · exact h.modifyOrder o _ fun _ => rfl
  · exact h

theorem failPayment_eq (s : Setup) (o : OrderRef) (w : World) (hw : w.Unlocked) :
    failPayment s o w = some (failPending o w) := by
  refine guarded_of_commutes s o _ w (hw o) (hw.failPending o o) ?_
  simp only [failPending, World.order_setLocked]
  split
  · exact Prod.ext (modifyOrder_setLocked w o true _ fun _ => rfl) rfl
  · rfl

/-! ## Attempts -/

theorem World.popFault_of_none (w : World) (sv : Service) (h : (w.popFault sv).1 = none) :
    (w.popFault sv).2 = w := by
  simp only [popFault, FaultScripts.pop] at h ⊢
  cases hf : w.faults.get sv with
  | nil => simp only
  | cons f rest =>
    rw [hf] at h
    cases h

/-- An attempt without its lock: a scripted failure is met first, else check and call follow. -/
theorem attempt_eq (s : Setup) (j : Job) (n : UInt32) (w : World) (hw : w.Unlocked) :
    attempt s j n w =
      match w.popFault j.work.service with
      | (some f, v) => failed s j n f (v.remark (rejection j.work f v))
      | (none, _) => settle s j n (checkAndCall s j w).2 (checkAndCall s j w).1 := by
  have hnone := w.popFault_of_none j.work.service
  simp only [attempt]
  generalize w.popFault j.work.service = q at hnone ⊢
  obtain ⟨fault, v⟩ := q
  cases fault with
  | some f => rfl
  | none =>
    have hv : v = w := hnone rfl
    subst hv
    simp only [guarded_checkAndCall s j v hw]

end Fulfilment
