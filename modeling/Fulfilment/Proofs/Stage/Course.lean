import Fulfilment.Proofs.Stage.Change

/-! The courses an attempt can take: a scripted failure is met, nothing is left to do, the
collaborator fails, panics, accepts, or has no task to give. -/
namespace Fulfilment

set_option autoImplicit false

/-- What is changed by nothing but deeds, jobs and counting. -/
def World.holdings (w : World) :=
  (w.orders, w.collaborators, w.deeds, w.pending, w.queued, w.allowance, w.closed)

section Holdings
variable {w v : World} (h : v.holdings = w.holdings)
include h

theorem World.orders_of_holdings : v.orders = w.orders := congrArg (·.1) h

theorem World.collaborators_of_holdings : v.collaborators = w.collaborators := congrArg (·.2.1) h

theorem World.deeds_of_holdings : v.deeds = w.deeds := congrArg (·.2.2.1) h

theorem World.pending_of_holdings : v.pending = w.pending := congrArg (·.2.2.2.1) h

theorem World.queued_of_holdings : v.queued = w.queued := congrArg (·.2.2.2.2.1) h

theorem World.order_of_holdings (o : OrderRef) : v.order o = w.order o := by
  rw [order, order, orders_of_holdings h]

end Holdings

inductive Course (s : Setup) (j : Job) (n : UInt32) (w : World) : Outcome → Prop
  | fault (f : Failure) (rest : Faults) (v : World) (hf : w.faults.get j.work.service = f :: rest)
      (hfaults : v.faults = w.faults.set rest j.work.service) (hreplies : v.replies = w.replies)
      (hv : v.holdings = w.holdings) (hc : Changes s w v) (hclock : v.clock = w.clock) :
      Course s j n w (failed s j n f v)
  | skipped (hf : w.faults.get j.work.service = []) (hn : needed j w = false) :
      Course s j n w (skipped j w)
  | refused (r : Reply) (f : Failure) (v : World) (hr : (j.work.callKind, r) ∈ w.replies)
      (hf : r.failure = some f) (hfaults : v.faults = w.faults) (hv : v.holdings = w.holdings)
      (hc : Changes s w v) : Course s j n w (failed s j n f v)
  | panicked (r : Reply) (v : World) (hr : (j.work.callKind, r) ∈ w.replies)
      (hp : r.panics = true) (hv : v.holdings = w.holdings) :
      Course s j n w (.panic (v.record (.panicked (callOf j.work v))))
  | accepted (r : Receipt) (v : World) (empty : Bool) (hn : needed j v = true)
      (hf : w.faults.get j.work.service = []) (hfaults : v.faults = w.faults)
      (hv : v.holdings = w.holdings) (hr : (fulfil j.work empty v).2 = .accepted r)
      (hc : Changes s w v) : Course s j n w (succeeded s j r (fulfil j.work empty v).1)
  | emptied (v : World) (empty : Bool) (hn : needed j v = true) (hfaults : v.faults = w.faults)
      (hv : v.holdings = w.holdings) (hr : (fulfil j.work empty v).2 = .refused .queueEmpty)
      (hempty : empty = true → ∃ r, (j.work.callKind, r) ∈ w.replies)
      (hc : Changes s w v) : Course s j n w (failed s j n .queueEmpty (fulfil j.work empty v).1)

section Courses
variable {s : Setup}

theorem fulfil_verdict (work : Work) (empty : Bool) (w : World) :
    (∃ r, (fulfil work empty w).2 = .accepted r) ∨
      (fulfil work empty w).2 = .refused .queueEmpty := by
  cases work with
  | shipping | payment | messaging | escalation | add => exact .inl ⟨_, rfl⟩
  | drain =>
    simp only [fulfil]
    split
    · exact .inr rfl
    · cases w.collaborators.head? with
      | none => exact .inr rfl
      | some t => exact .inl ⟨_, rfl⟩
  | dequeue =>
    simp only [fulfil]
    cases w.collaborators.take? with
    | none => exact .inr rfl
    | some q => exact .inl ⟨_, rfl⟩

/-- The reply to a call is one that was scripted for it, or a plain one. -/
theorem called_reply (j : Job) (w : World) :
    ((called j w).1 = {} ∨ (j.work.callKind, (called j w).1) ∈ w.replies) ∧
      (called j w).2.faults = w.faults ∧ (called j w).2.holdings = w.holdings := by
  obtain h | ⟨r, hr, h⟩ := (w.record (.called (callOf j.work w))).takeReply_cases j.work.callKind
  · simp only [called, h]
    exact ⟨.inl trivial, rfl, rfl⟩
  · simp only [called, h]
    exact ⟨.inr hr, rfl, rfl⟩

theorem attempt_course (j : Job) (n : UInt32) (w : World) (hu : w.Unlocked) (hw : w.Whole s) :
    Course s j n w (attempt s j n w) := by
  rw [attempt_eq s j n w hu]
  have hchange := changes_popFault (s := s) w j.work.service
  cases hfaults : w.faults.get j.work.service with
  | cons f rest =>
    have hpop : w.popFault j.work.service =
        (some f, { w with faults := w.faults.set rest j.work.service }) := by
      simp only [World.popFault, FaultScripts.pop, hfaults]
    simp only [hpop] at hchange ⊢
    have hr := rejection_isDropping j.work f { w with faults := w.faults.set rest j.work.service }
    have hd := World.deeds_remark { w with faults := w.faults.set rest j.work.service } hr
    refine .fault f rest _ hfaults rfl rfl ?_ (hchange.trans (changes_remark _ hr)) rfl
    rw [World.holdings, hd]
    rfl
  | nil =>
    have hpop : w.popFault j.work.service = (none, w) := by
      simp only [World.popFault, FaultScripts.pop, hfaults]
    simp only [hpop]
    obtain ⟨hc, -, hn⟩ := called_changes (s := s) j w hw
    obtain ⟨hreply, hcf, hch⟩ := called_reply j w
    rw [checkAndCall_eq j w hw]
    by_cases hneeded : needed j w = true
    · rw [if_pos hneeded]
      rw [hneeded] at hn
      generalize called j w = q at hc hn hreply hcf hch ⊢
      obtain ⟨r, v⟩ := q
      simp only at hc hn hreply hcf hch ⊢
      simp only [answer]
      split
      · next hp =>
        obtain rfl | hr := hreply
        · cases hp
        · exact .panicked r v hr hp hch
      · cases hf : r.failure with
        | some f =>
          obtain rfl | hr := hreply
          · cases hf
          · exact .refused r f _ hr hf hcf hch (hc.trans (changes_record v rfl))
        | none =>
          obtain ⟨x, hx⟩ | hx := fulfil_verdict j.work r.empty v
          · simp only [hx]
            exact .accepted x v r.empty hn hfaults hcf hch hx hc
          · simp only [hx]
            refine .emptied v r.empty hn hcf hch hx ?_ hc
            intro hempty
            obtain rfl | hr := hreply
            · cases hempty
            · exact ⟨r, hr⟩
    · rw [if_neg hneeded]
      exact .skipped hfaults (by simpa using hneeded)

end Courses
end Fulfilment
