import Fulfilment.Proofs.Stage.Change

/-! What an action leaves to do. No attempt is left half done as long as calls are not interrupted,
and each attempt stands right before the end of its job or placement, which is where a panic in it
goes. -/
namespace Fulfilment

set_option autoImplicit false

/-! ## Agendas -/

/-- Where a panic goes no further. -/
def Action.isEnd : Action → Bool
  | .finish _ => true
  | .placed _ => true
  | _ => false

/-- Every attempt is whole, and the next thing after it is its end. -/
def bracketed : List Action → Bool
  | [] => true
  | .conclude _ _ _ :: _ => false
  | .attempt _ _ :: rest => rest.head?.any Action.isEnd && bracketed rest
  | _ :: rest => bracketed rest

theorem bracketed_tail {a : Action} {rest : List Action} (h : bracketed (a :: rest) = true) :
    bracketed rest = true := by
  cases a with
  | attempt j n =>
    simp only [bracketed, Bool.and_eq_true] at h
    exact h.2
  | conclude j n r => cases h
  | _ => exact h

theorem bracketed_head {a : Action} {rest : List Action} (h : bracketed (a :: rest) = true) :
    a.isWhole = true := by
  cases a with
  | conclude j n r => cases h
  | _ => rfl

theorem bracketed_append {todo rest : List Action} (ht : bracketed todo = true)
    (hr : bracketed rest = true) : bracketed (todo ++ rest) = true := by
  induction todo with
  | nil => exact hr
  | cons a todo ih =>
    have hi := ih (bracketed_tail ht)
    cases a with
    | attempt j n =>
      simp only [bracketed, Bool.and_eq_true] at ht
      simp only [List.cons_append, bracketed, Bool.and_eq_true]
      refine ⟨?_, hi⟩
      cases todo with
      | nil => cases ht.1
      | cons b todo => exact ht.1
    | conclude j n r => cases ht
    | _ => exact hi

/-- After an attempt comes an end. -/
theorem bracketed_attempt {j : Job} {n : UInt32} {rest : List Action}
    (h : bracketed (.attempt j n :: rest) = true) :
    ∃ a more, a.isEnd = true ∧ rest = a :: more ∧ bracketed more = true := by
  simp only [bracketed, Bool.and_eq_true] at h
  cases rest with
  | nil => cases h.1
  | cons a more => exact ⟨a, more, h.1, rfl, bracketed_tail h.2⟩

theorem bracketed_retry {j : Job} {n m : UInt32} {d : Span} {rest : List Action}
    (h : bracketed (.attempt j n :: rest) = true) :
    bracketed ([.pause d, .attempt j m] ++ rest) = true :=
  h

/-! ## Outcomes -/

/-- All that is left to do is bracketed in itself. -/
def Outcome.closes : Outcome → Bool
  | .next _ todo => bracketed todo
  | .panic _ => false
  | .stuck _ => true

section Todo
variable {s : Setup}

theorem launch_closes (j : Job) (w : World) : (launch s j w).closes = true := by
  simp only [launch]
  split
  · rfl
  · split <;> rfl
  · rfl

theorem spawn_closes (j : Job) (w : World) : (spawn s j w).closes = true := by
  simp only [spawn]
  split
  · rfl
  · split
    · rfl
    · exact launch_closes j _

theorem handOver_closes (j : Job) (f : Failure) (w : World) : (handOver s j f w).closes = true := by
  simp only [handOver, shippingFailed, paymentFailed, messagingFailed, escalationFailed, addFailed]
  repeat' split
  all_goals rfl

theorem succeeded_closes (j : Job) (r : Receipt) (w : World) :
    (succeeded s j r w).closes = true := by
  simp only [succeeded, visit]
  repeat' split
  all_goals rfl

theorem skipped_closes (j : Job) (w : World) : (skipped j w).closes = true := by
  simp only [skipped]
  split <;> rfl

/-- What an attempt can come to besides its end: another one after a pause, or a panic. -/
def Outcome.attempts (j : Job) (n : UInt32) (x : Outcome) : Prop :=
  x.closes = true ∨ (∃ v d, x = .next v [.pause d, .attempt j (n + 1)]) ∨ ∃ v, x = .panic v

theorem failed_attempts (j : Job) (n : UInt32) (f : Failure) (w : World) :
    (failed s j n f w).attempts j n := by
  simp only [failed]
  split
  · exact .inr (.inl ⟨_, _, rfl⟩)
  · exact .inl (handOver_closes j f w)

theorem checkAndCall_uninterrupted (j : Job) (w : World) (hw : w.Whole s) (r : Reply) :
    (checkAndCall s j w).2 ≠ .interrupted r := by
  rw [checkAndCall_eq j w hw]
  split
  · simp only [answer, fulfil]
    repeat' split
    all_goals exact Verdict.noConfusion
  · exact Verdict.noConfusion

theorem settle_attempts (j : Job) (n : UInt32) (v : Verdict) (w : World)
    (hv : ∀ r, v ≠ .interrupted r) : (settle s j n v w).attempts j n := by
  cases v with
  | skipped => exact .inl (skipped_closes j w)
  | accepted r => exact .inl (succeeded_closes j r w)
  | refused f => exact failed_attempts j n f w
  | panicked => exact .inr (.inr ⟨w, rfl⟩)
  | interrupted r => exact absurd rfl (hv r)

theorem attempt_attempts (j : Job) (n : UInt32) (w : World) (hu : w.Unlocked) (hw : w.Whole s) :
    (attempt s j n w).attempts j n := by
  rw [attempt_eq s j n w hu]
  split
  · exact failed_attempts j n _ _
  · exact settle_attempts j n _ _ (checkAndCall_uninterrupted j w hw)

theorem perform_closes (a : Action) (w : World) (ha : a.isWhole = true)
    (hj : ∀ j n, a ≠ .attempt j n) : (perform s a w).closes = true := by
  cases a with
  | place | escalateTask | finish | placed => rfl
  | conclude => cases ha
  | attempt j n => exact absurd rfl (hj j n)
  | pay c o =>
    simp only [perform, pay]
    repeat' split
    all_goals first | rfl | exact spawn_closes _ _
  | tell c o m =>
    simp only [perform, tell]
    split
    · rfl
    · exact spawn_closes _ _
  | escalate c o =>
    simp only [perform, escalate]
    split
    · rfl
    · exact spawn_closes _ _
  | enqueue c t =>
    simp only [perform, enqueue]
    repeat' split
    all_goals first | rfl | exact spawn_closes _ _
  | deferPayment c o =>
    simp only [perform, deferPayment]
    split <;> rfl
  | drain c | dequeue c =>
    simp only [perform]
    split
    · exact spawn_closes _ _
    · rfl
  | settleDrain c =>
    simp only [perform, settleDrain]
    split <;> rfl
  | pause d =>
    have hserve : bracketed (if s.dispatch = .deferred ∧ 0 < s.sleepRuns then
        [.serve s.sleepRuns] else []) = true := by
      split <;> rfl
    exact hserve
  | serve count =>
    obtain h | ⟨n, v, todo, hs, -, h⟩ := serve_cases (s := s) count w
    · rw [h]
      rfl
    · obtain ⟨j, -, rfl, -⟩ := startAt_cases 0 w v todo hs
      rw [h]
      rfl

/-- A bracketed agenda is bracketed after its first action as well. -/
theorem bracketed_perform (a : Action) (rest : List Action) (w v : World) (todo : List Action)
    (hu : w.Unlocked) (hw : w.Whole s) (ha : bracketed (a :: rest) = true)
    (hp : perform s a w = .next v todo) : bracketed (todo ++ rest) = true := by
  by_cases hj : ∃ j n, a = .attempt j n
  · obtain ⟨j, n, rfl⟩ := hj
    have hp' : attempt s j n w = .next v todo := hp
    obtain h | ⟨v', d, h⟩ | ⟨v', h⟩ := attempt_attempts (s := s) j n w hu hw
    · rw [hp'] at h
      exact bracketed_append h (bracketed_tail ha)
    · rw [hp'] at h
      cases h
      exact bracketed_retry ha
    · rw [hp'] at h
      cases h
  · have h := perform_closes (s := s) a w (bracketed_head ha) fun j n he => hj ⟨j, n, he⟩
    rw [hp] at h
    exact bracketed_append h (bracketed_tail ha)

/-- Only an attempt panics. -/
theorem panic_attempt (a : Action) (w v : World) (ha : a.isWhole = true)
    (hp : perform s a w = .panic v) : ∃ j n, a = .attempt j n := by
  by_cases hj : ∃ j n, a = .attempt j n
  · exact hj
  · have h := perform_closes (s := s) a w ha fun j n he => hj ⟨j, n, he⟩
    rw [hp] at h
    cases h

end Todo
end Fulfilment
