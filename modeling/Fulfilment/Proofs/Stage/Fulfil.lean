import Fulfilment.Proofs.World.Frame

/-! What an accepted call changes: the flags of its own order, the records of one collaborator, and
one deed for the journal. -/
namespace Fulfilment

set_option autoImplicit false

/-- What acceptance changes in the order of the work. -/
def Work.mark : Work → Order → Order
  | .payment _, x => { x with payment := .done }
  | .messaging _ m, x => { x with sent := .ofMessage m }
  | .escalation _, x => { x with escalated := true }
  | _, x => x

/-! ## Orders -/

theorem orders_fulfil (work : Work) (empty : Bool) (w : World) :
    (fulfil work empty w).1.orders =
      match work.checked? with
      | some o => w.orders.modify o work.mark
      | none => w.orders := by
  cases work with
  | shipping | payment | messaging | add => rfl
  | escalation o =>
    simp only [fulfil]
    generalize w.collaborators.park (w.order o).snapshot = q
    obtain ⟨new, c⟩ := q
    cases new <;> rfl
  | drain =>
    simp only [fulfil]
    split
    · rfl
    · cases w.collaborators.head? <;> rfl
  | dequeue =>
    simp only [fulfil]
    cases w.collaborators.take? <;> rfl

theorem order_fulfil (work : Work) (empty : Bool) (w : World) (o : OrderRef) :
    (fulfil work empty w).1.order o =
      if work.checked? = some o ∧ o < w.orders.length then work.mark (w.order o)
      else w.order o := by
  have h := orders_fulfil work empty w
  cases hc : work.checked? with
  | none =>
    rw [hc] at h
    simp [World.order, h]
  | some p =>
    rw [hc] at h
    have hm : (fulfil work empty w).1.order o = (w.modifyOrder p work.mark).order o := by
      rw [World.order, World.order, h, World.modifyOrder]
    rw [hm, World.order_modifyOrder]
    by_cases hp : o = p
    · subst hp
      simp
    · have hne : ¬ p = o := fun he => hp he.symm
      simp [hp, hne]

theorem length_fulfil (work : Work) (empty : Bool) (w : World) :
    (fulfil work empty w).1.orders.length = w.orders.length := by
  rw [orders_fulfil]
  cases work.checked? with
  | none => rfl
  | some o => exact List.length_modify ..

/-! ## Collaborators -/

theorem collaborators_fulfil (work : Work) (empty : Bool) (w : World) :
    (fulfil work empty w).1.collaborators =
      match work with
      | .shipping o =>
        (w.collaborators.ship (w.order o).item (w.order o).customer.address w.now).2
      | .payment o => (w.collaborators.pay (w.order o).price w.now).2
      | .messaging _ m => (w.collaborators.deliver m w.now).2
      | .escalation o => (w.collaborators.park (w.order o).snapshot).2
      | .add t => w.collaborators.add t
      | .drain => w.collaborators
      | .dequeue => { w.collaborators with store := w.collaborators.store.tail } := by
  cases work with
  | shipping | payment | messaging | add => rfl
  | escalation o =>
    simp only [fulfil]
    generalize w.collaborators.park (w.order o).snapshot = q
    obtain ⟨new, c⟩ := q
    cases new <;> rfl
  | drain =>
    simp only [fulfil]
    split
    · rfl
    · cases w.collaborators.head? <;> rfl
  | dequeue =>
    simp only [fulfil, Collaborators.take?]
    cases hs : w.collaborators.store with
    | nil =>
      show w.collaborators = { w.collaborators with store := [] }
      rw [← hs]
    | cons t rest => rfl

theorem store_fulfil (work : Work) (empty : Bool) (w : World) :
    (fulfil work empty w).1.collaborators.store =
      match work with
      | .add t => w.collaborators.store ++ [t]
      | .dequeue => w.collaborators.store.tail
      | _ => w.collaborators.store := by
  rw [collaborators_fulfil]
  cases work <;> rfl

theorem employee_fulfil (work : Work) (empty : Bool) (w : World) :
    (fulfil work empty w).1.collaborators.employee =
      match work with
      | .escalation o =>
        (w.collaborators.employee.insertIfAbsent (w.idOf o) (w.order o).snapshot).2
      | _ => w.collaborators.employee := by
  rw [collaborators_fulfil]
  cases work <;> rfl

/-! ## Everything else -/

/-- What no call touches. -/
def World.surroundings (w : World) :=
  (w.clock, w.faults, w.replies, w.queued, w.pending, w.allowance, w.closed, w.draws)

theorem surroundings_fulfil (work : Work) (empty : Bool) (w : World) :
    (fulfil work empty w).1.surroundings = w.surroundings := by
  cases work with
  | shipping | payment | messaging | add => rfl
  | escalation o =>
    simp only [fulfil]
    generalize w.collaborators.park (w.order o).snapshot = q
    obtain ⟨new, c⟩ := q
    cases new <;> rfl
  | drain =>
    simp only [fulfil]
    split
    · rfl
    · cases w.collaborators.head? <;> rfl
  | dequeue =>
    simp only [fulfil]
    cases w.collaborators.take? <;> rfl

theorem fulfil_clock (work : Work) (empty : Bool) (w : World) :
    (fulfil work empty w).1.clock = w.clock :=
  congrArg (·.1) (surroundings_fulfil work empty w)

theorem fulfil_faults (work : Work) (empty : Bool) (w : World) :
    (fulfil work empty w).1.faults = w.faults :=
  congrArg (·.2.1) (surroundings_fulfil work empty w)

theorem fulfil_replies (work : Work) (empty : Bool) (w : World) :
    (fulfil work empty w).1.replies = w.replies :=
  congrArg (·.2.2.1) (surroundings_fulfil work empty w)

theorem fulfil_queued (work : Work) (empty : Bool) (w : World) :
    (fulfil work empty w).1.queued = w.queued :=
  congrArg (·.2.2.2.1) (surroundings_fulfil work empty w)

theorem fulfil_pending (work : Work) (empty : Bool) (w : World) :
    (fulfil work empty w).1.pending = w.pending :=
  congrArg (·.2.2.2.2.1) (surroundings_fulfil work empty w)

theorem fulfil_allowance (work : Work) (empty : Bool) (w : World) :
    (fulfil work empty w).1.allowance = w.allowance :=
  congrArg (·.2.2.2.2.2.1) (surroundings_fulfil work empty w)

theorem fulfil_closed (work : Work) (empty : Bool) (w : World) :
    (fulfil work empty w).1.closed = w.closed :=
  congrArg (·.2.2.2.2.2.2.1) (surroundings_fulfil work empty w)

theorem fulfil_draws (work : Work) (empty : Bool) (w : World) :
    (fulfil work empty w).1.draws = w.draws :=
  congrArg (·.2.2.2.2.2.2.2) (surroundings_fulfil work empty w)

/-! ## Deeds -/

theorem deeds_fulfil (work : Work) (empty : Bool) (w : World) (hd : work ≠ .drain)
    (hq : work ≠ .dequeue) :
    ∃ r, (fulfil work empty w).1.deeds = .answered (callOf work w) r :: w.deeds := by
  cases work with
  | drain => exact absurd rfl hd
  | dequeue => exact absurd rfl hq
  | shipping | payment | messaging | add => exact ⟨_, rfl⟩
  | escalation o =>
    simp only [fulfil]
    generalize w.collaborators.park (w.order o).snapshot = q
    obtain ⟨new, c⟩ := q
    cases new <;> exact ⟨_, rfl⟩

theorem deeds_fulfil_drain (empty : Bool) (w : World) :
    (fulfil .drain empty w).1.deeds = w.deeds := by
  simp only [fulfil]
  split
  · rfl
  · cases w.collaborators.head? <;> rfl

theorem deeds_fulfil_dequeue (empty : Bool) (w : World) :
    (fulfil .dequeue empty w).1.deeds =
      match w.collaborators.head? with
      | none => w.deeds
      | some t => .answered .dequeue (.taken t) :: w.deeds := by
  simp only [fulfil, Collaborators.take?, Collaborators.head?]
  cases w.collaborators.store <;> rfl

end Fulfilment
