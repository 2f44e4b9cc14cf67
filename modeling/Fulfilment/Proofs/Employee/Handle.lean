import Mathlib.Data.List.Nodup
import Fulfilment.Proofs.Stage.Progress

/-! What the employee handle holds: at most one record for an order, and one for every order that is
marked as escalated. -/
namespace Fulfilment

set_option autoImplicit false

/-! ## Records -/

namespace Records
variable {κ ν : Type}

/-- The keys of the records, in the order of their insertion. -/
def keys (r : Records κ ν) : List κ := r.entries.map (·.1)

variable [DecidableEq κ]

theorem contains_iff (r : Records κ ν) (k : κ) : r.contains k = true ↔ k ∈ r.keys := by
  simp only [contains, get?, keys, List.lookup_isSome_iff, List.mem_map]
  constructor
  · rintro ⟨e, he, hk⟩
    exact ⟨e, he, (beq_iff_eq.mp hk).symm⟩
  · rintro ⟨e, he, hk⟩
    exact ⟨e, he, beq_iff_eq.mpr hk.symm⟩

theorem keys_insertIfAbsent (r : Records κ ν) (k : κ) (x : ν) :
    (r.insertIfAbsent k x).2.keys = if k ∈ r.keys then r.keys else r.keys ++ [k] := by
  simp only [insertIfAbsent, ← contains_iff]
  split
  · rfl
  · simp only [keys, push, List.map_append, List.map_cons, List.map_nil]

end Records

/-! ## Orders with an employee -/

/-- Some employee has the order. -/
def World.informed (w : World) (o : OrderRef) : Bool := w.collaborators.employee.contains (w.idOf o)

/-- The records of the handle under the id of the order. -/
def World.handed (w : World) (o : OrderRef) : Nat :=
  w.collaborators.employee.keys.count (w.idOf o)

/-- An order that is marked as escalated is with an employee. -/
def World.Parks (o : OrderRef) (w : World) : Prop :=
  (w.order o).escalated = true → w.informed o = true

/-- No order was handed over twice. -/
def World.Distinct (w : World) : Prop := w.collaborators.employee.keys.Nodup

theorem World.Parks.handed {w : World} {o : OrderRef} (h : w.Parks o) (hd : w.Distinct)
    (he : (w.order o).escalated = true) : w.handed o = 1 := by
  have hi := h he
  rw [informed, Records.contains_iff] at hi
  exact List.count_eq_one_of_mem hd hi

/-! ## One change -/

/-- The handle and the marks are left alone, or an order is handed over and marked. -/
inductive HandleMoves (w v : World) : Prop
  | kept (hk : v.collaborators.employee.keys = w.collaborators.employee.keys)
      (he : ∀ o, (v.order o).escalated = (w.order o).escalated)
  | handed (p : OrderRef)
      (hk : v.collaborators.employee.keys =
        if w.idOf p ∈ w.collaborators.employee.keys then w.collaborators.employee.keys
        else w.collaborators.employee.keys ++ [w.idOf p])
      (he : ∀ o, o ≠ p → (v.order o).escalated = (w.order o).escalated)

theorem Change.handle {s : Setup} {w v : World} (h : Change s w v) : HandleMoves w v := by
  cases h with
  | aside h =>
    refine .kept (by rw [h.collaborators]) fun o => ?_
    rw [World.order, World.order, h.orders]
  | notice p n _ =>
    refine .kept rfl fun o => World.order_modifyOrder_congr Order.escalated w p o _ fun x => ?_
    cases hx : x.notice <;> simp only [Order.recordNotice, hx]
  | failed p _ =>
    exact .kept rfl fun o => World.order_modifyOrder_congr Order.escalated w p o _ fun _ => rfl
  | crashed | dropped => exact .kept rfl fun _ => rfl
  | visited =>
    refine .kept ?_ fun _ => rfl
    simp only [Collaborators.markHead]
    cases w.collaborators.store <;> rfl
  | fulfilled j empty _ =>
    have hemployee := employee_fulfil j.work empty w
    have hord := order_fulfil j.work empty w
    cases hj : j.work with
    | escalation p =>
      rw [hj] at hemployee hord
      refine .handed p ?_ fun o hne => ?_
      · rw [hemployee]
        exact Records.keys_insertIfAbsent _ _ _
      · have hother : ¬ (some p = some o ∧ o < w.orders.length) :=
          fun h => hne (Option.some.inj h.1).symm
        exact congrArg Order.escalated ((hord o).trans (if_neg hother))
    | messaging | payment | shipping | add | drain | dequeue =>
      rw [hj] at hemployee hord
      refine .kept (by rw [hemployee]) fun o => ?_
      rw [hord]
      split <;> rfl

theorem Change.parks {s : Setup} {w v : World} (h : Change s w v) {o : OrderRef}
    (hw : w.Parks o) : v.Parks o := by
  have hid : v.idOf o = w.idOf o := (h.later o).id
  intro hv
  rw [World.informed, Records.contains_iff, hid]
  have known (he : (v.order o).escalated = (w.order o).escalated) :
      w.idOf o ∈ w.collaborators.employee.keys := by
    rw [he] at hv
    have hi := hw hv
    rw [World.informed, Records.contains_iff] at hi
    exact hi
  cases h.handle with
  | kept hk he =>
    rw [hk]
    exact known (he o)
  | handed p hk he =>
    rw [hk]
    by_cases hpo : o = p
    · subst hpo
      split
      · assumption
      · exact List.mem_append_right _ (List.mem_singleton.mpr rfl)
    · have hmem := known (he o hpo)
      split
      · exact hmem
      · exact List.mem_append_left _ hmem

theorem Change.distinct {s : Setup} {w v : World} (h : Change s w v) (hw : w.Distinct) :
    v.Distinct := by
  simp only [World.Distinct] at hw ⊢
  cases h.handle with
  | kept hk _ =>
    rw [hk]
    exact hw
  | handed p hk _ =>
    rw [hk]
    split
    · exact hw
    · next hnew => exact List.nodup_append_comm.mp (List.nodup_cons.mpr ⟨hnew, hw⟩)

/-! ## Runs -/

theorem World.Evolves.parks {s : Setup} {w v : World} (h : w.Evolves s v)
    (hclock : w.clock ≤ World.lastClock) {o : OrderRef} (hw : w.Parks o) : v.Parks o :=
  (h.preserves hclock (fun _ _ _ hc hu => hc.parks hu) (fun _ _ _ _ hu => hu) hw).2

theorem World.Evolves.distinct {s : Setup} {w v : World} (h : w.Evolves s v)
    (hclock : w.clock ≤ World.lastClock) (hw : w.Distinct) : v.Distinct :=
  (h.preserves hclock (fun _ _ _ hc hu => hc.distinct hu) (fun _ _ _ _ hu => hu) hw).2

end Fulfilment
