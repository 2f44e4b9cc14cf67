import Mathlib.Data.List.Perm.Subperm
import Fulfilment.Proofs.Employee.Handle

/-! Fresh keys: a request that is accepted is stored behind all earlier ones, and an order id that is
allocated was not in use.

* `Records.freshIndex?_isSome`: among one more keys than there are records, one is free.
* `Collaborators.values_recordFresh`: a collaborator keeps what it has and appends the new record.
* `Allocator.allocate?_fresh`: an allocated id comes from outside the register, which then has it. -/
namespace Fulfilment

set_option autoImplicit false

/-! ## Records -/

namespace Records

theorem values_push {κ ν : Type} (r : Records κ ν) (k : κ) (x : ν) :
    (r.push k x).values = r.values ++ [x] := by
  unfold values push
  rw [List.map_append]
  rfl

variable {κ ν : Type} [DecidableEq κ] {r : Records κ ν} {mint : Nat → κ}

/-- Where no free key is found, none of those looked at is free. -/
theorem contains_of_no_fresh {tries start : Nat} (h : r.freshIndex? mint tries start = none) :
    ∀ i < tries, mint (start + i) ∈ r.keys := by
  induction tries generalizing start with
  | zero =>
    intro i hi
    exact absurd hi (Nat.not_lt_zero i)
  | succ tries ih =>
    unfold freshIndex? at h
    split at h
    · next hstart =>
      intro i hi
      cases i with
      | zero => exact (r.contains_iff _).mp hstart
      | succ i =>
        have hrest := ih h i (Nat.lt_of_succ_lt_succ hi)
        rwa [Nat.add_right_comm] at hrest
    · cases h

theorem freshIndex?_isSome (hmint : Function.Injective mint) {tries : Nat} (htries : r.size < tries)
    (start : Nat) : (r.freshIndex? mint tries start).isSome = true := by
  rw [← Option.ne_none_iff_isSome]
  intro hnone
  have hkeys := contains_of_no_fresh hnone
  have hinj : Function.Injective fun i => mint (start + i) := by
    intro i j hij
    exact Nat.add_left_cancel (hmint hij)
  have hnodup : ((List.range tries).map fun i => mint (start + i)).Nodup :=
    List.nodup_range.map hinj
  have hsub : (List.range tries).map (fun i => mint (start + i)) ⊆ r.keys := by
    intro k hk
    obtain ⟨i, hi, rfl⟩ := List.mem_map.mp hk
    exact hkeys i (List.mem_range.mp hi)
  have hlength := (List.subperm_of_subset hnodup hsub).length_le
  simp only [List.length_map, List.length_range, keys] at hlength
  exact absurd htries (Nat.not_lt.mpr hlength)

end Records

/-! ## Collaborators -/

namespace Collaborators
variable {ν : Type}

theorem mint_injective (c : Collaborators) : Function.Injective c.mint := by
  intro i j hij
  have hvalue : c.lastId + 1 + i = c.lastId + 1 + j := congrArg TransactionId.value hij
  exact Nat.add_left_cancel hvalue

theorem values_recordFresh (c : Collaborators) (r : Records TransactionId ν)
    (build : TransactionId → ν) :
    ∃ id, (c.recordFresh r build).2.values = r.values ++ [build id] := by
  have hsome := Records.freshIndex?_isSome (r := r) c.mint_injective (Nat.lt_succ_self r.size) 0
  obtain ⟨i, hi⟩ := Option.isSome_iff_exists.mp hsome
  refine ⟨c.mint i, ?_⟩
  unfold recordFresh Records.insertFresh?
  rw [hi]
  exact r.values_push _ _

end Collaborators

/-! ## Order ids -/

theorem Register.reserve_eq (r : Register) (text : String) :
    r.reserve text = if text ∈ r.used then (false, r) else (true, ⟨text :: r.used⟩) := by
  unfold reserve contains
  simp only [List.contains_iff_mem]

namespace Allocator

theorem allocate?_fresh {a : Allocator} {tries : Nat} {r r' : Register} {d d' : Draws} {id : OrderId}
    (h : a.allocate? tries r d = some (id, r', d')) :
    id.text ∉ r.used ∧ r'.used = id.text :: r.used := by
  induction tries generalizing d with
  | zero => cases h
  | succ tries ih =>
    unfold allocate? at h
    generalize a.candidate d = q at h
    obtain ⟨text, e⟩ := q
    simp only [Register.reserve_eq] at h
    by_cases hused : text ∈ r.used
    · rw [if_pos hused] at h
      exact ih h
    · rw [if_neg hused] at h
      cases h
      exact ⟨hused, rfl⟩

end Allocator
end Fulfilment
