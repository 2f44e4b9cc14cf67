import Fulfilment.Rehearsal
import Fulfilment.Proofs.Stage.Progress
import Fulfilment.Proofs.System

/-! Histories: runs in which customers place new orders as well.

* `Happening`: a move, or an order that comes in.
* `System.after?`: the system after a list of happenings; nobody asks for an order that is not
  there.
* `System.total`: the sum of what is counted at each happening.
* `System.Orderly.happen`: a happening leaves the system orderly, and every order there was is the
  same one, possibly later. -/
namespace Fulfilment

set_option autoImplicit false

def Request.order : Request → OrderRef
  | .place _ o => o
  | .pay _ o => o
  | .tell _ o _ => o
  | .escalate _ o => o
  | .enqueue _ t => t.order

inductive Happening where
  | move (m : Move)
  /-- A customer orders an item, and the order is placed on a thread of its own. -/
  | order (c : CoordinatorRef) (customer : Customer) (item : String) (price : Float)

/-- The replies that a happening scripts leave calls whole. -/
def Happening.Whole (s : Setup) : Happening → Prop
  | .move m => m.Whole s
  | .order _ _ _ _ => True

namespace System

/-- Nothing if no id is left for the order. -/
def order? (s : Setup) (c : CoordinatorRef) (customer : Customer) (item : String) (price : Float)
    (σ : System) : Option System :=
  (Rehearsal.newOrder? s customer item price σ.world).map fun (_, w) =>
    ⟨w, σ.threads ++ [[.place c σ.world.orders.length]]⟩

def happen? (s : Setup) (h : Happening) (σ : System) : Option System :=
  match h with
  | .move (.ask q) => if q.order < σ.world.orders.length then σ.move? s (.ask q) else none
  | .move m => σ.move? s m
  | .order c customer item price => σ.order? s c customer item price

def after? (s : Setup) : List Happening → System → Option System
  | [], σ => some σ
  | h :: happenings, σ => (σ.happen? s h).bind (after? s happenings)

section Histories
variable {s : Setup} {σ τ : System} {h : Happening}

/-- What every happening preserves holds at the end. -/
theorem after?_induct {P : System → Prop} {happenings : List Happening}
    (step : ∀ h ∈ happenings, ∀ σ τ, σ.happen? s h = some τ → P σ → P τ)
    (hτ : after? s happenings σ = some τ) (hσ : P σ) : P τ := by
  induction happenings generalizing σ with
  | nil =>
    cases hτ
    exact hσ
  | cons h happenings ih =>
    simp only [after?, Option.bind_eq_some_iff] at hτ
    obtain ⟨υ, hh, hτ⟩ := hτ
    have hυ : P υ := step h (List.mem_cons_self ..) σ υ hh hσ
    exact ih (fun k hk => step k (List.mem_cons_of_mem _ hk)) hτ hυ

theorem after?_append {υ : System} {before after : List Happening}
    (hυ : after? s before σ = some υ) (hτ : after? s (before ++ after) σ = some τ) :
    after? s after υ = some τ := by
  induction before generalizing σ with
  | nil =>
    cases hυ
    exact hτ
  | cons h before ih =>
    simp only [after?, List.cons_append, Option.bind_eq_some_iff] at hυ hτ
    obtain ⟨ω, hω, hυ⟩ := hυ
    obtain ⟨ω', hω', hτ⟩ := hτ
    rw [hω] at hω'
    cases hω'
    exact ih hυ hτ

/-! ## Sums -/

/-- The sum of what is counted at each happening of a history. -/
def total (s : Setup) (f : System → Happening → System → Nat) : List Happening → System → Nat
  | [], _ => 0
  | h :: happenings, σ =>
    match σ.happen? s h with
    | none => 0
    | some τ => f σ h τ + total s f happenings τ

theorem total_cons {f : System → Happening → System → Nat} (happenings : List Happening)
    (hτ : σ.happen? s h = some τ) :
    total s f (h :: happenings) σ = f σ h τ + total s f happenings τ := by
  rw [total, hτ]

/-- What every happening preserves, knowing how much is still to be counted, holds at the end of
the first part of a history. -/
theorem after?_total {P : System → Nat → Prop} {f : System → Happening → System → Nat}
    {happenings : List Happening} (rest : List Happening)
    (step : ∀ h ∈ happenings, ∀ σ τ n, σ.happen? s h = some τ → P σ (f σ h τ + n) → P τ n)
    (hτ : after? s happenings σ = some τ) (hσ : P σ (total s f (happenings ++ rest) σ)) :
    P τ (total s f rest τ) := by
  induction happenings generalizing σ with
  | nil =>
    cases hτ
    exact hσ
  | cons h happenings ih =>
    simp only [after?, Option.bind_eq_some_iff] at hτ
    obtain ⟨υ, hh, hτ⟩ := hτ
    rw [List.cons_append, total_cons _ hh] at hσ
    have hυ := step h (List.mem_cons_self ..) σ υ _ hh hσ
    exact ih (fun k hk => step k (List.mem_cons_of_mem _ hk)) hτ hυ

/-! ## One happening -/

/-- The order that was placed is new in every respect. -/
def Fresh (x : Order) : Prop :=
  x.payment = .trying ∧ x.sent = .noneSent ∧ x.escalated = false ∧ x.locked = false

inductive Happens (s : Setup) (σ τ : System) : Happening → Prop
  | moved (m : Move) (hq : ∀ q, m = .ask q → q.order < σ.world.orders.length)
      (hm : σ.move? s m = some τ) : Happens s σ τ (.move m)
  | ordered (c : CoordinatorRef) (customer : Customer) (item : String) (price : Float) (x : Order)
      (ids : Register) (draws : Draws) (hx : Fresh x)
      (hτ : τ = ⟨Rehearsal.addOrder x { σ.world with ids, draws },
        σ.threads ++ [[.place c σ.world.orders.length]]⟩) :
      Happens s σ τ (.order c customer item price)

theorem happens_of_some (hτ : σ.happen? s h = some τ) : Happens s σ τ h := by
  cases h with
  | move m =>
    cases m with
    | ask q =>
      simp only [happen?] at hτ
      split at hτ
      · next hq =>
        refine .moved (.ask q) (fun q' he => ?_) hτ
        cases he
        exact hq
      · cases hτ
    | act | start | pass | fault | reply => exact .moved _ (fun q he => by cases he) hτ
  | order c customer item price =>
    simp only [happen?, order?, Rehearsal.newOrder?, Option.map_map] at hτ
    obtain ⟨⟨id, ids, draws⟩, -, rfl⟩ := Option.map_eq_some_iff.mp hτ
    exact .ordered c customer item price _ ids draws ⟨rfl, rfl, rfl, rfl⟩ rfl

end Histories
end System

/-! ## New orders -/

theorem World.order_addOrder (w : World) (x : Order) (ids : Register) (draws : Draws)
    (o : OrderRef) :
    (Rehearsal.addOrder x { w with ids, draws }).order o =
      if o = w.orders.length then x else w.order o := by
  simp only [order, Rehearsal.addOrder, List.getD_eq_getElem?_getD]
  by_cases ho : o = w.orders.length
  · subst ho
    simp
  · rw [if_neg ho]
    by_cases hlt : o < w.orders.length
    · rw [List.getElem?_append_left hlt]
    · have hle : w.orders.length ≤ o := Nat.le_of_not_lt hlt
      have hbeyond : (w.orders ++ [x]).length ≤ o := by
        rw [List.length_append, List.length_singleton]
        exact Nat.lt_of_le_of_ne hle (Ne.symm ho)
      rw [List.getElem?_eq_none hbeyond, List.getElem?_eq_none hle]

theorem World.order_beyond (w : World) {o : OrderRef} (ho : w.orders.length ≤ o) :
    w.order o = default := by
  simp only [order, List.getD_eq_getElem?_getD, List.getElem?_eq_none ho, Option.getD_none]

theorem World.Evolves.length {s : Setup} {w v : World} (h : w.Evolves s v)
    (hclock : w.clock ≤ World.lastClock) : v.orders.length = w.orders.length :=
  (h.preserves (P := fun u => u.orders.length = w.orders.length) hclock
    (fun _ _ _ hc hu => hc.length.trans hu) (fun _ _ _ _ hu => hu) rfl).2

namespace System
variable {s : Setup} {σ τ : System} {h : Happening}

/-! ## Orderly histories -/

theorem Orderly.happen (hσ : σ.Orderly s) (hw : h.Whole s) (hτ : σ.happen? s h = some τ) :
    τ.Orderly s := by
  cases happens_of_some hτ with
  | moved m _ hm => exact (hσ.move hw hm).2
  | ordered c customer item price x ids draws hx hυ =>
    subst hυ
    refine ⟨hσ.clock, fun o => ?_, hσ.replies, fun a ha => ?_⟩
    · rw [World.order_addOrder]
      split
      · exact hx.2.2.2
      · exact hσ.unlocked o
    · obtain ha | ha := List.mem_append.mp ha
      · exact hσ.threads a ha
      · rw [List.mem_singleton.mp ha]
        rfl

theorem Orderly.open_happen (hσ : σ.Orderly s) (hτ : σ.happen? s h = some τ)
    (ho : σ.world.Open) : τ.world.Open := by
  cases happens_of_some hτ with
  | moved m _ hm => exact hσ.open_move hm ho
  | ordered c customer item price x ids draws hx hυ =>
    subst hυ
    exact ho

theorem Orderly.later (hσ : σ.Orderly s) (hw : h.Whole s) (hτ : σ.happen? s h = some τ)
    {o : OrderRef} (ho : o < σ.world.orders.length) :
    (σ.world.order o).Later (τ.world.order o) ∧ o < τ.world.orders.length := by
  cases happens_of_some hτ with
  | moved m _ hm =>
    have he := (hσ.move hw hm).1
    exact ⟨he.later hσ.clock o, by rw [he.length hσ.clock]; exact ho⟩
  | ordered c customer item price x ids draws hx hυ =>
    subst hυ
    rw [World.order_addOrder, if_neg (Nat.ne_of_lt ho)]
    refine ⟨.refl _, ?_⟩
    simp only [Rehearsal.addOrder, List.length_append]
    exact Nat.lt_add_right 1 ho

/-- A reply that is scripted was scripted before, or is scripted by the happening. -/
theorem Orderly.replies_happen (hσ : σ.Orderly s) (hτ : σ.happen? s h = some τ) {k : CallKind}
    {r : Reply} (hr : (k, r) ∈ τ.world.replies) :
    (k, r) ∈ σ.world.replies ∨ h = .move (.reply k r) := by
  cases happens_of_some hτ with
  | ordered c customer item price x ids draws hx hυ =>
    subst hυ
    exact .inl hr
  | moved m _ hm =>
    obtain ⟨pending, hc⟩ | ⟨sv, f, -, hw⟩ | ⟨k', r', rfl, hw⟩ := hσ.move_changes hm
    · exact .inl (hc.replies hr)
    · rw [hw] at hr
      exact .inl hr
    · rw [hw] at hr
      obtain hr | hr := List.mem_append.mp hr
      · exact .inl hr
      · cases List.mem_singleton.mp hr
        exact .inr rfl

end System
end Fulfilment
