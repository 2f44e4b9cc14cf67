import Fulfilment.Proofs.Books.Passage
import Fulfilment.Proofs.Faultless.Fresh
import Fulfilment.Proofs.Faultless.Leg

/-! What happens while orders are placed and nothing fails.

* `Happening.isDirect`: an order is placed, a thread goes on, a job starts, or time passes.
* `System.Direct`: all that is left to do are legs of orders and ends of threads.
* `Turn`: an order travels one leg, or nothing but bookkeeping is done, or a new order comes in.
* `Direct.turn`: every direct happening is one of these. -/
namespace Fulfilment

set_option autoImplicit false

def Happening.isDirect : Happening → Bool
  | .order _ _ _ _ => true
  | .move (.act _) | .move (.start _) | .move (.pass _) => true
  | _ => false

theorem Happening.whole_of_direct {s : Setup} {h : Happening} (hh : h.isDirect = true) :
    h.Whole s := by
  cases h with
  | order => trivial
  | move m =>
    cases m with
    | reply => cases hh
    | _ => trivial

/-- The purchase that a happening places. -/
def Happening.purchase? : Happening → Option Purchase
  | .order _ customer item price => some ⟨customer, item, price⟩
  | _ => none

/-- A leg of an order, or the end of a job or placement. -/
def Action.isDirect (a : Action) : Bool := a.isEnd || a.leg?.isSome

namespace System

/-- Nothing else is left to do, and no fault can come. -/
structure Direct (s : Setup) (σ : System) : Prop where
  orderly : σ.Orderly s
  clear : σ.world.Clear
  actions : ∀ b ∈ σ.outstanding, b.isDirect = true

/-- An order that a leg is left of has the legs before it behind it. -/
def Ready (σ : System) : Prop :=
  ∀ l o, 0 < σ.load (Action.isAt l o) → o < σ.world.orders.length ∧ (σ.world.order o).Along l.rank

/-- One leg of an order is done with, and the next one is left instead. -/
def LoadsPast (l : Leg) (o : OrderRef) (σ τ : System) : Prop :=
  ∀ k p, τ.load (Action.isAt k p) + (if k = l ∧ p = o then 1 else 0) =
    σ.load (Action.isAt k p) + if l.next? = some k ∧ p = o then 1 else 0

inductive Turn (σ τ : System) : Option Purchase → Prop
  | travelled (l : Leg) (o : OrderRef) (here : 0 < σ.load (Action.isAt l o))
      (orders : τ.world.orders = σ.world.orders.modify o l.mark)
      (collaborators : τ.world.collaborators =
        l.serve (σ.world.order o) σ.world.now σ.world.collaborators)
      (undisturbed : σ.world.Undisturbed τ.world) (loads : LoadsPast l o σ τ) : Turn σ τ none
  | aside (orders : τ.world.orders = σ.world.orders)
      (collaborators : τ.world.collaborators = σ.world.collaborators)
      (undisturbed : σ.world.Undisturbed τ.world)
      (loads : ∀ k p, τ.load (Action.isAt k p) = σ.load (Action.isAt k p)) : Turn σ τ none
  | ordered (x : Order) (hx : x.Along 0) (ids : Register) (draws : Draws)
      (fresh : x.id.text ∉ σ.world.ids.used) (used : ids.used = x.id.text :: σ.world.ids.used)
      (world : τ.world = Rehearsal.addOrder x { σ.world with ids, draws })
      (loads : ∀ k p, τ.load (Action.isAt k p) =
        σ.load (Action.isAt k p) + if k = .placing ∧ p = σ.world.orders.length then 1 else 0) :
      Turn σ τ (some x.purchase)

theorem Turn.faults {σ τ : System} {q : Option Purchase} (h : Turn σ τ q) :
    τ.world.faults = σ.world.faults := by
  cases h with
  | travelled l o _ _ _ hundisturbed _ => exact hundisturbed.faults
  | aside _ _ hundisturbed _ => exact hundisturbed.faults
  | ordered x _ ids draws _ _ hworld _ => rw [hworld, Rehearsal.addOrder]

section Turns
variable {s : Setup} {σ τ : System}

/-! ## Threads -/

section Heads
variable {i : Nat} {a : Action} {rest todo : List Action} {v : World} {next : Option Action}
  (hi : σ.threads[i]? = some (a :: rest)) (hleaves : Leaves next σ.world v todo)
include hi hleaves

/-- A thread has performed its first action. -/
theorem load_of_leaves {p : Action → Bool} (hp : Concern p) :
    (⟨v, σ.threads.set i (todo ++ rest)⟩ : System).load p + (if p a then 1 else 0) =
      σ.load p + next.toList.countP p := by
  have hset := load_set (p := p) hi v (todo ++ rest)
  rw [List.countP_append, List.countP_cons] at hset
  cases hleaves with
  | todo ends hends hpending =>
    have hnone : ends.countP p = 0 :=
      List.countP_eq_zero.mpr fun b hb => by rw [hp.of_end (hends b hb)]; exact Bool.false_ne_true
    rw [World.waiting_of_pending hpending, List.countP_append, hnone] at hset
    omega
  | waits j hj hpending =>
    have hwaits : v.waiting p = σ.world.waiting p + if p (.attempt j 0) then 1 else 0 := by
      rw [World.waiting, World.waiting, hpending, List.countP_append, List.countP_singleton]
    rw [hj, Option.toList_some, List.countP_singleton]
    rw [List.countP_nil] at hset
    omega

theorem mem_outstanding_of_leaves {b : Action}
    (hb : b ∈ (⟨v, σ.threads.set i (todo ++ rest)⟩ : System).outstanding) :
    b ∈ σ.outstanding ∨ next = some b ∨ b.isEnd = true := by
  have hrest : b ∈ rest → b ∈ σ.outstanding := fun hb =>
    mem_outstanding.mpr (.inl (mem_flatten_of_rest hi hb))
  have hpending : ∀ j ∈ σ.world.pending, Action.attempt j 0 = b → b ∈ σ.outstanding :=
    fun j hj hjb => mem_outstanding.mpr (.inr ⟨j, hj, hjb⟩)
  cases hleaves with
  | todo ends hends hsame =>
    obtain hb | ⟨j, hj, hjb⟩ := mem_outstanding.mp hb
    · obtain hb | hb := mem_flatten_of_set hb
      · exact .inl (mem_outstanding.mpr (.inl hb))
      · obtain hb | hb := List.mem_append.mp hb
        · obtain hb | hb := List.mem_append.mp hb
          · exact .inr (.inl (Option.mem_toList.mp hb))
          · exact .inr (.inr (hends b hb))
        · exact .inl (hrest hb)
    · have hj' : j ∈ σ.world.pending := hsame ▸ hj
      exact .inl (hpending j hj' hjb)
  | waits j hj hnew =>
    obtain hb | ⟨k, hk, hkb⟩ := mem_outstanding.mp hb
    · obtain hb | hb := mem_flatten_of_set hb
      · exact .inl (mem_outstanding.mpr (.inl hb))
      · exact .inl (hrest hb)
    · have hk' : k ∈ σ.world.pending ++ [j] := hnew ▸ hk
      obtain hk' | hk' := List.mem_append.mp hk'
      · exact .inl (hpending k hk' hkb)
      · rw [List.mem_singleton.mp hk'] at hkb
        exact .inr (.inl (hj.trans (congrArg some hkb)))

end Heads

/-- How many of some actions are at a leg, if the only candidate is known by its own leg. -/
theorem countP_isAt_toList {next : Option Action} {m : Option Leg} {o : OrderRef}
    (h : next.map Action.leg? = m.map fun k => some (k, o)) (k : Leg) (p : OrderRef) :
    next.toList.countP (Action.isAt k p) = if m = some k ∧ p = o then 1 else 0 := by
  cases next with
  | none =>
    cases m with
    | none => rfl
    | some k' => cases h
  | some a =>
    cases m with
    | none => cases h
    | some k' =>
      have ha : a.leg? = some (k', o) := Option.some.inj h
      have hnext : some k' = some k ↔ k = k' := by rw [Option.some.injEq, eq_comm]
      rw [Option.toList_some, List.countP_singleton]
      exact if_congr ((Action.isAt_iff_of_leg ha).trans (and_congr_left' hnext.symm)) rfl rfl

/-! ## Moves -/

theorem finished_undisturbed (j : Job) (w : World) :
    (finished s j w).orders = w.orders ∧ (finished s j w).collaborators = w.collaborators ∧
      w.Undisturbed (finished s j w) := by
  unfold finished
  cases s.dispatch with
  | threads => exact ⟨rfl, rfl, .refl w⟩
  | pool name =>
    have hstats : w.Undisturbed { w with stats := w.stats.ended false } :=
      (World.Undisturbed.refl w).of_eq rfl rfl rfl rfl
    exact ⟨rfl, rfl, hstats.record rfl⟩
  | deferred | inline => exact ⟨rfl, rfl, (World.Undisturbed.refl w).record rfl⟩

theorem startAt_undisturbed {i : Nat} {w v : World} {todo : List Action}
    (h : startAt? s i w = some (v, todo)) :
    v.orders = w.orders ∧ v.collaborators = w.collaborators ∧ w.Undisturbed v := by
  have haside : w.Undisturbed { w with pending := w.pending.eraseIdx i } :=
    (World.Undisturbed.refl w).of_eq rfl rfl rfl rfl
  obtain ⟨j, u, -, -, rfl, rfl | rfl | ⟨name, rfl⟩⟩ := startAt?_eq_some h
  · exact ⟨rfl, rfl, haside.record rfl⟩
  · have hspent : w.Undisturbed
        (World.spendAllowance { w with pending := w.pending.eraseIdx i }) :=
      haside.of_eq rfl rfl rfl rfl
    exact ⟨rfl, rfl, hspent.record rfl⟩
  · exact ⟨rfl, rfl, (haside.record rfl).record rfl⟩

/-- An end does nothing but bookkeeping. -/
theorem perform_end {a : Action} (ha : a.isEnd = true) (w : World) :
    ∃ v, perform s a w = .next v [] ∧ v.orders = w.orders ∧ v.collaborators = w.collaborators ∧
      w.Undisturbed v ∧ v.pending = w.pending := by
  cases a with
  | finish j =>
    obtain ⟨horders, hcollaborators, hundisturbed⟩ := finished_undisturbed (s := s) j w
    exact ⟨_, rfl, horders, hcollaborators, hundisturbed, (settings_finished j w).2⟩
  | placed o => exact ⟨w, rfl, rfl, rfl, .refl w, rfl⟩
  | _ => cases ha

section Acts
variable {i : Nat} {a : Action} {rest : List Action} (hσ : σ.Direct s)
  (hi : σ.threads[i]? = some (a :: rest))
  (hτ : τ = ⟨(Run.step s { world := σ.world, agenda := a :: rest }).world,
    σ.threads.set i (Run.step s { world := σ.world, agenda := a :: rest }).agenda⟩)
include hσ hi hτ

theorem Direct.turn_end (ha : a.isEnd = true) :
    Turn σ τ none ∧ ∀ b ∈ τ.outstanding, b.isDirect = true := by
  obtain ⟨v, hv, horders, hcollaborators, hundisturbed, hpending⟩ :=
    perform_end (s := s) ha σ.world
  have hleaves : Leaves none σ.world v [] := leaves_at_once none hpending
  rw [Run.step_cons, hv] at hτ
  subst hτ
  refine ⟨.aside horders hcollaborators hundisturbed fun k p => ?_, fun b hb => ?_⟩
  · have hload := load_of_leaves hi hleaves (concern_isAt k p)
    rwa [(concern_isAt k p).of_end ha] at hload
  · obtain hb | hb | hb := mem_outstanding_of_leaves hi hleaves hb
    · exact hσ.actions b hb
    · cases hb
    · exact Bool.or_eq_true_iff.mpr (.inl hb)

theorem Direct.turn_leg (hready : σ.Ready) (ht : σ.world.Timely s) {l : Leg} {o : OrderRef}
    (ha : a.leg? = some (l, o)) :
    Turn σ τ none ∧ ∀ b ∈ τ.outstanding, b.isDirect = true := by
  have hhere : 0 < σ.load (Action.isAt l o) := load_pos hi (Action.isAt_iff.mpr ha)
  obtain ⟨ho, hx⟩ := hready l o hhere
  obtain ⟨v, todo, hv, htravels⟩ := perform_leg hσ.clear ha ho hx ht
  obtain ⟨next, hnext, hleaves⟩ := htravels.leaves
  rw [Run.step_cons, hv] at hτ
  subst hτ
  refine ⟨.travelled l o hhere htravels.orders htravels.collaborators htravels.undisturbed
    fun k p => ?_, fun b hb => ?_⟩
  · have hload := load_of_leaves hi hleaves (concern_isAt k p)
    rw [countP_isAt_toList hnext] at hload
    simpa only [Action.isAt_iff_of_leg ha] using hload
  · obtain hb | rfl | hb := mem_outstanding_of_leaves hi hleaves hb
    · exact hσ.actions b hb
    · refine Bool.or_eq_true_iff.mpr (.inr ?_)
      cases hm : l.next? with
      | none =>
        rw [hm] at hnext
        cases hnext
      | some k =>
        rw [hm] at hnext
        rw [Option.some.inj hnext]
        rfl
    · exact Bool.or_eq_true_iff.mpr (.inl hb)

end Acts

theorem Direct.turn_act (hσ : σ.Direct s) (hready : σ.Ready) (ht : σ.world.Timely s) {i : Nat}
    (hτ : σ.move? s (.act i) = some τ) :
    Turn σ τ none ∧ ∀ b ∈ τ.outstanding, b.isDirect = true := by
  obtain ⟨agenda, hi, hstep⟩ := act?_eq_some hτ
  cases agenda with
  | nil =>
    subst hstep
    refine ⟨.aside rfl rfl (.refl _) fun k p => ?_, fun b hb => ?_⟩
    · exact load_of_rest (concern_isAt k p) hi (.inl ⟨rfl, rfl⟩) rfl rfl
    · refine hσ.actions b (mem_outstanding.mpr ?_)
      obtain hb | hb := mem_outstanding.mp hb
      · exact .inl ((mem_flatten_of_set hb).resolve_right List.not_mem_nil)
      · exact .inr hb
  | cons a rest =>
    have hmem : a ∈ σ.threads.flatten :=
      List.mem_flatten.mpr ⟨a :: rest, List.mem_of_getElem? hi, List.mem_cons_self ..⟩
    have hdirect := hσ.actions a (mem_outstanding.mpr (.inl hmem))
    obtain hend | hleg := Bool.or_eq_true_iff.mp hdirect
    · exact hσ.turn_end hi hstep hend
    · obtain ⟨⟨l, o⟩, ha⟩ := Option.isSome_iff_exists.mp hleg
      exact hσ.turn_leg hi hstep hready ht ha

theorem Direct.turn_start (hσ : σ.Direct s) {i : Nat} (hτ : σ.move? s (.start i) = some τ) :
    Turn σ τ none ∧ ∀ b ∈ τ.outstanding, b.isDirect = true := by
  obtain ⟨w, todo, hs, rfl⟩ := start?_eq_some hτ
  obtain ⟨horders, hcollaborators, hundisturbed⟩ := startAt_undisturbed hs
  refine ⟨.aside horders hcollaborators hundisturbed fun k p => ?_, fun b hb => ?_⟩
  · have hload := load_append (σ := σ) (τ := ⟨w, σ.threads ++ [todo]⟩) (p := Action.isAt k p) rfl
    have hstart := startAt_load (concern_isAt k p) i σ.world w todo hs
    have hτ : (⟨w, σ.threads ++ [todo]⟩ : System).world.waiting (Action.isAt k p) =
        w.waiting (Action.isAt k p) := rfl
    omega
  · obtain ⟨j, hj, rfl, hpending, -⟩ := startAt_cases i σ.world w todo hs
    have hwaits {k : Job} (hk : k ∈ σ.world.pending) : (Action.attempt k 0).isDirect = true :=
      hσ.actions _ (mem_outstanding.mpr (.inr ⟨k, hk, rfl⟩))
    obtain hb | ⟨k, hk, rfl⟩ := mem_outstanding.mp hb
    · rw [List.flatten_append, List.flatten_singleton] at hb
      obtain hb | hb := List.mem_append.mp hb
      · exact hσ.actions b (mem_outstanding.mpr (.inl hb))
      · obtain rfl | hb := List.mem_cons.mp hb
        · exact hwaits (List.mem_of_getElem? hj)
        · rw [List.mem_singleton.mp hb]
          rfl
    · have hk' : k ∈ σ.world.pending.eraseIdx i := hpending ▸ hk
      exact hwaits (List.mem_of_mem_eraseIdx hk')

theorem Direct.turn_order (hσ : σ.Direct s) {c : CoordinatorRef} {customer : Customer}
    {item : String} {price : Float} (hτ : σ.order? s c customer item price = some τ) :
    Turn σ τ (some ⟨customer, item, price⟩) ∧ ∀ b ∈ τ.outstanding, b.isDirect = true := by
  simp only [order?, Rehearsal.newOrder?, Option.map_map] at hτ
  obtain ⟨⟨id, ids, draws⟩, hid, hτ⟩ := Option.map_eq_some_iff.mp hτ
  obtain ⟨hfresh, hused⟩ := Allocator.allocate?_fresh hid
  let x : Order := { id, customer, item, price, createdAt := σ.world.now }
  have hworld : τ.world = Rehearsal.addOrder x { σ.world with ids, draws } := by rw [← hτ]; rfl
  have hpending : τ.world.pending = σ.world.pending := by rw [hworld]; rfl
  have hthreads : τ.threads = σ.threads ++ [[.place c σ.world.orders.length]] := by rw [← hτ]; rfl
  refine ⟨.ordered x ⟨rfl, rfl, rfl, rfl⟩ ids draws hfresh hused hworld fun k p => ?_, fun b hb => ?_⟩
  · have hplace : (Action.place c σ.world.orders.length).leg? =
        some (.placing, σ.world.orders.length) := rfl
    rw [load_of_new hpending hthreads]
    simp only [Action.isAt_iff_of_leg hplace]
  · obtain hb | rfl := (outstanding_of_new _ hpending hthreads b).mp hb
    · exact hσ.actions b hb
    · rfl

/-! ## Happenings -/

/-- Whatever happens, an order travels, or nothing but bookkeeping is done, or a new order comes
in; and then only legs are left to do again. -/
theorem Direct.turn {h : Happening} (hσ : σ.Direct s) (hh : h.isDirect = true) (hready : σ.Ready)
    (ht : σ.world.Timely s) (hτ : σ.happen? s h = some τ) :
    Turn σ τ h.purchase? ∧ τ.Direct s := by
  have hturn : Turn σ τ h.purchase? ∧ ∀ b ∈ τ.outstanding, b.isDirect = true := by
    cases h with
    | order c customer item price => exact hσ.turn_order hτ
    | move m =>
      cases m with
      | act i => exact hσ.turn_act hready ht hτ
      | start i => exact hσ.turn_start hτ
      | pass d =>
        cases hτ
        exact ⟨.aside rfl rfl ((World.Undisturbed.refl _).of_eq rfl rfl rfl rfl) fun k p => rfl,
          hσ.actions⟩
      | _ => cases hh
  have horderly := hσ.orderly.happen (Happening.whole_of_direct hh) hτ
  refine ⟨hturn.1, horderly, ⟨⟨horderly.clock, horderly.unlocked, ?_, ?_⟩, fun sv => ?_⟩, hturn.2⟩
  · refine List.eq_nil_iff_forall_not_mem.mpr fun e he => ?_
    obtain ⟨k, r⟩ := e
    obtain hr | rfl := hσ.orderly.replies_happen hτ he
    · rw [hσ.clear.replies] at hr
      exact absurd hr List.not_mem_nil
    · cases hh
  · exact hσ.orderly.open_happen hτ hσ.clear.isOpen
  · rw [hturn.1.faults]
    exact hσ.clear.faults sv

end Turns
end System
end Fulfilment
