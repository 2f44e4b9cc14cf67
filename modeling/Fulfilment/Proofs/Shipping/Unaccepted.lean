import Fulfilment.Proofs.Shipping.Call

/-! Nothing happens to an order that shipping did not accept.

* `World.Accepted`: a request of an errand was accepted.
* `finalFailure?`, `turnsAway`: the failure an attempt ends with; a placement that fails because the
  order cannot be shipped, or its item is not there.
* `System.Spared`: no errand of certain stages of the order was accepted or is under way.
* `Spared.happen`: that stays so, as long as no other stage leads there.
* `System.unaccepted_order_rests`: so payment and messages wait for the shipment, and employees and
  the queue for the shipment or a placement that is turned away. -/
namespace Fulfilment

set_option autoImplicit false

/-! ## Accepted requests -/

def World.Accepted (w : World) (x : Errand) : Prop :=
  ∃ c r, .answered c r ∈ w.journal ∧ c.errand? = some x

theorem World.accepted_iff {w : World} {x : Errand} :
    w.Accepted x ↔ ∃ c r, .answered c r ∈ w.deeds ∧ c.errand? = some x := by
  have hdeed {c : Call} {r : Receipt} (hx : c.errand? = some x) :
      (Event.answered c r).isDeed = true := by
    cases c <;> first | rfl | cases hx
  constructor
  · rintro ⟨c, r, hc, hx⟩
    exact ⟨c, r, List.mem_filter.mpr ⟨hc, hdeed hx⟩, hx⟩
  · rintro ⟨c, r, hc, hx⟩
    exact ⟨c, r, (List.mem_filter.mp hc).1, hx⟩

theorem World.Accepted.later {w v : World} {x : Errand} (h : w.Accepted x)
    (hj : w.journal <:+ v.journal) : v.Accepted x := by
  obtain ⟨c, r, hc, hx⟩ := h
  exact ⟨c, r, hj.subset hc, hx⟩

theorem World.accepted_shipping {w : World} {o : OrderRef} :
    w.Accepted ⟨o, .shipping⟩ ↔ w.shipped o = true := by
  constructor
  · rintro ⟨c, r, hc, hx⟩
    refine List.any_eq_true.mpr ⟨_, hc, ?_⟩
    cases c with
    | shipping p item address =>
      cases hx
      simp [Event.isShipmentOf]
    | add t => exact absurd (congrArg Errand.stage (Option.some.inj hx)) t.type.stage_ne_shipping
    | _ => cases hx
  · intro h
    obtain ⟨e, he, hship⟩ := List.any_eq_true.mp h
    cases e with
    | answered c r =>
      cases c with
      | shipping p item address =>
        obtain rfl : p = o := by simpa [Event.isShipmentOf] using hship
        exact ⟨_, r, he, rfl⟩
      | _ => cases hship
    | _ => cases hship

theorem World.not_accepted {w : World} {o : OrderRef} (h : w.shipped o = false) :
    ¬ w.Accepted ⟨o, .shipping⟩ := fun hacc => by
  rw [accepted_shipping.mp hacc] at h
  cases h

/-! ## Placements that are turned away -/

/-- The failure that an attempt ends with, if it ends with one that is not repeated. -/
def finalFailure? (s : Setup) (j : Job) (failures : UInt32) (w : World) : Option Failure :=
  let (fault, w) := w.popFault j.work.service
  let failure :=
    match fault with
    | some f => some f
    | none =>
      match guarded s j.work.checked? (checkAndCall s j) w with
      | some (_, .refused f) => some f
      | _ => none
  failure.filter fun f => !Retry.repeats s.config.retry.retries (failures + 1) f.isOutage

/-- A placement of the order fails because it cannot be shipped, or because its item is not
there. -/
def turnsAway (s : Setup) (o : OrderRef) (σ : System) (h : Happening) (_ : System) : Nat :=
  match h with
  | .move (.act i) =>
    match σ.threads[i]? with
    | some (.attempt ⟨c, .shipping p⟩ n :: _) =>
      if p = o ∧ (finalFailure? s ⟨c, .shipping p⟩ n σ.world = some .shippingNotPossible ∨
          finalFailure? s ⟨c, .shipping p⟩ n σ.world = some .itemUnavailable) then 1
      else 0
    | _ => 0
  | _ => 0

section Attempts
variable {s : Setup} {c d : CoordinatorRef} {o : OrderRef} {n : UInt32} {f : Failure} {w v : World}

/-- Only these two failures of a shipment lead to an employee. -/
theorem failed_turned_away (h : failed s ⟨c, .shipping o⟩ n f w = .next v [.escalate d o]) :
    Retry.repeats s.config.retry.retries (n + 1) f.isOutage = false ∧
      (f = .shippingNotPossible ∨ f = .itemUnavailable) := by
  simp only [failed] at h
  split at h
  · cases h
  · next hrepeats =>
    refine ⟨by simpa using hrepeats, ?_⟩
    simp only [handOver, shippingFailed] at h
    cases f with
    | shippingNotPossible => exact .inl rfl
    | itemUnavailable => exact .inr rfl
    | _ => cases h

theorem attempt_turned_away (h : attempt s ⟨c, .shipping o⟩ n w = .next v [.escalate d o]) :
    finalFailure? s ⟨c, .shipping o⟩ n w = some .shippingNotPossible ∨
      finalFailure? s ⟨c, .shipping o⟩ n w = some .itemUnavailable := by
  have final {f : Failure} {u : World}
      (hf : failed s ⟨c, .shipping o⟩ n f u = .next v [.escalate d o]) :
      (some f).filter (fun f => !Retry.repeats s.config.retry.retries (n + 1) f.isOutage) =
          some .shippingNotPossible ∨
        (some f).filter (fun f => !Retry.repeats s.config.retry.retries (n + 1) f.isOutage) =
          some .itemUnavailable := by
    obtain ⟨hrepeats, rfl | rfl⟩ := failed_turned_away hf
    · exact .inl (Option.filter_some_pos (by rw [hrepeats]; rfl))
    · exact .inr (Option.filter_some_pos (by rw [hrepeats]; rfl))
  have unlocked (u : World) : guarded s (Work.checked? (.shipping o))
      (checkAndCall s ⟨c, .shipping o⟩) u = some (checkAndCall s ⟨c, .shipping o⟩ u) := by
    simp only [guarded, Work.checked?]
    cases s.config.consistency <;> rfl
  simp only [attempt] at h
  simp only [finalFailure?]
  generalize w.popFault (Work.shipping o).service = q at h ⊢
  obtain ⟨fault, u⟩ := q
  cases fault with
  | some f => exact final h
  | none =>
    simp only [unlocked] at h ⊢
    generalize checkAndCall s ⟨c, .shipping o⟩ u = q at h ⊢
    obtain ⟨u', verdict⟩ := q
    cases verdict with
    | refused f => exact final h
    | accepted r => cases r <;> cases h
    | skipped | panicked | interrupted => cases h

end Attempts

/-! ## Stages that nothing leads to -/

namespace System
section Stages
variable {s : Setup} {σ τ : System} {h : Happening} {o : OrderRef} {S : Stage → Prop}

/-- No errand of these stages of the order was accepted, and none is under way. -/
def Spared (S : Stage → Prop) (o : OrderRef) (σ : System) : Prop :=
  ∀ st, S st → ¬ σ.world.Accepted ⟨o, st⟩ ∧ ¬ σ.Runs ⟨o, st⟩

/-- A shipment that fails in another way, or is repeated, leads to no employee. -/
theorem turnsAway_of_acts {i : Nat} {a : Action} {rest more : List Action} {v : World}
    {c : CoordinatorRef} (ha : Acts s σ τ i a rest v [.escalate c o] more)
    (hst : a.errand? = some ⟨o, .shipping⟩) : turnsAway s o σ (.move (.act i)) τ = 1 := by
  have hnext : perform s a σ.world = .next v [.escalate c o] := by
    obtain hp | ⟨-, hnil⟩ := ha.outcome
    · exact hp
    · cases hnil
  cases a with
  | place d p => cases hnext
  | attempt j n =>
    obtain ⟨d, work⟩ := j
    cases work with
    | shipping p =>
      cases hst
      simp only [turnsAway, ha.thread]
      rw [if_pos ⟨trivial, attempt_turned_away hnext⟩]
    | add t => exact absurd (congrArg Errand.stage (Option.some.inj hst)) t.type.stage_ne_shipping
    | _ => cases hst
  | enqueue d t =>
    exact absurd (congrArg Errand.stage (Option.some.inj hst)) t.type.stage_ne_shipping
  | conclude j n r =>
    -- No attempt is interrupted here, so there is nothing to conclude.
    cases ha.effect with
    | idle _ _ hidle => cases hidle
  | _ => cases hst

/-- What no stage outside of these leads to stays spared. -/
theorem Spared.passage (hs : σ.Spared S o) (hp : Passage s h σ τ) (hplaces : h.PlacesOnly o)
    (hshipping : ¬ S .shipping)
    (hled : ∀ i a rest v todo more st st', h = .move (.act i) →
      Acts s σ τ i a rest v todo more → a.errand? = some ⟨o, st⟩ → ¬ S st → S st' →
      ¬ Stage.Leads o τ.world todo st st') : τ.Spared S o := by
  refine fun st hst => ⟨fun hacc => ?_, fun hruns => ?_⟩
  · obtain ⟨c, r, hc, hx⟩ := World.accepted_iff.mp hacc
    obtain hd | ⟨e, hd, he⟩ := deed_errand hp
    · rw [hd] at hc
      exact (hs st hst).1 (World.accepted_iff.mpr ⟨c, r, hc, hx⟩)
    · rw [hd] at hc
      obtain rfl | hc := List.mem_cons.mp hc
      · exact (hs st hst).2 (he _ hx)
      · exact (hs st hst).1 (World.accepted_iff.mpr ⟨c, r, hc, hx⟩)
  · cases arises hp hruns with
    | kept hx => exact (hs st hst).2 hx
    | led i a rest v todo more st' hh ha hst' hne hl =>
      by_cases hS : S st'
      · exact (hs st' hS).2 (.inl ⟨a, outstanding_of_acts ha, hst'⟩)
      · exact hled i a rest v todo more st' st hh ha hst' hS hst hl
    | asked q hh hx =>
      obtain ⟨c, rfl⟩ := hplaces q hh (Request.errand_order hx).symm
      cases hx
      exact hshipping hst
    | ordered c customer item price hh ho hstage =>
      cases hstage
      exact hshipping hst

/-- An order that is not there yet is as new after a happening. -/
theorem fresh_of_beyond (hσ : σ.Orderly s) (hw : h.Whole s) (hτ : σ.happen? s h = some τ)
    (ho : σ.world.orders.length ≤ o) : Fresh (τ.world.order o) := by
  have hdefault {w : World} (hlen : w.orders.length ≤ o) : Fresh (w.order o) := by
    rw [w.order_beyond hlen]
    exact ⟨rfl, rfl, rfl, rfl⟩
  cases happens_of_some hτ with
  | moved m hq hm =>
    refine hdefault ?_
    rw [(hσ.move hw hm).1.length hσ.clock]
    exact ho
  | ordered c customer item price x ids draws hx hυ =>
    subst hυ
    rw [World.order_addOrder]
    split
    · exact hx
    · exact hdefault ho

end Stages

/-! ## Orders that wait for shipping -/

/-- The payment is pending, and the customer was told nothing. -/
structure Waits (o : OrderRef) (σ : System) : Prop where
  payment : (σ.world.order o).payment = .trying
  sent : (σ.world.order o).sent = .noneSent
  spared : σ.Spared (fun st => st = .payment ∨ st = .messaging) o

/-- No employee has heard of the order. -/
structure Unheard (o : OrderRef) (σ : System) : Prop where
  escalated : (σ.world.order o).escalated = false
  spared : σ.Spared (· ≠ .shipping) o

section Waiting
variable {s : Setup} {σ τ : System} {h : Happening} {o : OrderRef}

/-- What is stored for an order, as long as only other stages are under way for it. -/
theorem kept_or_fresh (hσ : σ.Orderly s) (hw : h.Whole s) (hτ : σ.happen? s h = some τ) :
    Fresh (τ.world.order o) ∨ τ.world.order o = σ.world.order o ∨
      ∃ st, σ.Runs ⟨o, st⟩ ∧ st.Keeps (σ.world.order o) (τ.world.order o) := by
  by_cases ho : o < σ.world.orders.length
  · exact .inr (keeps_of_passage (hσ.passage hτ) ho)
  · exact .inl (fresh_of_beyond hσ hw hτ (Nat.le_of_not_lt ho))

theorem Waits.happen (hs : σ.Waits o) (hσ : σ.Orderly s) (hw : h.Whole s)
    (hplaces : h.PlacesOnly o) (hτ : σ.happen? s h = some τ)
    (hnot : ¬ τ.world.Accepted ⟨o, .shipping⟩) : τ.Waits o := by
  have hspared := hs.spared.passage (hσ.passage hτ) hplaces (by decide)
    fun i a rest v todo more st st' _ _ _ hst hst' hl => ?_
  · obtain hx | hx | ⟨st, hst, hk⟩ := kept_or_fresh (o := o) hσ hw hτ
    · exact ⟨hx.1, hx.2.1, hspared⟩
    · exact ⟨by rw [hx, hs.payment], by rw [hx, hs.sent], hspared⟩
    · have hpayment : st ≠ .payment := fun h => by
        subst h
        exact (hs.spared .payment (.inl rfl)).2 hst
      have hmessaging : st ≠ .messaging := fun h => by
        subst h
        exact (hs.spared .messaging (.inr rfl)).2 hst
      exact ⟨(hk.payment hpayment).trans hs.payment, (hk.sent hmessaging).trans hs.sent, hspared⟩
  · cases hl with
    | same => exact hst hst'
    | shipped hshipped => exact hnot (World.accepted_shipping.mpr hshipped)
    | turnedAway => obtain h | h := hst' <;> cases h
    | told => exact hst (.inl rfl)
    | handed => obtain h | h := hst' <;> cases h

theorem Unheard.happen (hs : σ.Unheard o) (hσ : σ.Orderly s) (hw : h.Whole s)
    (hplaces : h.PlacesOnly o) (hτ : σ.happen? s h = some τ)
    (hnot : ¬ τ.world.Accepted ⟨o, .shipping⟩) (hkept : turnsAway s o σ h τ = 0) :
    τ.Unheard o := by
  have hspared := hs.spared.passage (hσ.passage hτ) hplaces (by decide)
    fun i a rest v todo more st st' hh ha hast hst hst' hl => ?_
  · refine ⟨?_, hspared⟩
    obtain hx | hx | ⟨st, hst, hk⟩ := kept_or_fresh (o := o) hσ hw hτ
    · exact hx.2.2.1
    · rw [hx, hs.escalated]
    · have hescalation : st ≠ .escalation := fun h => by
        subst h
        exact (hs.spared .escalation (by decide)).2 hst
      exact (hk.escalated hescalation).trans hs.escalated
  · obtain rfl : st = .shipping := by simpa using hst
    cases hl with
    | same => exact hst' rfl
    | shipped hshipped => exact hnot (World.accepted_shipping.mpr hshipped)
    | turnedAway c htodo =>
      subst htodo hh
      rw [turnsAway_of_acts ha hast] at hkept
      cases hkept
    | handed _ hne => exact hne rfl

end Waiting

/-! ## Histories -/

/-- In a history that begins with nothing under way, and in which nobody asks for anything about the
order but to place it: every placement, of whatever order, has one shipment accepted at most, and
has gone on to the payment as often, or does so next; as long as no shipment of the order was
accepted its payment is pending, its customer was told nothing, and neither a payment nor a message
for it was accepted or is under way; and if moreover no placement of it was turned away, no employee
has it, and nothing at all was accepted for it, or is queued or under way, but shipping. -/
theorem unaccepted_order_rests (s : Setup) (o : OrderRef) (σ₀ σ₁ : System)
    (happenings : List Happening) (h₀ : σ₀.Orderly s) (hidle : σ₀.Idle)
    (hstore : σ₀.world.collaborators.store = [])
    (htrying : (σ₀.world.order o).payment = .trying)
    (hsent : (σ₀.world.order o).sent = .noneSent)
    (hunmarked : (σ₀.world.order o).escalated = false)
    (hnone : ∀ st, ¬ σ₀.world.Accepted ⟨o, st⟩) (hwhole : ∀ h ∈ happenings, h.Whole s)
    (hplaces : ∀ h ∈ happenings, h.PlacesOnly o) (h₁ : σ₀.after? s happenings = some σ₁) :
    (∀ before h after υ c p, happenings = before ++ h :: after →
      σ₀.after? s before = some υ → h.placement? υ = some (c, p) →
      total s (accepts υ.threads.length) (h :: after) υ ≤ 1 ∧
      total s (accepts υ.threads.length) (h :: after) υ =
        total s (invokes υ.threads.length) (h :: after) υ +
          if σ₁.threads[υ.threads.length]?.bind nextPayment? = some (c, p) then 1 else 0) ∧
    (¬ σ₁.world.Accepted ⟨o, .shipping⟩ → σ₁.Waits o) ∧
    (¬ σ₁.world.Accepted ⟨o, .shipping⟩ → total s (turnsAway s o) happenings σ₀ = 0 →
      σ₁.Unheard o) := by
  have hspared (S : Stage → Prop) : σ₀.Spared S o := fun st _ =>
    ⟨hnone st, runs_nothing hidle.outstanding hstore _⟩
  refine ⟨fun before h after υ c p hsplit hυ hplaced => ?_, fun hnot => ?_, fun hnot hkept => ?_⟩
  · subst hsplit
    obtain ⟨hυo, hwaiting⟩ : υ.Orderly s ∧
        ∀ j ∈ υ.world.pending, (Action.attempt j 0).isForeign = true := by
      refine after?_induct (P := fun υ => υ.Orderly s ∧
        ∀ j ∈ υ.world.pending, (Action.attempt j 0).isForeign = true) ?_ hυ ⟨h₀, ?_⟩
      · rintro k hk σ τ hτ ⟨hσ, hw⟩
        exact ⟨hσ.happen (hwhole k (List.mem_append_left _ hk)) hτ,
          waiting_foreign (hσ.motion hτ) hw⟩
      · rw [hidle.1]
        exact fun _ hj => absurd hj List.not_mem_nil
    exact placement_counts hυo (fun k hk => hwhole k (List.mem_append_right _ hk)) hwaiting hplaced
      (after?_append hυ h₁)
  · have hwaits : σ₁.Orderly s ∧ (¬ σ₁.world.Accepted ⟨o, .shipping⟩ → σ₁.Waits o) :=
      after?_induct (P := fun υ => υ.Orderly s ∧ (¬ υ.world.Accepted ⟨o, .shipping⟩ → υ.Waits o))
        (fun h hh υ ω hω hυ => ⟨hυ.1.happen (hwhole h hh) hω, fun hnot =>
          (hυ.2 fun hacc => hnot (hacc.later (happen_journal hω))).happen hυ.1 (hwhole h hh)
            (hplaces h hh) hω hnot⟩)
        h₁ ⟨h₀, fun _ => ⟨htrying, hsent, hspared _⟩⟩
    exact hwaits.2 hnot
  · have hunheard : σ₁.Orderly s ∧ total s (turnsAway s o) [] σ₁ = 0 ∧
        (¬ σ₁.world.Accepted ⟨o, .shipping⟩ → σ₁.Unheard o) := by
      refine after?_total (P := fun υ n => υ.Orderly s ∧ n = 0 ∧
        (¬ υ.world.Accepted ⟨o, .shipping⟩ → υ.Unheard o)) [] ?_ h₁ ?_
      · rintro h hh υ ω n hω ⟨hυ, hzero, hunheard⟩
        obtain ⟨hnow, hlater⟩ := Nat.add_eq_zero_iff.mp hzero
        exact ⟨hυ.happen (hwhole h hh) hω, hlater, fun hnot =>
          (hunheard fun hacc => hnot (hacc.later (happen_journal hω))).happen hυ (hwhole h hh)
            (hplaces h hh) hω hnot hnow⟩
      · rw [List.append_nil]
        exact ⟨h₀, hkept, fun _ => ⟨hunmarked, hspared _⟩⟩
    exact hunheard.2.2 hnot

/-- No orders yet; shipping is going to fail once, not for lack of the item. -/
def noDriver : System :=
  { world := { clock := 5, faults := { shipping := [.other "no driver"] } } }

theorem noDriver_orderly (s : Setup) : noDriver.Orderly s :=
  ⟨by decide, .of_forall (by decide), by simp [World.Whole, noDriver], by simp [noDriver]⟩

/-- The first order cannot be placed. -/
def thenNotPlaced : List Happening :=
  .order 0 ⟨"Jim", "ABCD"⟩ "book" 10 :: [.act 0, .act 0, .act 0].map .move

/-- The second one is shipped, and its payment is about to be attempted. -/
def thenShipped : List Happening :=
  .order 0 ⟨"Ann", "EFGH"⟩ "lamp" 20 :: [.act 1, .act 1].map .move

theorem unplaced_order_rests :
    ∃ σ₁ σ₂, after? {} thenNotPlaced noDriver = some σ₁ ∧
      after? {} (thenNotPlaced ++ thenShipped) noDriver = some σ₂ ∧
      (σ₂.world.order 0).payment = .trying ∧ (σ₂.world.order 0).escalated = false ∧
      total {} (accepts 1) thenShipped σ₁ = total {} (invokes 1) thenShipped σ₁ + 1 := by
  refine ⟨_, _, rfl, rfl, ?_⟩
  have h := unaccepted_order_rests {} 0 noDriver _ (thenNotPlaced ++ thenShipped)
    (noDriver_orderly {}) ⟨rfl, by simp [noDriver]⟩ rfl rfl rfl rfl
    (fun st hacc => by obtain ⟨c, r, hc, -⟩ := hacc; cases hc)
    (by simp [thenNotPlaced, thenShipped, Happening.Whole, Move.Whole])
    (by simp [thenNotPlaced, thenShipped, Happening.PlacesOnly]) rfl
  exact ⟨(h.2.1 (World.not_accepted rfl)).payment,
    (h.2.2 (World.not_accepted rfl) rfl).escalated, (h.1 thenNotPlaced _ _ _ 0 1 rfl rfl rfl).2⟩

end System
end Fulfilment
