import Fulfilment.Proofs.Stage.Progress

/-! The messages a customer was sent for an order: at most one about a pending payment, then at most
one about its outcome, and the order remembers the last of them. -/
namespace Fulfilment

set_option autoImplicit false

/-! ## Accepted messages -/

/-- The message that was accepted for this order. -/
def Event.messageTo? (o : OrderRef) : Event → Option MessageType
  | .answered (.messaging p m) _ => if p = o then some m else none
  | _ => none

/-- The messages accepted for an order, the first one first. -/
def World.messages (w : World) (o : OrderRef) : List MessageType :=
  (w.journal.filterMap (Event.messageTo? o)).reverse

theorem World.messages_eq (w : World) (o : OrderRef) :
    w.messages o = (w.deeds.filterMap (Event.messageTo? o)).reverse := by
  rw [messages, filterMap_deeds]
  intro e he
  cases e with
  | answered c r => cases c <;> first | rfl | cases he
  | _ => rfl

theorem World.messages_of_deeds {w v : World} (h : v.deeds = w.deeds) (o : OrderRef) :
    v.messages o = w.messages o := by
  rw [messages_eq, messages_eq, h]

theorem messages_fulfil (work : Work) (empty : Bool) (w : World) (o : OrderRef) :
    (fulfil work empty w).1.messages o =
      match work with
      | .messaging p m => if p = o then w.messages o ++ [m] else w.messages o
      | _ => w.messages o := by
  by_cases hd : work = .drain
  · subst hd
    exact World.messages_of_deeds (deeds_fulfil_drain empty w) o
  by_cases hq : work = .dequeue
  · subst hq
    have hv := deeds_fulfil_dequeue empty w
    rw [World.messages_eq, World.messages_eq, hv]
    cases w.collaborators.head? <;> rfl
  obtain ⟨r, hr⟩ := deeds_fulfil work empty w hd hq
  rw [World.messages_eq, World.messages_eq, hr]
  cases work with
  | messaging p m =>
    simp only [callOf, List.filterMap_cons, Event.messageTo?]
    by_cases hp : p = o
    · rw [if_pos hp, if_pos hp, List.reverse_cons]
    · rw [if_neg hp, if_neg hp]
  | _ => rfl

/-! ## One change -/

/-- A change leaves the messages of an order alone, or adds one that was needed. -/
inductive MessageMoves (o : OrderRef) (w v : World) : Prop
  | kept (hs : (v.order o).sent = (w.order o).sent) (hm : v.messages o = w.messages o)
  | told (m : MessageType) (hn : (w.order o).needsMessage m = true)
      (hs : (v.order o).sent = .ofMessage m) (hm : v.messages o = w.messages o ++ [m])

theorem Change.message {s : Setup} {w v : World} (h : Change s w v) (o : OrderRef)
    (ho : o < w.orders.length) : MessageMoves o w v := by
  cases h with
  | aside h =>
    have hv : v.order o = w.order o := by rw [World.order, World.order, h.orders]
    exact .kept (by rw [hv]) (World.messages_of_deeds h.deeds o)
  | notice p n _ =>
    refine .kept ?_ rfl
    refine World.order_modifyOrder_congr Order.sent w p o _ fun x => ?_
    cases hx : x.notice <;> simp only [Order.recordNotice, hx]
  | failed p _ =>
    exact .kept (World.order_modifyOrder_congr Order.sent w p o _ fun _ => rfl) rfl
  | crashed | visited => exact .kept rfl rfl
  | dropped t r _ _ _ _ => exact .kept rfl (by rw [World.messages]; rfl)
  | fulfilled j empty hn =>
    have hv := order_fulfil j.work empty w o
    have hm := messages_fulfil j.work empty w o
    cases hj : j.work with
    | messaging p m =>
      rw [hj] at hv hm
      simp only at hm
      by_cases hp : p = o
      · subst hp
        have hneeded : (w.order p).needsMessage m = true := by simpa [needed, hj] using hn
        rw [if_pos ⟨rfl, ho⟩] at hv
        rw [if_pos rfl] at hm
        exact .told m hneeded (congrArg Order.sent hv) hm
      · have hother : ¬ (some p = some o ∧ o < w.orders.length) := fun h => hp (Option.some.inj h.1)
        rw [if_neg hp] at hm
        exact .kept (congrArg Order.sent (hv.trans (if_neg hother))) hm
    | shipping | payment | escalation | add | drain | dequeue =>
      rw [hj] at hv hm
      refine .kept ?_ hm
      rw [hv]
      split <;> rfl

/-! ## Histories -/

/-- The messages that can have been sent when this is the last one. -/
inductive Told : List MessageType → MessageSent → Prop
  | nothing : Told [] .noneSent
  | pending : Told [.paymentTrying] .paymentTrying
  | outcome (m : MessageType) (hm : m ≠ .paymentTrying) : Told [m] (.ofMessage m)
  | both (m : MessageType) (hm : m ≠ .paymentTrying) :
      Told [.paymentTrying, m] (.ofMessage m)

theorem MessageType.terminal_iff (m : MessageType) :
    (MessageSent.ofMessage m).isTerminal = true ↔ m ≠ .paymentTrying := by
  cases m <;> decide

/-- A message that is needed goes with whatever was sent before. -/
theorem Told.append {l : List MessageType} {x : Order} {m : MessageType} (h : Told l x.sent)
    (hm : x.needsMessage m = true) : Told (l ++ [m]) (.ofMessage m) := by
  have hopen := Order.not_terminal_of_needs hm
  generalize hs : x.sent = sent at h hopen
  cases h with
  | nothing =>
    cases m with
    | paymentTrying => exact .pending
    | paymentFail | paymentSuccess => exact .outcome _ (by decide)
  | pending =>
    cases m with
    | paymentTrying => simp [Order.needsMessage, hs] at hm
    | paymentFail | paymentSuccess => exact .both _ (by decide)
  | outcome m' hm' =>
    rw [(m'.terminal_iff).mpr hm'] at hopen
    cases hopen
  | both m' hm' =>
    rw [(m'.terminal_iff).mpr hm'] at hopen
    cases hopen

/-- Of the outcome messages, the one that was sent last is the only one. -/
theorem Told.outcomes {l : List MessageType} {m : MessageType} (h : Told l (.ofMessage m))
    (hm : m ≠ .paymentTrying) : l.filter (· ≠ .paymentTrying) = [m] := by
  generalize hs : MessageSent.ofMessage m = sent at h
  cases h with
  | nothing => cases m <;> cases hs
  | pending => cases m <;> first | exact absurd rfl hm | cases hs
  | outcome m' hm' => cases m <;> cases m' <;> first | exact absurd rfl hm | rfl | cases hs
  | both m' hm' => cases m <;> cases m' <;> first | exact absurd rfl hm | rfl | cases hs

/-- The order exists and remembers the last message sent. -/
structure World.Remembers (o : OrderRef) (w : World) : Prop where
  exists_order : o < w.orders.length
  told : Told (w.messages o) (w.order o).sent

theorem Change.remembers {s : Setup} {w v : World} (h : Change s w v) {o : OrderRef}
    (hw : w.Remembers o) : v.Remembers o := by
  refine ⟨by rw [h.length]; exact hw.exists_order, ?_⟩
  cases h.message o hw.exists_order with
  | kept hs hm =>
    rw [hs, hm]
    exact hw.told
  | told m hn hs hm =>
    rw [hs, hm]
    exact hw.told.append hn

theorem World.Evolves.remembers {s : Setup} {w v : World} (h : w.Evolves s v)
    (hclock : w.clock ≤ World.lastClock) {o : OrderRef} (hw : w.Remembers o) : v.Remembers o :=
  (h.preserves hclock (fun _ _ _ hc => hc.remembers)
    (fun _ _ _ _ hu => ⟨hu.exists_order, hu.told⟩) hw).2

end Fulfilment
