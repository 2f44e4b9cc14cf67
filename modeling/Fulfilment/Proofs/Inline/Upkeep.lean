import Fulfilment.Proofs.Inline.Ledger
import Fulfilment.Proofs.Stage.Progress

/-! What the steps of a ledger keep, the actions to come included.

* `Kept`: a task is settled, seen to by some action, or in the queue and not visited yet.
* `Drained`: the counter is right, and a queue that is not empty is looked at again.
* `RemovesNext`: a removal comes right after the visit that decided on it. -/
namespace Fulfilment

set_option autoImplicit false

namespace Ledger
variable {c : CoordinatorRef} {o : OrderRef} {l l' : Ledger} {a : Action} {todo rest : List Action}

/-! ## The order -/

theorem Step.later (h : Step c o l a l' todo) : l.order.Later l'.order := by
  cases h with
  | paid n hp hs => exact Order.later_payment hp .done
  | rejected n script hp hs => exact Order.later_payment hp .notDone
  | told n m hm => exact Order.later_sent hm
  | handed n => exact Order.later_escalated _
  | _ => exact .refl _

/-! ## Removals -/

/-- The head of the queue was visited before. -/
def HeadVisited (l : Ledger) : Prop := ∀ t rest, l.store = t :: rest → t.firstAttempt ≠ none

/-- Only the next action may remove the head, and the head was visited. -/
def RemovesNext (l : Ledger) : List Action → Prop
  | [] => True
  | a :: rest => (a.removes = true → l.HeadVisited) ∧ ∀ b ∈ rest, b.removes = false

theorem removesNext_of_none (h : ∀ b ∈ todo, b.removes = false) : l.RemovesNext todo := by
  cases todo with
  | nil => trivial
  | cons a todo =>
    refine ⟨fun ha => ?_, fun b hb => h b (List.mem_cons_of_mem _ hb)⟩
    rw [h a (List.mem_cons_self ..)] at ha
    cases ha

theorem RemovesNext.append (h : l.RemovesNext todo) (hr : ∀ b ∈ rest, b.removes = false) :
    l.RemovesNext (todo ++ rest) := by
  cases todo with
  | nil => exact removesNext_of_none hr
  | cons a todo =>
    refine ⟨h.1, fun b hb => ?_⟩
    obtain hb | hb := List.mem_append.mp hb
    · exact h.2 b hb
    · exact hr b hb

theorem Step.removes (h : Step c o l a l' todo) (ha : a.removes = true → l.HeadVisited) :
    l'.RemovesNext todo := by
  have none_of {x : Ledger} {more : List Action} {b : Action} (hb : b.removes = false)
      (hmore : ∀ d ∈ more, d = b) : ∀ d ∈ more, d.removes = false := fun d hd => by
    rw [hmore d hd, hb]
  cases h with
  | spawned a work hw =>
    refine ⟨fun hr => ha ?_, by simp [Action.removes]⟩
    rw [removes_of_work? hw c 0]
    exact hr
  | again work n m d f script hw hf hs =>
    refine removesNext_of_none ?_
    cases work with
    | dequeue => exact absurd rfl hw
    | _ => simp [Action.removes]
  | turnedAway n more hmore =>
    exact removesNext_of_none fun b hb => by rw [hmore b hb]; rfl
  | notPaid n f script more hf hs hmore =>
    refine removesNext_of_none fun b hb => ?_
    obtain hb | hb := List.mem_append.mp hb
    · rw [hmore b hb]
      rfl
    · rw [List.mem_singleton.mp hb]
      rfl
  | putOff work n t more hw hmore =>
    refine removesNext_of_none fun b hb => ?_
    obtain rfl | hb := List.mem_cons.mp hb
    · rfl
    · rw [hmore b hb]
      rfl
  | dropped n t rest now hs ht =>
    refine ⟨fun _ u more hu => ?_, by simp [Action.removes]⟩
    cases hu
    exact Option.some_ne_none _
  | retried n t rest now hs ht =>
    refine removesNext_of_none fun b hb => ?_
    obtain rfl | hb := List.mem_cons.mp hb
    · exact retry_removes c ht
    · rw [List.mem_singleton.mp hb]
      rfl
  | _ => exact removesNext_of_none (by simp [Action.removes])

theorem Step.removesNext (h : Step c o l a l' todo) (hl : l.RemovesNext (a :: rest)) :
    l'.RemovesNext (todo ++ rest) :=
  (h.removes hl.1).append hl.2

/-! ## Tasks -/

/-- The tasks of an order, as they are put off. -/
inductive Fresh (o : OrderRef) : Task → Prop
  | payment : Fresh o (.payment o)
  | messaging (m : MessageType) : Fresh o (.messaging o m)
  | employeeDb : Fresh o (.employeeDb o)

theorem Fresh.unvisited {t : Task} (h : Fresh o t) : t.firstAttempt = none := by
  cases h <;> rfl

theorem Fresh.retry {t : Task} (h : Fresh o t) (c : CoordinatorRef) :
    (t.retry c).task? = some t := by
  cases h <;> rfl

/-- The task is settled, seen to by some action, or in the queue and not visited yet. -/
def Kept (l : Ledger) (agenda : List Action) (t : Task) : Prop :=
  t.isSettled l.order = true ∨ (∃ a ∈ agenda, a.task? = some t) ∨ t ∈ l.store

theorem Kept.append {t : Task} (h : l.Kept todo t) : l.Kept (todo ++ rest) t := by
  obtain h | ⟨a, ha, ht⟩ | h := h
  · exact .inl h
  · exact .inr (.inl ⟨a, List.mem_append_left _ ha, ht⟩)
  · exact .inr (.inr h)

theorem Kept.of_head {t : Task} (h : a.task? = some t) : l.Kept (a :: rest) t :=
  .inr (.inl ⟨a, List.mem_cons_self .., h⟩)

/-- An action that sees to a task settles it or leaves it to see to. -/
theorem Step.sees (h : Step c o l a l' todo) {t : Task} (ht : a.task? = some t) :
    l'.Kept todo t := by
  cases h with
  | idle a ha =>
    rw [task?_of_idle ha] at ht
    cases ht
  | spawned a work hw =>
    rw [task?_of_work? hw c 0] at ht
    exact .of_head ht
  | alreadyDone u hu =>
    cases ht
    exact .inl hu
  | deferred =>
    cases ht
    exact .of_head rfl
  | notDeferred hp =>
    cases ht
    exact .inl (Task.isSettled_payment hp)
  | again work n m d f script hw hf hs =>
    exact .inr (.inl ⟨_, List.mem_cons_of_mem _ (List.mem_singleton.mpr rfl), ht⟩)
  | settled work n u script hw hu hs =>
    have hut : u = t := Option.some.inj (hw.symm.trans ht)
    subst hut
    exact .inl hu
  | paid n hp hs =>
    cases ht
    exact .inl rfl
  | rejected n script hp hs =>
    cases ht
    exact .inl rfl
  | notPaid n f script more hf hs hmore =>
    exact .inr (.inl ⟨_, List.mem_append_right _ (List.mem_singleton.mpr rfl), ht⟩)
  | told n m hm =>
    cases ht
    refine .inl (Task.isSettled_messaging ?_)
    cases m <;> simp [Order.needsMessage, MessageSent.ofMessage, MessageSent.isTerminal]
  | handed n =>
    cases ht
    exact .inl rfl
  | putOff work n u more hw hmore =>
    have hut : u = t := Option.some.inj (hw.symm.trans ht)
    subst hut
    exact .of_head rfl
  | added n u =>
    cases ht
    exact .inr (.inr (List.mem_append_right _ (List.mem_singleton.mpr rfl)))
  | nothingThere work n hw hs =>
    have hnone : some t = none := ht.symm.trans hw
    cases hnone
  | placing | drained | drainsOn | shipped | turnedAway | unneeded | dropped | retried | removed =>
    cases ht

/-- A task in the queue stays there, or its turn comes. -/
theorem Step.queued (h : Step c o l a l' todo) (ha : a.removes = true → l.HeadVisited) {t : Task}
    (ht : Fresh o t) (hmem : t ∈ l.store) : l'.Kept todo t := by
  cases h with
  | added n u => exact .inr (.inr (List.mem_append_left _ hmem))
  | dropped n u rest now hs hu =>
    rw [hs] at hmem
    obtain rfl | hmem := List.mem_cons.mp hmem
    · exact .inl (hu ht.unvisited)
    · exact .inr (.inr (List.mem_cons_of_mem _ hmem))
  | retried n u rest now hs hu =>
    rw [hs] at hmem
    obtain rfl | hmem := List.mem_cons.mp hmem
    · exact .of_head (ht.retry c)
    · exact .inr (.inr (List.mem_cons_of_mem _ hmem))
  | removed n u rest hs =>
    have hvisited := ha rfl u rest hs
    rw [hs] at hmem
    obtain rfl | hmem := List.mem_cons.mp hmem
    · exact absurd ht.unvisited hvisited
    · exact .inr (.inr hmem)
  | _ => exact .inr (.inr hmem)

theorem Step.kept (h : Step c o l a l' todo) (hl : l.RemovesNext (a :: rest)) {t : Task}
    (ht : Fresh o t) (hk : l.Kept (a :: rest) t) : l'.Kept (todo ++ rest) t := by
  obtain hs | ⟨b, hb, hbt⟩ | hmem := hk
  · exact .inl (h.later.settled t hs)
  · obtain rfl | hb := List.mem_cons.mp hb
    · exact (h.sees hbt).append
    · exact .inr (.inl ⟨b, List.mem_append_right _ hb, hbt⟩)
  · exact (h.queued hl.1 ht hmem).append

/-! ## The queue -/

/-- The counter is right, and a queue that is not empty is looked at again. -/
structure Drained (l : Ledger) (agenda : List Action) : Prop where
  counted : l.counted = some l.store.length
  looked : l.store = [] ∨ ∃ a ∈ agenda, a.drains = true

theorem Step.counts (h : Step c o l a l' todo) (hl : l.counted = some l.store.length) :
    l'.counted = some l'.store.length := by
  cases h with
  | added n t => simp only [hl, Option.map_some, List.length_append, List.length_singleton]
  | dropped n t rest now hs ht => simp only [hl, hs, List.length_cons]
  | retried n t rest now hs ht => simp only [hl, hs, List.length_cons]
  | removed n t rest hs =>
    simp only [hl, hs, Option.map_some, List.length_cons, Nat.add_sub_cancel]
  | _ => exact hl

/-- A look at the queue leads to another one, unless the queue is empty. -/
theorem Step.looks (h : Step c o l a l' todo) (hl : l.counted = some l.store.length)
    (ha : a.drains = true) : l'.store = [] ∨ ∃ b ∈ todo, b.drains = true := by
  have head {b : Action} {more : List Action} (hb : b.drains = true) :
      ∃ d ∈ b :: more, d.drains = true := ⟨b, List.mem_cons_self .., hb⟩
  have second {b d : Action} (hd : d.drains = true) : ∃ e ∈ [b, d], e.drains = true :=
    ⟨d, List.mem_cons_of_mem _ (List.mem_singleton.mpr rfl), hd⟩
  cases h with
  | idle a hidle =>
    rw [drains_of_idle hidle] at ha
    cases ha
  | spawned a work hw =>
    rw [drains_of_work? hw c 0] at ha
    exact .inr (head ha)
  | drained h =>
    rw [hl] at h
    exact .inl (List.length_eq_zero_iff.mp h)
  | drainsOn d => exact .inr (second rfl)
  | again work n m d f script hw hf hs =>
    rw [drains_attempt ha] at hw
    exact absurd rfl hw
  | settled work n t script hw ht hs =>
    rw [drains_attempt ha] at hw
    cases hw
  | putOff work n t more hw hmore =>
    rw [drains_attempt ha] at hw
    cases hw
  | unneeded n => exact .inr (head rfl)
  | nothingThere work n hw hs => exact .inl hs
  | dropped n t rest now hs ht => exact .inr (second rfl)
  | retried n t rest now hs ht => exact .inr (second rfl)
  | placing | alreadyDone | deferred | notDeferred | shipped | turnedAway | paid | rejected |
    notPaid | told | handed | added | removed => cases ha

/-- A queue is filled by an action that has it looked at. -/
theorem Step.fills (h : Step c o l a l' todo) (hl : l.store = []) :
    l'.store = [] ∨ ∃ b ∈ todo, b.drains = true := by
  cases h with
  | added n t => exact .inr ⟨_, List.mem_singleton.mpr rfl, rfl⟩
  | dropped n t rest now hs ht =>
    rw [hl] at hs
    cases hs
  | retried n t rest now hs ht =>
    rw [hl] at hs
    cases hs
  | removed n t rest hs =>
    rw [hl] at hs
    cases hs
  | _ => exact .inl hl

theorem Step.keeps_drained (h : Step c o l a l' todo) (hl : l.Drained (a :: rest)) :
    l'.Drained (todo ++ rest) := by
  have widen (hx : l'.store = [] ∨ ∃ b ∈ todo, b.drains = true) :
      l'.store = [] ∨ ∃ b ∈ todo ++ rest, b.drains = true := by
    obtain hx | ⟨b, hb, hd⟩ := hx
    · exact .inl hx
    · exact .inr ⟨b, List.mem_append_left _ hb, hd⟩
  refine ⟨h.counts hl.counted, ?_⟩
  obtain he | ⟨b, hb, hd⟩ := hl.looked
  · exact widen (h.fills he)
  · obtain rfl | hb := List.mem_cons.mp hb
    · exact widen (h.looks hl.counted hd)
    · exact .inr ⟨b, List.mem_append_right _ hb, hd⟩

end Ledger
end Fulfilment
