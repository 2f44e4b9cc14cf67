import Fulfilment.Proofs.Faultless.Turn

/-! The books of a run in which nothing fails: who ordered what, and which order travelled which leg
when.

* `Tally`: the purchases in their order, and the legs travelled in theirs.
* `Purchase.shipment`, `Purchase.bill`, `Purchase.message`: what the collaborators keep of a purchase,
  up to ids and times.
* `System.Tells`: the system is what its tally says.
* `Tells.turn`, `Tells.after`: so it stays, whatever happens in which order. -/
namespace Fulfilment

set_option autoImplicit false

/-! ## Records without ids and times -/

def ShippingRecord.content (r : ShippingRecord) : ShippingRecord :=
  { r with id := default, receivedAt := default }

def PaymentRecord.content (r : PaymentRecord) : PaymentRecord :=
  { r with id := default, receivedAt := default }

def MessageRecord.content (r : MessageRecord) : MessageRecord :=
  { r with id := default, sentAt := default }

namespace Purchase

/-- The purchase as shipping keeps it. -/
def shipment (q : Purchase) : ShippingRecord := ⟨default, q.item, q.customer.address, default⟩

/-- The purchase as payment keeps it. -/
def bill (q : Purchase) : PaymentRecord := ⟨default, q.price, true, default⟩

/-- What the customer is told about it. -/
def message (_ : Purchase) : MessageRecord :=
  ⟨default, .paymentSuccess, MessageType.paymentSuccess.text, default⟩

end Purchase

/-! ## Tallies -/

theorem filterMap_range_getElem? {α : Type} (l : List α) :
    (List.range l.length).filterMap (l[·]?) = l := by
  induction l with
  | nil => rfl
  | cons a l ih =>
    rw [List.length_cons, List.range_succ_eq_map,
      List.filterMap_cons_some (f := fun i => (a :: l)[i]?) rfl, List.filterMap_map]
    exact congrArg (a :: ·) ih

structure Tally where
  placed : List Purchase := []
  travels : List (Leg × OrderRef) := []

namespace Tally

/-- How many legs an order has behind it. -/
def behind (t : Tally) (o : OrderRef) : Nat := t.travels.countP fun e => e.2 = o

/-- The purchases whose orders have travelled a leg, in the order in which they did. -/
def served (t : Tally) (l : Leg) : List Purchase :=
  t.travels.filterMap fun e => if e.1 = l then t.placed[e.2]? else none

def place (t : Tally) (q : Purchase) : Tally := { t with placed := t.placed ++ [q] }

def travel (t : Tally) (l : Leg) (o : OrderRef) : Tally :=
  { t with travels := t.travels ++ [(l, o)] }

/-- Every order travels the legs one after another, from the first one on. -/
structure Sound (t : Tally) : Prop where
  known : ∀ e ∈ t.travels, e.2 < t.placed.length
  inOrder : ∀ l o, t.travels.count (l, o) = if l.rank < t.behind o then 1 else 0
  within : ∀ o, t.behind o ≤ Leg.count

variable {t : Tally}

theorem behind_travel (l : Leg) (o p : OrderRef) :
    (t.travel l o).behind p = t.behind p + if o = p then 1 else 0 := by
  simp only [behind, travel, List.countP_append, List.countP_singleton, decide_eq_true_eq]

theorem Sound.behind_new (ht : t.Sound) {o : OrderRef} (ho : t.placed.length ≤ o) :
    t.behind o = 0 := by
  refine List.countP_eq_zero.mpr fun e he => ?_
  rw [decide_eq_true_eq]
  rintro rfl
  exact absurd (ht.known e he) (Nat.not_lt.mpr ho)

theorem Sound.place (ht : t.Sound) (q : Purchase) : (t.place q).Sound where
  known := by
    intro e he
    rw [Tally.place, List.length_append]
    exact Nat.lt_add_right _ (ht.known e he)
  inOrder := ht.inOrder
  within := ht.within

theorem Sound.travel (ht : t.Sound) {l : Leg} {o : OrderRef} (ho : o < t.placed.length)
    (hl : t.behind o = l.rank) : (t.travel l o).Sound where
  known := by
    intro e he
    obtain he | he := List.mem_append.mp he
    · exact ht.known e he
    · rw [List.mem_singleton.mp he]
      exact ho
  inOrder := by
    intro k p
    have hcount := ht.inOrder k p
    rw [behind_travel, Tally.travel, List.count_append, List.count_singleton, hcount]
    simp only [beq_iff_eq, Prod.mk.injEq]
    by_cases hp : o = p
    · subst hp
      have hk : l = k ↔ l.rank = k.rank := ⟨congrArg Leg.rank, Leg.rank_injective⟩
      simp only [hl, hk, and_true, if_true]
      split_ifs <;> omega
    · simp only [hp, and_false, if_false]
      rfl
  within := by
    intro p
    have hwithin := ht.within p
    have hrank := l.rank_lt
    rw [behind_travel]
    split
    · next hp =>
      subst hp
      omega
    · exact hwithin

theorem served_travel {l : Leg} {o : OrderRef} {q : Purchase} (hq : t.placed[o]? = some q)
    (k : Leg) : (t.travel l o).served k = t.served k ++ if l = k then [q] else [] := by
  simp only [served, travel, List.filterMap_append]
  congr 1
  split
  · next hk => simp [hk, hq]
  · next hk => simp [hk]

theorem Sound.served_place (ht : t.Sound) (q : Purchase) (k : Leg) :
    (t.place q).served k = t.served k := by
  refine List.filterMap_congr fun e he => ?_
  have hplaced : (t.placed ++ [q])[e.2]? = t.placed[e.2]? :=
    List.getElem?_append_left (ht.known e he)
  simp only [Tally.place, hplaced]

/-- Once every order has all legs behind it, each leg has served every purchase once. -/
theorem Sound.served_perm (ht : t.Sound) (hover : ∀ o < t.placed.length, t.behind o = Leg.count)
    (l : Leg) : (t.served l).Perm t.placed := by
  let orders := t.travels.filterMap fun e => if e.1 = l then some e.2 else none
  have hcount (o : OrderRef) : orders.count o = t.travels.count (l, o) := by
    simp only [orders, List.count, List.countP_filterMap]
    refine List.countP_congr fun e _ => ?_
    obtain ⟨k, p⟩ := e
    by_cases hk : k = l
    · simp [hk]
    · simp [hk]
  have hperm : orders.Perm (List.range t.placed.length) := by
    refine List.perm_iff_count.mpr fun o => ?_
    rw [hcount, ht.inOrder, List.count_range]
    by_cases ho : o < t.placed.length
    · rw [hover o ho, if_pos l.rank_lt, if_pos ho]
    · rw [ht.behind_new (Nat.le_of_not_lt ho), if_neg (Nat.not_lt_zero _), if_neg ho]
  have hserved : t.served l = orders.filterMap (t.placed[·]?) := by
    rw [List.filterMap_filterMap]
    refine List.filterMap_congr fun e _ => ?_
    split <;> rfl
  rw [hserved]
  exact (hperm.filterMap _).trans (.of_eq (filterMap_range_getElem? t.placed))

end Tally

/-! ## What the tally tells of a world -/

/-- What a change of one element leaves alone, it leaves alone throughout the list. -/
theorem map_modify_of_same {α β : Type} {view : α → β} {f : α → α}
    (h : ∀ x, view (f x) = view x) (l : List α) (i : Nat) :
    (l.modify i f).map view = l.map view := by
  induction l generalizing i with
  | nil => rw [List.modify_nil]
  | cons a l ih =>
    cases i with
    | zero => exact congrArg (· :: l.map view) (h a)
    | succ i => exact congrArg (view a :: ·) (ih i)

theorem World.Undisturbed.all_direct {w v : World} (h : w.Undisturbed v)
    (hw : w.journal.all Event.isDirect = true) : v.journal.all Event.isDirect = true := by
  obtain ⟨new, hjournal, hnew⟩ := h.journal
  rw [hjournal, List.all_append, hnew, hw]
  rfl

/-- What the collaborators have been asked is what the tally says; the queue store and the employee
handle are empty. -/
structure Collaborators.Tells (c : Collaborators) (t : Tally) : Prop where
  shipping : c.shipping.values.map ShippingRecord.content = (t.served .shipping).map Purchase.shipment
  payment : c.payment.values.map PaymentRecord.content = (t.served .charging).map Purchase.bill
  messaging : c.messaging.values.map MessageRecord.content =
    (t.served .delivering).map Purchase.message
  employee : c.employee = {}
  store : c.store = []
  added : c.added = []

/-- A leg adds the record of its order to those that its collaborator has. -/
theorem Collaborators.Tells.serve {c : Collaborators} {t : Tally} (h : c.Tells t) (l : Leg)
    {o : OrderRef} {x : Order} (hx : t.placed[o]? = some x.purchase) (now : Instant) :
    (l.serve x now c).Tells (t.travel l o) := by
  have same {k : Leg} (hk : l ≠ k) : (t.travel l o).served k = t.served k := by
    rw [Tally.served_travel hx, if_neg hk, List.append_nil]
  have new {k : Leg} (hk : l = k) : (t.travel l o).served k = t.served k ++ [x.purchase] := by
    rw [Tally.served_travel hx, if_pos hk]
  obtain ⟨hshipping, hpayment, hmessaging, hemployee, hstore, hadded⟩ := h
  cases l with
  | shipping =>
    refine ⟨?_, ?_, ?_, hemployee, hstore, hadded⟩
    · obtain ⟨id, hid⟩ := c.values_recordFresh c.shipping
        fun id => ⟨id, x.item, x.customer.address, .ofInstant now⟩
      rw [new rfl, List.map_append, ← hshipping]
      exact (congrArg _ hid).trans (List.map_append ..)
    · rwa [same (by decide)]
    · rwa [same (by decide)]
  | charging =>
    refine ⟨?_, ?_, ?_, hemployee, hstore, hadded⟩
    · rwa [same (by decide)]
    · obtain ⟨id, hid⟩ := c.values_recordFresh c.payment fun id => ⟨id, x.price, true, .ofInstant now⟩
      rw [new rfl, List.map_append, ← hpayment]
      exact (congrArg _ hid).trans (List.map_append ..)
    · rwa [same (by decide)]
  | delivering =>
    refine ⟨?_, ?_, ?_, hemployee, hstore, hadded⟩
    · rwa [same (by decide)]
    · rwa [same (by decide)]
    · obtain ⟨id, hid⟩ := c.values_recordFresh c.messaging
        fun id => ⟨id, .paymentSuccess, MessageType.text .paymentSuccess, .ofInstant now⟩
      rw [new rfl, List.map_append, ← hmessaging]
      exact (congrArg _ hid).trans (List.map_append ..)
  | placing | paying | telling =>
    refine ⟨?_, ?_, ?_, hemployee, hstore, hadded⟩
    · rwa [same (by decide)]
    · rwa [same (by decide)]
    · rwa [same (by decide)]

namespace System

/-- The orders, what is left to do, and the collaborators are as the tally says; ids in use are
registered, and neither the queue was used nor did anything sleep. -/
structure Tells (σ : System) (t : Tally) : Prop where
  sound : t.Sound
  placed : σ.world.orders.map Order.purchase = t.placed
  along : ∀ o < t.placed.length, (σ.world.order o).Along (t.behind o)
  left : ∀ l o, σ.load (Action.isAt l o) = if o < t.placed.length ∧ t.behind o = l.rank then 1 else 0
  collaborators : σ.world.collaborators.Tells t
  distinct : (σ.world.orders.map (·.id.text)).Nodup
  used : σ.world.orders.map (·.id.text) ⊆ σ.world.ids.used
  queued : ∀ c, σ.world.queuedItems c = 0
  journal : σ.world.journal.all Event.isDirect = true

section Steps
variable {s : Setup} {σ τ : System} {t : Tally}

theorem Tells.length (h : σ.Tells t) : σ.world.orders.length = t.placed.length := by
  rw [← h.placed, List.length_map]

theorem Tells.here (h : σ.Tells t) {l : Leg} {o : OrderRef} (hl : 0 < σ.load (Action.isAt l o)) :
    o < t.placed.length ∧ t.behind o = l.rank := by
  rw [h.left] at hl
  by_contra hnot
  rw [if_neg hnot] at hl
  exact absurd hl (Nat.lt_irrefl 0)

theorem Tells.ready (h : σ.Tells t) : σ.Ready := by
  intro l o hl
  obtain ⟨ho, hbehind⟩ := h.here hl
  have halong := h.along o ho
  rw [hbehind] at halong
  exact ⟨h.length ▸ ho, halong⟩

theorem Tells.purchase (h : σ.Tells t) {o : OrderRef} (ho : o < t.placed.length) :
    t.placed[o]? = some (σ.world.order o).purchase := by
  rw [← h.length] at ho
  rw [← h.placed, List.getElem?_map, World.order, List.getD_eq_getElem?_getD,
    List.getElem?_eq_getElem ho]
  rfl

/-! ### A leg -/

section Travel
variable {l : Leg} {o : OrderRef} (h : σ.Tells t) (ho : o < t.placed.length)
  (hbehind : t.behind o = l.rank)
include h ho hbehind

theorem Tells.along_travel (horders : τ.world.orders = σ.world.orders.modify o l.mark)
    {p : OrderRef} (hp : p < t.placed.length) :
    (τ.world.order p).Along ((t.travel l o).behind p) := by
  have halong := h.along p hp
  have horder : τ.world.order p = (σ.world.modifyOrder o l.mark).order p := by
    rw [World.order, horders]
    rfl
  rw [horder, World.order_modifyOrder, Tally.behind_travel]
  by_cases hpo : p = o
  · subst hpo
    have hin : p < σ.world.orders.length := h.length ▸ ho
    rw [hbehind] at halong
    simp only [hin, hbehind, and_self, if_true]
    exact halong.mark
  · simp only [hpo, Ne.symm hpo, false_and, if_false, Nat.add_zero]
    exact halong

/-- Of the order that travelled the next leg is left, and of the others what was left before. -/
theorem Tells.left_travel (hloads : LoadsPast l o σ τ) (k : Leg) (p : OrderRef) :
    τ.load (Action.isAt k p) =
      if p < t.placed.length ∧ (t.travel l o).behind p = k.rank then 1 else 0 := by
  have hload := hloads k p
  rw [h.left k p] at hload
  rw [Tally.behind_travel]
  simp only [Leg.next?_eq_some_iff] at hload
  by_cases hpo : p = o
  · subst hpo
    have hk : k = l ↔ l.rank = k.rank :=
      ⟨fun hkl => congrArg Leg.rank hkl.symm, fun hrank => (Leg.rank_injective hrank).symm⟩
    simp only [hbehind, hk, ho, and_true, true_and, if_true] at hload ⊢
    split_ifs at hload ⊢ <;> omega
  · simp only [hpo, Ne.symm hpo, and_false, if_false, Nat.add_zero] at hload ⊢
    exact hload

theorem Tells.travel (horders : τ.world.orders = σ.world.orders.modify o l.mark)
    (hcollaborators : τ.world.collaborators =
      l.serve (σ.world.order o) σ.world.now σ.world.collaborators)
    (hundisturbed : σ.world.Undisturbed τ.world) (hloads : LoadsPast l o σ τ) :
    τ.Tells (t.travel l o) := by
  have hkept {α : Type} (view : Order → α) (hview : ∀ x, view (l.mark x) = view x) :
      τ.world.orders.map view = σ.world.orders.map view := by
    rw [horders]
    exact map_modify_of_same hview σ.world.orders o
  have hids := hkept (·.id.text) fun x => congrArg OrderId.text (l.mark_same x).2
  refine ⟨h.sound.travel ho hbehind, ?_, fun p => h.along_travel ho hbehind horders,
    h.left_travel ho hbehind hloads, ?_, ?_, ?_, fun c => ?_, hundisturbed.all_direct h.journal⟩
  · rw [hkept Order.purchase fun x => (l.mark_same x).1]
    exact h.placed
  · rw [hcollaborators]
    exact h.collaborators.serve l (h.purchase ho) _
  · rw [hids]
    exact h.distinct
  · rw [hids, hundisturbed.ids]
    exact h.used
  · rw [World.queuedItems, hundisturbed.queued]
    exact h.queued c

end Travel

theorem Tells.aside (h : σ.Tells t) (horders : τ.world.orders = σ.world.orders)
    (hcollaborators : τ.world.collaborators = σ.world.collaborators)
    (hundisturbed : σ.world.Undisturbed τ.world)
    (hloads : ∀ k p, τ.load (Action.isAt k p) = σ.load (Action.isAt k p)) : τ.Tells t where
  sound := h.sound
  placed := by
    rw [horders]
    exact h.placed
  along := by
    intro o ho
    rw [World.order, horders]
    exact h.along o ho
  left := by
    intro l o
    rw [hloads]
    exact h.left l o
  collaborators := by
    rw [hcollaborators]
    exact h.collaborators
  distinct := by
    rw [horders]
    exact h.distinct
  used := by
    rw [horders, hundisturbed.ids]
    exact h.used
  queued := by
    intro c
    rw [World.queuedItems, hundisturbed.queued]
    exact h.queued c
  journal := hundisturbed.all_direct h.journal

/-! ### An order -/

section Place
variable {x : Order} {ids : Register} {draws : Draws} (h : σ.Tells t)
  (hworld : τ.world = Rehearsal.addOrder x { σ.world with ids, draws })
include h

include hworld in
theorem Tells.along_place (hx : x.Along 0) {o : OrderRef} (ho : o < t.placed.length + 1) :
    (τ.world.order o).Along (t.behind o) := by
  rw [hworld, World.order_addOrder, h.length]
  by_cases hlast : o = t.placed.length
  · rw [if_pos hlast, hlast, h.sound.behind_new (Nat.le_refl _)]
    exact hx
  · rw [if_neg hlast]
    exact h.along o (Nat.lt_of_le_of_ne (Nat.le_of_lt_succ ho) hlast)

/-- The new order is to be placed. -/
theorem Tells.left_place (hloads : ∀ k p, τ.load (Action.isAt k p) =
      σ.load (Action.isAt k p) + if k = .placing ∧ p = σ.world.orders.length then 1 else 0)
    (l : Leg) (o : OrderRef) :
    τ.load (Action.isAt l o) =
      if o < t.placed.length + 1 ∧ t.behind o = l.rank then 1 else 0 := by
  rw [hloads, h.left, h.length]
  by_cases hlast : o = t.placed.length
  · subst hlast
    have hl : l = .placing ↔ 0 = l.rank :=
      ⟨fun hl => (congrArg Leg.rank hl).symm, fun hrank => Leg.rank_injective hrank.symm⟩
    have hzero : t.behind t.placed.length = 0 := h.sound.behind_new (Nat.le_refl _)
    simp only [hzero, hl, Nat.lt_irrefl, Nat.lt_succ_self, false_and, true_and, and_true, if_false,
      Nat.zero_add]
  · have hlt : o < t.placed.length + 1 ↔ o < t.placed.length :=
      ⟨fun ho => Nat.lt_of_le_of_ne (Nat.le_of_lt_succ ho) hlast, Nat.lt_succ_of_lt⟩
    simp only [hlast, hlt, and_false, if_false, Nat.add_zero]

include hworld in
theorem Tells.order (hx : x.Along 0) (hfresh : x.id.text ∉ σ.world.ids.used)
    (hused : ids.used = x.id.text :: σ.world.ids.used)
    (hloads : ∀ k p, τ.load (Action.isAt k p) =
      σ.load (Action.isAt k p) + if k = .placing ∧ p = σ.world.orders.length then 1 else 0) :
    τ.Tells (t.place x.purchase) := by
  have hnew : (t.place x.purchase).placed.length = t.placed.length + 1 := by
    rw [Tally.place, List.length_append, List.length_singleton]
  have horders : τ.world.orders = σ.world.orders ++ [x] := by rw [hworld, Rehearsal.addOrder]
  refine ⟨h.sound.place _, ?_, fun o ho => h.along_place hworld hx (hnew ▸ ho), ?_, ?_, ?_, ?_, ?_, ?_⟩
  · rw [horders, List.map_append, h.placed]
    rfl
  · rw [hnew]
    exact h.left_place hloads
  · have hserved := h.sound.served_place x.purchase
    obtain ⟨hshipping, hpayment, hmessaging, hemployee, hstore, hadded⟩ := h.collaborators
    rw [hworld]
    refine ⟨?_, ?_, ?_, hemployee, hstore, hadded⟩
    · rwa [hserved]
    · rwa [hserved]
    · rwa [hserved]
  · rw [horders, List.map_append, List.map_singleton, List.nodup_append_comm]
    exact List.nodup_cons.mpr ⟨fun hmem => hfresh (h.used hmem), h.distinct⟩
  · have hids : τ.world.ids = ids := by rw [hworld, Rehearsal.addOrder]
    rw [horders, hids, hused, List.map_append]
    refine List.append_subset.mpr ⟨List.subset_cons_of_subset _ h.used, ?_⟩
    exact List.cons_subset.mpr ⟨List.mem_cons_self .., List.nil_subset _⟩
  · rw [hworld]
    exact h.queued
  · rw [hworld]
    exact h.journal

end Place

/-! ## Runs -/

/-- The tally goes on with whatever happens. -/
theorem Tells.turn {q : Option Purchase} (h : σ.Tells t) (hturn : Turn σ τ q) :
    ∃ u, τ.Tells u ∧ u.placed = t.placed ++ q.toList := by
  cases hturn with
  | travelled l o here horders hcollaborators hundisturbed hloads =>
    obtain ⟨ho, hbehind⟩ := h.here here
    refine ⟨_, h.travel ho hbehind horders hcollaborators hundisturbed hloads, ?_⟩
    exact (List.append_nil _).symm
  | aside horders hcollaborators hundisturbed hloads =>
    exact ⟨t, h.aside horders hcollaborators hundisturbed hloads, (List.append_nil _).symm⟩
  | ordered x hx ids draws hfresh hused hworld hloads =>
    exact ⟨_, h.order hworld hx hfresh hused hloads, rfl⟩

theorem Tells.after {happenings : List Happening} (h : σ.Tells t) (hσ : σ.Direct s)
    (hdirect : ∀ k ∈ happenings, k.isDirect = true)
    (htimely : ∀ before, before <+: happenings →
      ∀ υ, after? s before σ = some υ → υ.world.Timely s)
    (hτ : after? s happenings σ = some τ) :
    ∃ u, τ.Tells u ∧ u.placed = t.placed ++ happenings.filterMap Happening.purchase? ∧
      τ.Direct s := by
  induction happenings generalizing σ t with
  | nil =>
    cases hτ
    exact ⟨t, h, (List.append_nil _).symm, hσ⟩
  | cons k happenings ih =>
    simp only [after?, Option.bind_eq_some_iff] at hτ
    obtain ⟨υ, hk, hτ⟩ := hτ
    have hnow : σ.world.Timely s := htimely [] List.nil_prefix σ rfl
    obtain ⟨hturn, hυ⟩ := hσ.turn (hdirect k (List.mem_cons_self ..)) h.ready hnow hk
    obtain ⟨u, hu, hplaced⟩ := h.turn hturn
    have htimely' : ∀ before, before <+: happenings →
        ∀ ω, after? s before υ = some ω → ω.world.Timely s := by
      intro before hbefore ω hω
      refine htimely (k :: before) (List.cons_prefix_cons.mpr ⟨rfl, hbefore⟩) ω ?_
      rw [after?, hk]
      exact hω
    obtain ⟨u', hu', hplaced', hτ'⟩ :=
      ih hu hυ (fun k hk => hdirect k (List.mem_cons_of_mem _ hk)) htimely' hτ
    refine ⟨u', hu', ?_, hτ'⟩
    rw [hplaced', hplaced, List.append_assoc, List.filterMap_cons]
    cases k.purchase? <;> rfl

end Steps
end System
end Fulfilment
