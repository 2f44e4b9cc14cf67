import Fulfilment.Proofs.Books.Topic
import Fulfilment.Proofs.Employee.Handle
import Fulfilment.Proofs.History.Clock
import Fulfilment.Proofs.Queue.Accounts

/-! An order is handed to the employees at most once, its mark tells whether it was, and what they
hold is never changed, wherever the clock goes.

* `World.handovers`: the requests for an order that the employees accepted.
* `Effect.handing`: an action leaves handle, marks and count alone, or hands one order over.
* `System.Accounted`: marks, records and count agree; no happening breaks that.
* `System.escalated_once`. -/
namespace Fulfilment

set_option autoImplicit false

/-! ## Records -/

namespace Records
variable {κ ν : Type} [DecidableEq κ]

/-- A record that is there is found after every insertion. -/
theorem get?_insertIfAbsent (r : Records κ ν) (k k' : κ) (x y : ν) (h : r.get? k = some x) :
    (r.insertIfAbsent k' y).2.get? k = some x := by
  simp only [get?] at h
  simp only [insertIfAbsent]
  split
  · exact h
  · simp only [get?, push, List.lookup_append, h, Option.some_or]

end Records

/-! ## Requests accepted -/

/-- The employees accepted a request for this order. -/
def Event.isHandoverOf (o : OrderRef) : Event → Bool
  | .answered (.employee p) _ => p = o
  | _ => false

def World.handovers (w : World) (o : OrderRef) : Nat := w.journal.countP (Event.isHandoverOf o)

theorem World.handovers_eq (w : World) (o : OrderRef) :
    w.handovers o = w.deeds.countP (Event.isHandoverOf o) := by
  rw [handovers, countP_deeds]
  intro e he
  cases e with
  | answered c r => cases c <;> first | rfl | cases he
  | _ => cases he

theorem World.handovers_of_deeds {w v : World} (h : v.deeds = w.deeds) (o : OrderRef) :
    v.handovers o = w.handovers o := by
  rw [handovers_eq, handovers_eq, h]

/-! ## Actions -/

/-- The handle, the marks and the count are left alone, or an order that was not marked is handed
over by an attempt to do so. -/
inductive Handing (w : World) (a : Action) (v : World) : Prop
  | kept (hrecords : v.collaborators.employee = w.collaborators.employee)
      (hmarks : ∀ o, (v.order o).escalated = (w.order o).escalated)
      (hcount : ∀ o, v.handovers o = w.handovers o)
  | handed (p : OrderRef) (ha : a.topic? = some ⟨p, none⟩)
      (hfree : (w.order p).escalated = false)
      (hrecords : v.collaborators.employee =
        (w.collaborators.employee.insertIfAbsent (w.idOf p) (w.order p).snapshot).2)
      (hmark : p < w.orders.length → (v.order p).escalated = true)
      (hmarks : ∀ o, o ≠ p → (v.order o).escalated = (w.order o).escalated)
      (hcount : ∀ o, v.handovers o = w.handovers o + if p = o then 1 else 0)

section Actions
variable {s : Setup} {w v : World} {a : Action} {todo : List Action}

/-- A change that leaves the marks alone, and a deed that is no handover. -/
theorem Handing.of_books {b : Books} (hv : v.books = b)
    (hrecords : b.employee = w.collaborators.employee)
    (hmarks : ∀ o, (b.order o).escalated = (w.order o).escalated)
    (hdeeds : b.deeds = w.deeds ∨ ∃ e, b.deeds = e :: w.deeds ∧ ∀ o, e.isHandoverOf o = false) :
    Handing w a v := by
  refine .kept ((congrArg Books.employee hv).trans hrecords) (fun o => ?_) fun o => ?_
  · exact (congrArg (fun b : Books => (b.order o).escalated) hv).trans (hmarks o)
  · have hd : v.deeds = b.deeds := congrArg Books.deeds hv
    obtain hb | ⟨e, hb, he⟩ := hdeeds
    · exact World.handovers_of_deeds (hd.trans hb) o
    · rw [World.handovers_eq, World.handovers_eq, hd, hb, List.countP_cons, he o]
      rfl

theorem Books.escalated_pay (b : Books) (o p : OrderRef) (status : PaymentStatus) :
    ((b.pay p status).order o).escalated = (b.order o).escalated :=
  b.order_change_congr Order.escalated p o _ fun _ => rfl

theorem Books.escalated_note (b : Books) (o p : OrderRef) (n : SiteNotice) :
    ((b.note p n).order o).escalated = (b.order o).escalated :=
  (congrArg Order.escalated (b.bare_note p o n) :)

theorem Success.handing {c : CoordinatorRef} {work : Work} (n : UInt32)
    (h : Success s w.books c work v todo) : Handing w (.attempt ⟨c, work⟩ n) v := by
  cases h with
  | shipped o r _ hv => exact .of_books hv rfl (fun _ => rfl) (.inr ⟨_, rfl, fun _ => rfl⟩)
  | paid o r _ hp hv =>
    refine .of_books hv rfl (fun p => ?_) (.inr ⟨_, rfl, fun _ => rfl⟩)
    exact (Books.escalated_note _ p o _).trans (Books.escalated_pay _ p o _)
  | told o m r _ hm hv =>
    refine .of_books hv rfl (fun p => ?_) (.inr ⟨_, rfl, fun _ => rfl⟩)
    exact Books.order_change_congr Order.escalated _ o p _ fun _ => rfl
  | handed p r _ he hv =>
    have hmarked (o : OrderRef) : v.order o = ((w.books.deed (.answered (.employee p) r)).change p
        fun x => { x with escalated := true }).order o :=
      congrArg (fun b : Books => b.order o) hv
    have hd : v.deeds = .answered (.employee p) r :: w.deeds := congrArg Books.deeds hv
    refine .handed p rfl he (congrArg Books.employee hv) (fun hp => ?_) (fun o ho => ?_)
      fun o => ?_
    · have hlen : p < (w.books.deed (.answered (.employee p) r)).orders.length := hp
      rw [hmarked, Books.order_change, if_pos ⟨rfl, hlen⟩]
    · rw [hmarked, Books.order_change, if_neg fun h => ho h.1]
      rfl
    · rw [World.handovers_eq, World.handovers_eq, hd, List.countP_cons]
      simp only [Event.isHandoverOf, decide_eq_true_eq]
  | added t _ hv => exact .of_books hv rfl (fun _ => rfl) (.inr ⟨_, rfl, fun _ => rfl⟩)
  | visited t rest now _ hs hc hf hv => exact .of_books hv rfl (fun _ => rfl) (.inl rfl)
  | condemned t rest now r _ hs hc hr hf hv =>
    exact .of_books hv rfl (fun _ => rfl) (.inr ⟨_, rfl, fun _ => rfl⟩)
  | removed t rest _ hs hv => exact .of_books hv rfl (fun _ => rfl) (.inr ⟨_, rfl, fun _ => rfl⟩)

theorem Setback.handing {c : CoordinatorRef} {work : Work} {f : Failure}
    (h : Setback s w.books c work f v todo) : Handing w a v := by
  cases h with
  | turnedAway o _ _ _ _ hv | notPlaced o _ _ hv | declinedLate o _ _ hv | unpaid o _ _ _ _ hv =>
    exact .of_books hv rfl (fun p => Books.escalated_note _ p o _) (.inl rfl)
  | declined o _ hp hv =>
    refine .of_books hv rfl (fun p => ?_) (.inl rfl)
    exact (Books.escalated_pay _ p o _).trans (Books.escalated_note _ p o _)
  | notQueued t f _ htype hp hv =>
    exact .of_books hv rfl (fun p => Books.escalated_pay _ p t.order _) (.inl rfl)
  | _ => next hv => exact .of_books hv rfl (fun _ => rfl) (.inl rfl)

/-- An action hands at most one order over: one that was not marked, and is now. -/
theorem Effect.handing (h : Effect s w a v todo) : Handing w a v := by
  cases h with
  | idle _ _ _ _ hv => exact .of_books hv rfl (fun _ => rfl) (.inl rfl)
  | expired c o _ hp ht hv =>
    exact .of_books hv rfl (fun p => Books.escalated_pay _ p o _) (.inl rfl)
  | crashed j n r _ hr hp hv => exact .of_books hv rfl (fun _ => rfl) (.inr ⟨_, rfl, fun _ => rfl⟩)
  | succeeded c work n _ _ hs => exact hs.handing n
  | failed c work n f _ _ hf hs => exact hs.handing
  | _ => next hv => exact .of_books hv rfl (fun _ => rfl) (.inl rfl)

end Actions

/-! ## Systems -/

namespace System
variable {s : Setup} {σ τ : System} {h : Happening}

/-- Nothing is about an order that is not there; each order is marked exactly if a request for it was
accepted, and then once; the handle holds records for the marked orders and for nothing else. -/
structure Accounted (σ : System) : Prop where
  known : σ.Known
  counted : ∀ o < σ.world.orders.length,
    σ.world.handovers o = if (σ.world.order o).escalated then 1 else 0
  parked : ∀ o, σ.world.Parks o
  owned : ∀ k ∈ σ.world.collaborators.employee.keys,
    ∃ o < σ.world.orders.length, σ.world.idOf o = k ∧ (σ.world.order o).escalated = true

theorem accounted_of_nothing (hk : σ.Known) (hmarks : ∀ o, (σ.world.order o).escalated = false)
    (hrecords : σ.world.collaborators.employee.entries = [])
    (hnone : ∀ o, σ.world.handovers o = 0) : σ.Accounted where
  known := hk
  counted o _ := by
    rw [hnone, hmarks]
    rfl
  parked o he := by
    rw [hmarks] at he
    cases he
  owned k hmem := by
    rw [Records.keys, hrecords] at hmem
    exact absurd hmem List.not_mem_nil

/-- Clock and scripts have no part in it. -/
theorem accounted_shifted (σ : System) (d : Int) : (σ.shifted d).Accounted ↔ σ.Accounted :=
  ⟨fun h => ⟨⟨h.known.topics, h.known.deeds⟩, h.counted, h.parked, h.owned⟩,
    fun h => ⟨⟨h.known.topics, h.known.deeds⟩, h.counted, h.parked, h.owned⟩⟩

/-- Accepted requests are about orders that are there. -/
theorem Known.handovers_beyond (hk : σ.Known) {o : OrderRef} (ho : σ.world.orders.length ≤ o) :
    σ.world.handovers o = 0 := by
  rw [World.handovers_eq, List.countP_eq_zero]
  intro e he hhand
  have hlt : o < σ.world.orders.length := by
    refine hk.deeds e he o ?_
    cases e with
    | answered c r =>
      cases c with
      | employee p =>
        obtain rfl : p = o := by simpa [Event.isHandoverOf] using hhand
        rfl
      | _ => cases hhand
    | _ => cases hhand
  exact Nat.not_lt.mpr ho hlt

/-- What neither adds an order nor hands one over keeps the accounts. -/
theorem Accounted.of_same (hσ : σ.Accounted) (hk : τ.Known)
    (hids : ∀ o, τ.world.idOf o = σ.world.idOf o)
    (hlen : τ.world.orders.length = σ.world.orders.length)
    (hrecords : τ.world.collaborators.employee = σ.world.collaborators.employee)
    (hmarks : ∀ o, (τ.world.order o).escalated = (σ.world.order o).escalated)
    (hcount : ∀ o, τ.world.handovers o = σ.world.handovers o) : τ.Accounted where
  known := hk
  counted o ho := by
    rw [hcount, hmarks]
    exact hσ.counted o (hlen ▸ ho)
  parked o he := by
    rw [hmarks] at he
    rw [World.informed, hrecords, hids]
    exact hσ.parked o he
  owned k hmem := by
    rw [hrecords] at hmem
    obtain ⟨o, ho, hid, he⟩ := hσ.owned k hmem
    exact ⟨o, hlen ▸ ho, (hids o).trans hid, (hmarks o).trans he⟩

/-- An order that is handed over is marked, counted and recorded. -/
theorem Accounted.of_handed (hσ : σ.Accounted) (hk : τ.Known) {p : OrderRef}
    (hp : p < σ.world.orders.length) (hids : ∀ o, τ.world.idOf o = σ.world.idOf o)
    (hlen : τ.world.orders.length = σ.world.orders.length)
    (hfree : (σ.world.order p).escalated = false)
    (hrecords : τ.world.collaborators.employee =
      (σ.world.collaborators.employee.insertIfAbsent (σ.world.idOf p)
        (σ.world.order p).snapshot).2)
    (hmark : (τ.world.order p).escalated = true)
    (hmarks : ∀ o, o ≠ p → (τ.world.order o).escalated = (σ.world.order o).escalated)
    (hcount : ∀ o, τ.world.handovers o = σ.world.handovers o + if p = o then 1 else 0) :
    τ.Accounted := by
  have hkeys : τ.world.collaborators.employee.keys =
      if σ.world.idOf p ∈ σ.world.collaborators.employee.keys then
        σ.world.collaborators.employee.keys
      else σ.world.collaborators.employee.keys ++ [σ.world.idOf p] := by
    rw [hrecords]
    exact Records.keys_insertIfAbsent _ _ _
  -- The handle may hold a record under the id already, of another order with the same one.
  have hmem (k : OrderId) : k ∈ τ.world.collaborators.employee.keys ↔
      k ∈ σ.world.collaborators.employee.keys ∨ k = σ.world.idOf p := by
    rw [hkeys]
    split
    · next hin =>
      exact ⟨.inl, fun h => h.elim id fun he => he ▸ hin⟩
    · rw [List.mem_append, List.mem_singleton]
  refine ⟨hk, fun o ho => ?_, fun o he => ?_, fun k hkmem => ?_⟩
  · have hbefore := hσ.counted o (hlen ▸ ho)
    rw [hcount, hbefore]
    by_cases hpo : p = o
    · subst hpo
      rw [hfree, hmark, if_pos rfl]
      rfl
    · rw [hmarks o (Ne.symm hpo), if_neg hpo]
      rfl
  · rw [World.informed, Records.contains_iff, hmem, hids]
    by_cases hop : o = p
    · exact .inr (by rw [hop])
    · rw [hmarks o hop] at he
      exact .inl ((Records.contains_iff _ _).mp (hσ.parked o he))
  · obtain hk' | rfl := (hmem k).mp hkmem
    · obtain ⟨o, ho, hid, he⟩ := hσ.owned k hk'
      refine ⟨o, hlen ▸ ho, (hids o).trans hid, ?_⟩
      by_cases hop : o = p
      · rw [hop]
        exact hmark
      · rw [hmarks o hop, he]
    · exact ⟨p, hlen ▸ hp, hids p, hmark⟩

/-- A new order is not marked, and nobody was asked about it before. -/
theorem Accounted.of_new (hσ : σ.Accounted) (hk : τ.Known) {x : Order} (hx : Fresh x)
    (hb : τ.world.books = σ.world.books.addOrder x) : τ.Accounted := by
  have hrecords : τ.world.collaborators.employee = σ.world.collaborators.employee :=
    congrArg Books.employee hb
  have hlen : τ.world.orders.length = σ.world.orders.length + 1 := by
    have horders : τ.world.orders = σ.world.orders ++ [x] := congrArg Books.orders hb
    rw [horders, List.length_append, List.length_singleton]
  have hcount (o : OrderRef) : τ.world.handovers o = σ.world.handovers o :=
    World.handovers_of_deeds (congrArg Books.deeds hb) o
  have hold {o : OrderRef} (ho : o < σ.world.orders.length) :
      τ.world.order o = σ.world.order o := World.order_of_addOrder hb ho
  have hmark {o : OrderRef} (ho : ¬ o < σ.world.orders.length) :
      (τ.world.order o).escalated = false := by
    have hτ : τ.world.order o = (Rehearsal.addOrder x σ.world).order o :=
      congrArg (fun b : Books => b.order o) hb
    have hadded := σ.world.order_addOrder x σ.world.ids σ.world.draws o
    rw [hτ]
    refine (congrArg Order.escalated hadded).trans ?_
    split
    · exact hx.2.2.1
    · rw [World.order_beyond _ (Nat.le_of_not_lt ho)]
      rfl
  refine ⟨hk, fun o _ => ?_, fun o he => ?_, fun k hkmem => ?_⟩
  · rw [hcount]
    by_cases ho : o < σ.world.orders.length
    · rw [hold ho]
      exact hσ.counted o ho
    · rw [hmark ho]
      exact hσ.known.handovers_beyond (Nat.le_of_not_lt ho)
  · by_cases ho : o < σ.world.orders.length
    · rw [hold ho] at he
      rw [World.informed, hrecords, World.idOf, hold ho]
      exact hσ.parked o he
    · rw [hmark ho] at he
      cases he
  · rw [hrecords] at hkmem
    obtain ⟨o, ho, hid, he⟩ := hσ.owned k hkmem
    refine ⟨o, by omega, ?_, ?_⟩
    · rw [World.idOf, hold ho]
      exact hid
    · rw [hold ho]
      exact he

theorem Accounted.happen (hσ : σ.Accounted) (ho : σ.Orderly s) (hw : h.Whole s)
    (hτ : σ.happen? s h = some τ) : τ.Accounted := by
  have hk : τ.Known := hσ.known.happen ho hw hτ
  cases ho.passage hτ with
  | acted a v todo ha he hb hclock htodo kept came load acts =>
    have hevolves : σ.world.Evolves s τ.world := by
      obtain ⟨i, rest, more, rfl, -⟩ := acts
      exact (ho.move (m := .act i) trivial hτ).1
    have hids (o : OrderRef) : τ.world.idOf o = σ.world.idOf o := (hevolves.later ho.clock o).id
    have hlen : τ.world.orders.length = σ.world.orders.length := hevolves.length ho.clock
    have hsame (o : OrderRef) : τ.world.order o = v.order o := World.order_of_books hb o
    have hcounted (o : OrderRef) : τ.world.handovers o = v.handovers o :=
      World.handovers_of_deeds (World.deeds_of_books hb) o
    have hrec : τ.world.collaborators.employee = v.collaborators.employee :=
      congrArg Books.employee hb
    cases he.handing with
    | kept hrecords hmarks hcount =>
      refine hσ.of_same hk hids hlen (hrec.trans hrecords) (fun o => ?_) fun o => ?_
      · rw [hsame, hmarks]
      · rw [hcounted, hcount]
    | handed p hap hfree hrecords hmark hmarks hcount =>
      have hp : p < σ.world.orders.length := hσ.known.topics _ (.inl ⟨a, ha, hap⟩)
      refine hσ.of_handed hk hp hids hlen hfree (hrec.trans hrecords) ?_ (fun o hne => ?_) fun o => ?_
      · rw [hsame, hmark hp]
      · rw [hsame, hmarks o hne]
      · rw [hcounted, hcount]
  | shifted hb kept came load =>
    refine hσ.of_same hk (fun o => ?_) ?_ (congrArg Books.employee hb) (fun o => ?_) fun o => ?_
    · exact congrArg (fun b : Books => (b.order o).id) hb
    · exact congrArg (fun b : Books => b.orders.length) hb
    · exact congrArg (fun b : Books => (b.order o).escalated) hb
    · exact World.handovers_of_deeds (congrArg Books.deeds hb) o
  | asked q hh hq hworld hout load =>
    refine hσ.of_same hk (fun o => ?_) ?_ ?_ (fun o => ?_) fun o => ?_
    all_goals rw [hworld]
  | ordered c customer item price x hh hx hb hout load => exact hσ.of_new hk hx hb

/-- A record that the handle holds stays as it is. -/
theorem get?_of_passage (hp : Passage s h σ τ) {k : OrderId} {x : Snapshot}
    (hk : σ.world.collaborators.employee.get? k = some x) :
    τ.world.collaborators.employee.get? k = some x := by
  obtain ⟨a, v, todo, ha, he, hb, -⟩ | ⟨_, _, hb, -⟩ := hp.books_cases
  · have hrec : τ.world.collaborators.employee = v.collaborators.employee :=
      congrArg Books.employee hb
    rw [hrec]
    cases he.handing with
    | kept hrecords => rwa [hrecords]
    | handed p _ _ hrecords =>
      rw [hrecords]
      exact Records.get?_insertIfAbsent _ _ _ _ _ hk
  · have hrec : τ.world.collaborators.employee = σ.world.collaborators.employee :=
      congrArg Books.employee hb
    rwa [hrec]

/-! ## Histories -/

/-- An order that is with an employee is marked, if no other order has its id. -/
theorem Accounted.informed_iff (hσ : σ.Accounted) {o : OrderRef}
    (ho : o < σ.world.orders.length) (hdistinct : (σ.world.orders.map Order.id).Nodup) :
    (σ.world.order o).escalated = true ↔ σ.world.informed o = true := by
  refine ⟨hσ.parked o, fun hi => ?_⟩
  rw [World.informed, Records.contains_iff] at hi
  obtain ⟨p, hp, hid, he⟩ := hσ.owned _ hi
  have horder {q : OrderRef} (hq : q < σ.world.orders.length) :
      (σ.world.orders.map Order.id)[q]? = some (σ.world.idOf q) := by
    simp [World.idOf, World.order, List.getD_eq_getElem?_getD, hq]
  have hpo : p = o := by
    refine (List.getElem?_inj ?_ hdistinct).mp ?_
    · rw [List.length_map]
      exact hp
    · rw [horder hp, horder ho, hid]
  rw [← hpo]
  exact he

/-- In a run that starts with no order marked and nothing in the handle, wherever the clock goes, at
any two moments of it: each order is marked exactly if one request for it was accepted, and none was
accepted otherwise; it is marked exactly if the handle holds a record under its id; a mark stays, and
so does every record as it is. -/
theorem escalated_once (s : Setup) (σ₀ σ₁ σ₂ : System) (before after : List Incident)
    (h₀ : σ₀.Steady s) (hk : σ₀.Known) (hunmarked : ∀ o, (σ₀.world.order o).escalated = false)
    (hempty : σ₀.world.collaborators.employee.entries = [])
    (hnone : ∀ o, σ₀.world.handovers o = 0)
    (hi : ∀ i ∈ before ++ after, i.Uninterrupted s) (h₁ : through? s before σ₀ = some σ₁)
    (h₂ : through? s after σ₁ = some σ₂)
    (hdistinct : (σ₁.world.orders.map Order.id).Nodup) (o : OrderRef)
    (ho : o < σ₁.world.orders.length) :
    (σ₁.world.handovers o = if (σ₁.world.order o).escalated then 1 else 0) ∧
    ((σ₁.world.order o).escalated = true ↔ σ₁.world.informed o = true) ∧
    ((σ₁.world.order o).escalated = true → (σ₂.world.order o).escalated = true) ∧
    ∀ k x, σ₁.world.collaborators.employee.get? k = some x →
      σ₂.world.collaborators.employee.get? k = some x := by
  have hbefore : ∀ i ∈ before, i.Uninterrupted s := fun i hm => hi i (List.mem_append_left _ hm)
  have hafter : ∀ i ∈ after, i.Uninterrupted s := fun i hm => hi i (List.mem_append_right _ hm)
  obtain ⟨hsteady, haccounted⟩ := through?_induct (P := Accounted) accounted_shifted
    (fun h υ ω hυ hw hω hacc => hacc.happen hυ hw hω) h₀ hbefore h₁
    (accounted_of_nothing hk hunmarked hempty hnone)
  have hmark := through?_induct
    (P := fun υ => o < υ.world.orders.length ∧ (υ.world.order o).escalated = true)
    (fun _ _ => Iff.rfl)
    (fun h υ ω hυ hw hω hmarked => by
      obtain ⟨hlater, hlen⟩ := hυ.later hw hω hmarked.1
      exact ⟨hlen, hlater.escalated hmarked.2⟩) hsteady hafter h₂
  have hrecord (k : OrderId) (x : Snapshot) := through?_induct
    (P := fun υ => υ.world.collaborators.employee.get? k = some x) (fun _ _ => Iff.rfl)
    (fun h υ ω hυ hw hω hget => get?_of_passage (hυ.passage hω) hget) hsteady hafter h₂
  exact ⟨haccounted.counted o ho, haccounted.informed_iff ho hdistinct,
    fun he => (hmark ⟨ho, he⟩).2.2, fun k x hget => (hrecord k x hget).2⟩

/-- Two jobs are to hand the same order over; the first one meets an outage and waits, the second one
succeeds. -/
def handedMeanwhile : List Incident :=
  .happens (.order 0 ⟨"Jim", "ABCD"⟩ "book" 10) ::
    [.ask (.escalate 0 0), .ask (.escalate 0 0), .act 1, .act 2, .fault .employee .databaseUnavailable,
      .start 0, .start 0, .act 3, .act 4].map (.happens <| .move ·)

/-- The clock goes back while the first one waits, and it tries again. -/
def triedAgain : List Incident :=
  [.clockMoved (-3), .happens (.move (.act 3)), .happens (.move (.act 3))]

theorem handedMeanwhile_once :
    ∃ σ₁ σ₂, through? {} handedMeanwhile newShop = some σ₁ ∧ through? {} triedAgain σ₁ = some σ₂ ∧
      σ₁.world.handovers 0 = 1 ∧ σ₂.world.handovers 0 = 1 ∧ σ₁.world.informed 0 = true ∧
      (σ₂.world.order 0).escalated = true := by
  refine ⟨_, _, rfl, rfl, ?_⟩
  have h := escalated_once {} newShop _ _ handedMeanwhile triedAgain (newShop_orderly {}).steady
    (known_of_nothing rfl rfl rfl) (fun _ => rfl) rfl (fun _ => rfl)
    (by simp [handedMeanwhile, triedAgain, Incident.Uninterrupted]) rfl rfl (by decide) 0 (by decide)
  exact ⟨h.1, rfl, h.2.1.mp rfl, h.2.2.1 rfl⟩

end System
end Fulfilment
