import Fulfilment.Proofs.Notice.Opening

/-! The notice a customer is shown agrees with the outcome of the order.

* `enters`: an order is placed.
* `System.Opening`: all that is under way for an order opens it, one such thing at most.
* `System.Phase`: an order is opening, refused, expired, or its customer was shown how the payment
  went.
* `Phase.happen`: a happening takes an order from one phase to another, and shows a pending payment
  only of an order whose payment is pending.
* `System.notice_agrees_with_outcome`: so for an order that is placed once the notice is final and
  agrees with the payment, the shipment and the messages. -/
namespace Fulfilment

set_option autoImplicit false

/-! ## Statements -/

/-- The order is asked about, or comes in. -/
def enters (o : OrderRef) (σ : System) (h : Happening) (_ : System) : Nat :=
  match h with
  | .move (.ask q) => if q.order = o then 1 else 0
  | .order _ _ _ _ => if σ.world.orders.length = o then 1 else 0
  | _ => 0

/-- The notice agrees with what became of the order. -/
structure World.NoticeAgrees (o : OrderRef) (w : World) : Prop where
  successful : (w.order o).notice = some .paymentSuccessful → (w.order o).payment = .done
  invalid : (w.order o).notice = some .paymentDetailsInvalid →
    (w.order o).payment = .notDone ∧ w.payments o = 0
  refused : ∀ i, (w.order o).notice = some i → i.isRefusal = true →
    w.shipped o = false ∧ (w.order o).payment = .trying ∧ (w.order o).sent = .noneSent
  done : (w.order o).payment = .done →
    (w.order o).notice = some .paymentSuccessful ∨ (w.order o).notice = some .paymentPending
  notDone : (w.order o).payment = .notDone →
    (w.order o).notice = none ∨ (w.order o).notice = some .paymentDetailsInvalid ∨
      (w.order o).notice = some .paymentPending

namespace System

/-! ## Phases -/

/-- Everything that is under way for the order opens it. -/
structure Opening (o : OrderRef) (n : Nat) (σ : System) : Prop where
  order : (σ.world.order o).Unopened
  once : n + σ.load (Action.opens o) ≤ 1
  unshipped : 0 < n + σ.load (Action.ships o) → σ.world.shipped o = false
  actions : ∀ a ∈ σ.outstanding, ∀ st, a.errand? = some ⟨o, st⟩ → a.opens o = true
  store : ∀ t ∈ σ.world.collaborators.store, t.order ≠ o

/-- What an order has come to that is still to be placed so many times. -/
inductive Phase (o : OrderRef) (n : Nat) (σ : System) : Prop
  | opening (h : σ.Opening o n)
  | refused (i : SiteNotice) (hi : i.isRefusal = true) (hn : (σ.world.order o).notice = some i)
      (hp : (σ.world.order o).payment = .trying) (hm : (σ.world.order o).sent = .noneSent)
      (hs : σ.world.shipped o = false) (once : n = 0)
      (runs : ∀ st, σ.Runs ⟨o, st⟩ → st = .escalation)
  | expired (hn : (σ.world.order o).notice = none) (hp : (σ.world.order o).payment = .notDone)
      (once : n = 0) (runs : ∀ st, σ.Runs ⟨o, st⟩ → st = .messaging ∨ st = .escalation)
  | shown (i : SiteNotice) (hn : (σ.world.order o).notice = some i)
      (hs : Order.Shows i (σ.world.order o).payment)

/-- The customer is told of a pending payment only while it is pending. -/
def Pends (o : OrderRef) (σ τ : System) : Prop :=
  (τ.world.order o).notice = some .paymentPending →
    (σ.world.order o).notice = some .paymentPending ∨
      (σ.world.order o).payment = .trying ∧ (τ.world.order o).payment = .trying

section Phases
variable {s : Setup} {σ τ : System} {h : Happening} {o : OrderRef} {n : Nat}

theorem Pends.of_notice (hn : (τ.world.order o).notice = (σ.world.order o).notice) :
    Pends o σ τ := by
  intro hp
  rw [hn] at hp
  exact .inl hp

theorem exists_of_notice {w : World} {i : SiteNotice} (hn : (w.order o).notice = some i) :
    o < w.orders.length := by
  by_contra ho
  rw [w.order_beyond (Nat.le_of_not_lt ho)] at hn
  cases hn

theorem exists_of_payment {w : World} (hp : (w.order o).payment = .notDone) :
    o < w.orders.length := by
  by_contra ho
  rw [w.order_beyond (Nat.le_of_not_lt ho)] at hp
  cases hp

theorem Known.exists_opened (hk : σ.Known) {a : Action} (ha : a ∈ σ.outstanding)
    (hopens : a.opens o = true) : o < σ.world.orders.length := by
  obtain ⟨st, hst⟩ := errand_of_opens hopens
  obtain ⟨m, hm⟩ := Action.topic_of_errand hst
  exact hk.topics _ (.inl ⟨a, ha, hm⟩)

/-- What is under way for an order that is not placed was under way before, or the stage that was
leads there. -/
theorem runs_of_passage (hp : Passage s h σ τ) (henters : enters o σ h τ = 0) {st : Stage}
    (hx : τ.Runs ⟨o, st⟩) : σ.Runs ⟨o, st⟩ ∨
      ∃ v todo st', σ.Runs ⟨o, st'⟩ ∧ st' ≠ st ∧ Stage.Leads o v todo st' st := by
  cases arises hp hx with
  | kept hx => exact .inl hx
  | led i a rest v todo more st' hh ha hst hne hl =>
    exact .inr ⟨τ.world, todo, st', .inl ⟨a, outstanding_of_acts ha, hst⟩, hne, hl⟩
  | asked q hh hx =>
    have hq : q.order = o := (Request.errand_order hx).symm
    rw [hh, enters, if_pos hq] at henters
    cases henters
  | ordered c customer item price hh ho hst =>
    have hlen : σ.world.orders.length = o := ho.symm
    rw [hh, enters, if_pos hlen] at henters
    cases henters

/-! ### Shown -/

theorem keeps_notice (hp : Passage s h σ τ) {i : SiteNotice}
    (hn : (σ.world.order o).notice = some i) : (τ.world.order o).notice = some i := by
  obtain ho | ⟨st, -, hk⟩ := keeps_of_passage hp (exists_of_notice hn)
  · rw [ho, hn]
  · exact hk.notice i hn

/-! ### Refused and expired -/

theorem Phase.refused_passage (hp : Passage s h σ τ) (henters : enters o σ h τ = 0)
    {i : SiteNotice} (hi : i.isRefusal = true) (hn : (σ.world.order o).notice = some i)
    (hpay : (σ.world.order o).payment = .trying) (hm : (σ.world.order o).sent = .noneSent)
    (hs : σ.world.shipped o = false) (once : n = 0)
    (runs : ∀ st, σ.Runs ⟨o, st⟩ → st = .escalation) : τ.Phase o n := by
  have hkeeps : τ.world.order o = σ.world.order o ∨
      Stage.escalation.Keeps (σ.world.order o) (τ.world.order o) := by
    refine (keeps_of_passage hp (exists_of_notice hn)).imp id fun ⟨st, hst, hk⟩ => ?_
    rw [runs st hst] at hk
    exact hk
  have hships : ¬ σ.Runs ⟨o, .shipping⟩ := fun hr => by cases runs _ hr
  have hshipped := (World.shipped_of_errand (deed_errand hp) hships).trans hs
  refine .refused i hi (keeps_notice hp hn) ?_ ?_ hshipped once fun st hst => ?_
  · obtain ho | hk := hkeeps
    · rw [ho, hpay]
    · rw [hk.payment (by decide), hpay]
  · obtain ho | hk := hkeeps
    · rw [ho, hm]
    · rw [hk.sent (by decide), hm]
  · obtain hst | ⟨v, todo, st', hst', -, hl⟩ := runs_of_passage hp henters hst
    · exact runs st hst
    · cases runs st' hst'
      cases hl <;> rfl

theorem Phase.expired_passage (hp : Passage s h σ τ) (henters : enters o σ h τ = 0)
    (hn : (σ.world.order o).notice = none) (hpay : (σ.world.order o).payment = .notDone)
    (once : n = 0) (runs : ∀ st, σ.Runs ⟨o, st⟩ → st = .messaging ∨ st = .escalation) :
    τ.Phase o n ∧ (τ.world.order o).notice = (σ.world.order o).notice := by
  have hkeeps : (τ.world.order o).notice = (σ.world.order o).notice ∧
      (τ.world.order o).payment = (σ.world.order o).payment := by
    obtain ho | ⟨st, hst, hk⟩ := keeps_of_passage hp (exists_of_payment hpay)
    · rw [ho]
      exact ⟨rfl, rfl⟩
    · obtain rfl | rfl := runs st hst <;>
        exact ⟨hk.shown (by decide) (by decide), hk.payment (by decide)⟩
  refine ⟨.expired (hkeeps.1.trans hn) (hkeeps.2.trans hpay) once fun st hst => ?_, hkeeps.1⟩
  obtain hst | ⟨v, todo, st', hst', -, hl⟩ := runs_of_passage hp henters hst
  · exact runs st hst
  · obtain rfl | rfl := runs st' hst'
    · cases hl with
      | same => exact .inl rfl
      | handed => exact .inr rfl
    · cases hl <;> exact .inr rfl

/-! ### Opening -/

theorem opens_retry {t : Task} {c : CoordinatorRef} (h : (t.retry c).opens o = true) :
    t.order = o := by
  simp only [Task.retry] at h
  cases htype : t.type with
  | payment =>
    rw [htype] at h
    exact of_decide_eq_true h
  | messaging =>
    rw [htype] at h
    cases hm : t.message <;> rw [hm] at h <;> cases h
  | employeeDb =>
    rw [htype] at h
    cases h

theorem ships_retry (t : Task) (c : CoordinatorRef) : (t.retry c).ships o = false := by
  simp only [Task.retry]
  cases t.type with
  | payment | employeeDb => rfl
  | messaging => cases t.message <;> rfl

/-- What comes in addition counts once if it places the order, and is not about it otherwise. -/
theorem Opening.entered {k : Nat} (hop : σ.Opening o (k + n)) {b : Action}
    (hopens : (if b.opens o then 1 else 0) = k) (hships : (if b.ships o then 1 else 0) = k)
    (herrand : ∀ st, b.errand? = some ⟨o, st⟩ → b.opens o = true)
    (hx : (τ.world.order o).Unopened) (hdeeds : τ.world.deeds = σ.world.deeds)
    (hstore : τ.world.collaborators.store = σ.world.collaborators.store)
    (ho : ∀ d, d ∈ τ.outstanding ↔ d ∈ σ.outstanding ∨ d = b)
    (load : ∀ p, τ.load p = σ.load p + if p b then 1 else 0) : τ.Opening o n := by
  have honce := hop.once
  have hlo := load (Action.opens o)
  have hls := load (Action.ships o)
  rw [hopens] at hlo
  rw [hships] at hls
  refine ⟨hx, by omega, fun hpos => ?_, fun d hd => ?_, fun t ht => ?_⟩
  · rw [World.shipped_of_deeds hdeeds]
    exact hop.unshipped (by omega)
  · obtain hd | rfl := (ho d).mp hd
    · exact hop.actions d hd
    · exact herrand
  · rw [hstore] at ht
    exact hop.store t ht

theorem opening_of_nothing (hidle : ∀ st, ¬ σ.Runs ⟨o, st⟩) (hnew : (σ.world.order o).Unopened)
    (hs : σ.world.shipped o = false) (honce : n ≤ 1) : σ.Opening o n := by
  have hnone : σ.load (Action.opens o) = 0 := by
    rw [load_outstanding, List.countP_eq_zero]
    intro b hb hopens
    obtain ⟨st, hst⟩ := errand_of_opens hopens
    exact hidle st (.inl ⟨b, hb, hst⟩)
  refine ⟨hnew, by omega, fun _ => hs, fun a ha st hst => ?_, fun t ht hto => ?_⟩
  · exact absurd (.inl ⟨a, ha, hst⟩) (hidle st)
  · exact hidle t.type.stage (.inr ⟨t, ht, by rw [← hto]; rfl⟩)

theorem Opening.asked {q : Request} (hop : σ.Opening o (enters o σ (.move (.ask q)) τ + n))
    (hq : Happening.PlacesOnly o (.move (.ask q))) (hw : τ.world = σ.world)
    (ho : ∀ d, d ∈ τ.outstanding ↔ d ∈ σ.outstanding ∨ d = q.action)
    (load : ∀ p, τ.load p = σ.load p + if p q.action then 1 else 0) : τ.Opening o n := by
  have hx : (τ.world.order o).Unopened := by
    rw [hw]
    exact hop.order
  by_cases hqo : q.order = o
  · obtain ⟨c, rfl⟩ := hq q rfl hqo
    have hone : enters o σ (.move (.ask (.place c o))) τ = 1 := if_pos rfl
    rw [hone] at hop
    have hopens : (Action.place c o).opens o = true := decide_eq_true rfl
    have hships : (Action.place c o).ships o = true := decide_eq_true rfl
    exact hop.entered (if_pos hopens) (if_pos hships) (fun _ _ => hopens) hx (by rw [hw])
      (by rw [hw]) ho load
  · have hnone : enters o σ (.move (.ask q)) τ = 0 := if_neg hqo
    have hopens : q.action.opens o = false := by
      cases q <;> first | rfl | exact decide_eq_false hqo
    have hships : q.action.ships o = false := by
      by_contra hships
      have hno := opens_of_ships (by simpa using hships)
      rw [hopens] at hno
      cases hno
    rw [hnone] at hop
    refine hop.entered (by rw [hopens]; rfl) (by rw [hships]; rfl) (fun st hst => ?_) hx
      (by rw [hw]) (by rw [hw]) ho load
    exact absurd (Request.errand_order hst).symm hqo

theorem Opening.shifted {k : Nat} (hop : σ.Opening o (k + n))
    (hb : τ.world.books = { σ.world.books with pending := τ.world.pending })
    (came : ∀ b ∈ τ.outstanding, b ∈ σ.outstanding ∨ b.isMinor = true)
    (load : ∀ p, Concern p → τ.load p = σ.load p) : τ.Opening o n := by
  have horder : τ.world.order o = σ.world.order o := congrArg (fun b : Books => b.order o) hb
  have hdeeds : τ.world.deeds = σ.world.deeds := congrArg Books.deeds hb
  have hstore : τ.world.collaborators.store = σ.world.collaborators.store :=
    congrArg Books.store hb
  have honce := hop.once
  have hopens := load _ (early_opens o).concern
  have hships := load _ (early_ships o).concern
  refine ⟨by rw [horder]; exact hop.order, by omega, fun hpos => ?_, fun b hbo st hst => ?_, ?_⟩
  · rw [World.shipped_of_deeds hdeeds]
    exact hop.unshipped (by omega)
  · obtain hbo | hbo := came b hbo
    · exact hop.actions b hbo st hst
    · rw [Action.errand?_of_minor hbo] at hst
      cases hst
  · rw [hstore]
    exact hop.store

theorem order_of_new {c : CoordinatorRef} {customer : Customer} {item : String} {price : Float}
    (hτ : σ.happen? s (.order c customer item price) = some τ) (hx : (σ.world.order o).Unopened) :
    (τ.world.order o).Unopened := by
  simp only [happen?, order?, Rehearsal.newOrder?, Option.map_map] at hτ
  obtain ⟨⟨id, ids, draws⟩, -, rfl⟩ := Option.map_eq_some_iff.mp hτ
  simp only [Function.comp, World.order_addOrder]
  split
  · exact ⟨rfl, rfl, rfl⟩
  · exact hx

theorem Opening.ordered {c : CoordinatorRef} {customer : Customer} {item : String} {price : Float}
    (hop : σ.Opening o (enters o σ (.order c customer item price) τ + n))
    (hx : (τ.world.order o).Unopened) {x : Order}
    (hb : τ.world.books = σ.world.books.addOrder x)
    (ho : ∀ d, d ∈ τ.outstanding ↔ d ∈ σ.outstanding ∨ d = .place c σ.world.orders.length)
    (load : ∀ p, τ.load p = σ.load p + if p (.place c σ.world.orders.length) then 1 else 0) :
    τ.Opening o n := by
  have hcount (p : Action → Bool)
      (hp : p (.place c σ.world.orders.length) = decide (σ.world.orders.length = o)) :
      (if p (.place c σ.world.orders.length) then 1 else 0) =
        enters o σ (.order c customer item price) τ := by
    rw [hp, enters]
    simp only [decide_eq_true_eq]
  refine hop.entered (hcount _ rfl) (hcount _ (ships_place o _ c)) (fun st hst => ?_) hx
    (congrArg Books.deeds hb) (congrArg Books.store hb) ho load
  cases hst
  exact decide_eq_true rfl

/-- The store holds no task of the order after an action either. -/
theorem Opening.store_acted (hop : σ.Opening o n) {a : Action} {v : World} {todo : List Action}
    (ha : a ∈ σ.outstanding) (he : Effect s σ.world a v todo) :
    ∀ t ∈ v.collaborators.store, t.order ≠ o := by
  intro t ht hto
  obtain ⟨u, hu, hut⟩ | ⟨c, m, rfl⟩ := he.task t ht
  · refine hop.store u hu ?_
    obtain rfl | ⟨now, rfl⟩ := hut <;> exact hto
  · have herrand : (Action.attempt ⟨c, .add t⟩ m).errand? = some ⟨o, t.type.stage⟩ := by
      rw [← hto]
      rfl
    cases hop.actions _ ha _ herrand

/-- So many openings are left after an action as before it, or fewer. -/
theorem Opening.load_acted (hop : σ.Opening o n) {p : Action → Bool} (hp : Early p)
    (hretry : ∀ (t : Task) c, p (t.retry c) = true → t.order = o) {a : Action} {v : World}
    {todo : List Action} (he : Effect s σ.world a v todo)
    (load : τ.load p + (if p a then 1 else 0) + σ.world.waiting p =
      σ.load p + todo.countP p + v.waiting p) : τ.load p ≤ σ.load p := by
  have hle := he.early_le hp fun t ht c => by
    by_contra hretried
    exact hop.store t ht (hretry t c (by simpa using hretried))
  omega

section Acted
variable {a : Action} {v : World} {todo : List Action} (hop : σ.Opening o n)
  (ha : a ∈ σ.outstanding) (he : Effect s σ.world a v todo) (hb : τ.world.books = v.books)
  (came : ∀ b ∈ τ.outstanding, b ∈ σ.outstanding ∨ b.isMinor = true ∨ b ∈ todo ∨
    ∃ j, a.Spawns j ∧ b = .attempt j 0)
  (load : ∀ p, Concern p → τ.load p + (if p a then 1 else 0) + σ.world.waiting p =
    σ.load p + todo.countP p + v.waiting p)
include hop ha he hb came load

/-- An opening goes on as long as the order is left as it is. -/
theorem Opening.goes_on (htodo : ∀ b ∈ todo, b ∈ τ.outstanding)
    (hv : v.order o = σ.world.order o)
    (hnew : ∀ d ∈ todo, ∀ st, d.errand? = some ⟨o, st⟩ → d.opens o = true)
    (hs : v.shipped o = σ.world.shipped o ∨ ∃ c, todo = [.pay c o]) : τ.Opening o n := by
  have honce := hop.once
  have hopens := hop.load_acted (early_opens o) (fun _ _ => opens_retry) he
    (load _ (early_opens o).concern)
  have hships := hop.load_acted (early_ships o)
    (fun t c h => by rw [ships_retry] at h; cases h) he (load _ (early_ships o).concern)
  have hstore : τ.world.collaborators.store = v.collaborators.store := congrArg Books.store hb
  refine ⟨?_, by omega, fun hpos => ?_, fun b hbo st hst => ?_, ?_⟩
  · rw [World.order_of_books hb, hv]
    exact hop.order
  · obtain hs | ⟨c, rfl⟩ := hs
    · rw [World.shipped_of_deeds (World.deeds_of_books hb), hs]
      exact hop.unshipped (by omega)
    · -- The payment is the only thing that opens the order, so nothing is left to be shipped.
      have hlt := load_lt_load (σ := τ) (p := Action.ships o) (q := Action.opens o)
        (htodo _ (List.mem_singleton.mpr rfl)) rfl (decide_eq_true rfl)
        fun b hb => opens_of_ships hb
      omega
  · obtain hbo | hbo | hbo | ⟨j, hj, rfl⟩ := came b hbo
    · exact hop.actions b hbo st hst
    · rw [Action.errand?_of_minor hbo] at hst
      cases hst
    · exact hnew b hbo st hst
    · rw [hj.errand 0] at hst
      exact opens_of_spawns hj (hop.actions a ha st hst)
  · rw [hstore]
    exact hop.store_acted ha he

/-- An opening that ends leaves nothing under way for the order but what the action leaves to do,
and the order is not placed again. -/
theorem Opening.ends (hopens : a.opens o = true) (hpending : v.pending = σ.world.pending)
    (hcount : todo.countP (Action.opens o) = 0) :
    n = 0 ∧ ∀ st, τ.Runs ⟨o, st⟩ → ∃ d ∈ todo, d.errand? = some ⟨o, st⟩ := by
  have honce := hop.once
  have hpos : 0 < σ.load (Action.opens o) := load_pos_of_mem ha hopens
  have hload := load _ (early_opens o).concern
  rw [if_pos hopens, hcount, World.waiting_of_pending hpending] at hload
  have hover {b : Action} (hbo : b ∈ τ.outstanding) : b.opens o ≠ true := fun hb => by
    have hleft : 0 < τ.load (Action.opens o) := load_pos_of_mem hbo hb
    omega
  refine ⟨by omega, fun st hst => ?_⟩
  obtain ⟨t, ht, htx⟩ | ⟨b, hbo, hbx⟩ := hst.symm
  · have hstore : τ.world.collaborators.store = v.collaborators.store := congrArg Books.store hb
    rw [hstore] at ht
    exact absurd (congrArg Errand.order htx) (hop.store_acted ha he t ht)
  · obtain hold | hminor | hnew | ⟨j, hj, rfl⟩ := came b hbo
    · exact absurd (hop.actions b hold st hbx) (hover hbo)
    · rw [Action.errand?_of_minor hminor] at hbx
      cases hbx
    · exact ⟨b, hnew, hbx⟩
    · exact absurd (opens_of_spawns hj hopens) (hover hbo)

theorem Opening.acted (htodo : ∀ b ∈ todo, b ∈ τ.outstanding) (hk : σ.Known) :
    τ.Phase o n ∧ Pends o σ τ := by
  have horder : τ.world.order o = v.order o := World.order_of_books hb o
  have hshipped : τ.world.shipped o = v.shipped o :=
    World.shipped_of_deeds (World.deeds_of_books hb) o
  by_cases hopens : a.opens o = true
  · have ho : o < σ.world.orders.length := hk.exists_opened ha hopens
    have hturn := he.opening hopens ho hop.order
    cases hturn with
    | on hv hnew hs =>
      have hgoes := hop.goes_on ha he hb came load htodo hv hnew hs
      exact ⟨.opening hgoes, .of_notice (hgoes.order.notice.trans hop.order.notice.symm)⟩
    | refused i hi hships hn hp hm hs hpending hnew hcount =>
      obtain ⟨hzero, hruns⟩ := hop.ends ha he hb came load hopens hpending hcount
      have hpos : 0 < σ.load (Action.ships o) := load_pos_of_mem ha hships
      refine ⟨.refused i hi (by rw [horder, hn]) (by rw [horder, hp]) (by rw [horder, hm]) ?_ hzero
        fun st hst => ?_, fun hpend => ?_⟩
      · rw [hshipped, hs]
        exact hop.unshipped (Nat.add_pos_right n hpos)
      · obtain ⟨d, hd, hdx⟩ := hruns st hst
        exact hnew d hd st hdx
      · rw [horder, hn] at hpend
        cases hpend
        cases hi
    | expired hn hp hpending hnew hcount =>
      obtain ⟨hzero, hruns⟩ := hop.ends ha he hb came load hopens hpending hcount
      refine ⟨.expired (by rw [horder, hn]) (by rw [horder, hp]) hzero fun st hst => ?_, ?_⟩
      · obtain ⟨d, hd, hdx⟩ := hruns st hst
        exact .inl (hnew d hd st hdx)
      · exact .of_notice (by rw [horder, hn, hop.order.notice])
    | shown i hn hp htrying =>
      refine ⟨.shown i (by rw [horder, hn]) (by rw [horder]; exact hp), fun hpend => .inr ?_⟩
      rw [horder, hn] at hpend
      rw [horder]
      exact ⟨hop.order.payment, htrying (Option.some.inj hpend)⟩
  · have hnone : ∀ st, a.errand? ≠ some ⟨o, st⟩ := fun st hst => hopens (hop.actions a ha st hst)
    have hv : v.order o = σ.world.order o := by
      obtain hv | ⟨st, hst, -⟩ := he.keeps o
      · exact hv
      · exact absurd hst (hnone st)
    have hs : v.shipped o = σ.world.shipped o :=
      World.shipped_of_errand he.deed_errand (hnone .shipping)
    have hgoes := hop.goes_on ha he hb came load htodo hv (fun d hd st hst => ?_) (.inl hs)
    · exact ⟨.opening hgoes, .of_notice (hgoes.order.notice.trans hop.order.notice.symm)⟩
    · obtain ⟨t, ht, htx⟩ | ⟨st', hst', -⟩ := he.sends d hd _ hst
      · exact absurd (congrArg Errand.order htx) (hop.store t ht)
      · exact absurd hst' (hnone st')

end Acted

/-! ### Happenings -/

theorem Opening.happen (hop : σ.Opening o (enters o σ h τ + n)) (hσ : σ.Orderly s) (hk : σ.Known)
    (hq : h.PlacesOnly o) (hτ : σ.happen? s h = some τ) : τ.Phase o n ∧ Pends o σ τ := by
  have goes (hgoes : τ.Opening o n) : τ.Phase o n ∧ Pends o σ τ :=
    ⟨.opening hgoes, .of_notice (hgoes.order.notice.trans hop.order.notice.symm)⟩
  cases hσ.passage hτ with
  | acted a v todo ha he hb _ htodo _ came load acts =>
    obtain ⟨i, rest, more, rfl, -⟩ := acts
    have hzero : enters o σ (.move (.act i)) τ + n = n := Nat.zero_add n
    rw [hzero] at hop
    exact hop.acted ha he hb came load htodo hk
  | shifted hb kept came load => exact goes (hop.shifted hb came load)
  | asked q hh hlen hw ho load =>
    subst hh
    exact goes (hop.asked hq hw ho load)
  | ordered c customer item price x hh hfresh hb ho load =>
    subst hh
    exact goes (hop.ordered (order_of_new hτ hop.order) hb ho load)

theorem Phase.happen (hph : σ.Phase o (enters o σ h τ + n)) (hσ : σ.Orderly s) (hk : σ.Known)
    (hw : h.Whole s) (hq : h.PlacesOnly o) (hτ : σ.happen? s h = some τ) :
    τ.Phase o n ∧ Pends o σ τ := by
  have hp : Passage s h σ τ := hσ.passage hτ
  cases hph with
  | opening hop => exact hop.happen hσ hk hq hτ
  | refused i hi hn hpay hm hs once runs =>
    have hzero := Nat.add_eq_zero_iff.mp once
    exact ⟨Phase.refused_passage hp hzero.1 hi hn hpay hm hs hzero.2 runs,
      .of_notice ((keeps_notice hp hn).trans hn.symm)⟩
  | expired hn hpay once runs =>
    have hzero := Nat.add_eq_zero_iff.mp once
    obtain ⟨hphase, hsame⟩ := Phase.expired_passage hp hzero.1 hn hpay hzero.2 runs
    exact ⟨hphase, .of_notice hsame⟩
  | shown i hn hs =>
    have hafter : (τ.world.order o).notice = some i := keeps_notice hp hn
    exact ⟨.shown i hafter (hs.later (hσ.settled hw hτ)), .of_notice (hafter.trans hn.symm)⟩

theorem Phase.agrees (hph : σ.Phase o n) (htakes : σ.TakesOnce o) : σ.world.NoticeAgrees o := by
  cases hph with
  | opening hop =>
    obtain ⟨hpay, hm, hn⟩ := hop.order
    constructor <;> simp [hpay, hn]
  | refused i hi hn hpay hm hs once runs =>
    refine ⟨fun h => ?_, fun h => ?_, fun _ _ _ => ⟨hs, hpay, hm⟩, fun h => ?_, fun h => ?_⟩
    · rw [hn] at h
      cases h
      cases hi
    · rw [hn] at h
      cases h
      cases hi
    · rw [hpay] at h
      cases h
    · rw [hpay] at h
      cases h
  | expired hn hpay once runs =>
    constructor <;> simp [hpay, hn]
  | shown i hn hs =>
    have hcount : σ.world.payments o = if (σ.world.order o).payment = .done then 1 else 0 := htakes
    obtain ⟨p, hp⟩ : ∃ p, (σ.world.order o).payment = p := ⟨_, rfl⟩
    rw [hp] at hs hcount
    cases hs with
    | paid => constructor <;> simp [hn, hp, SiteNotice.isRefusal]
    | declined => constructor <;> simp [hn, hp, hcount, SiteNotice.isRefusal]
    | pending => constructor <;> simp [hn, hp, SiteNotice.isRefusal]

end Phases

/-! ## Histories -/

/-- Whatever else happens to an order that is placed once and that nobody asks anything else about:
the notice its customer is shown is final and agrees with the payment, the shipment and the
messages, and a pending payment is shown only while it is pending. -/
theorem notice_agrees_with_outcome (s : Setup) (o : OrderRef) (σ₀ σ₁ σ₂ : System)
    (before after : List Happening) (h₀ : σ₀.Orderly s) (hk : σ₀.Known)
    (hidle : ∀ st, ¬ σ₀.Runs ⟨o, st⟩) (hnew : (σ₀.world.order o).Unopened)
    (hunpaid : σ₀.world.payments o = 0) (hunshipped : σ₀.world.shipped o = false)
    (hwhole : ∀ h ∈ before ++ after, h.Whole s)
    (hplaces : ∀ h ∈ before ++ after, h.PlacesOnly o)
    (honce : total s (enters o) (before ++ after) σ₀ ≤ 1)
    (h₁ : σ₀.after? s before = some σ₁) (h₂ : σ₁.after? s after = some σ₂) :
    (∀ i, (σ₁.world.order o).notice = some i → (σ₂.world.order o).notice = some i) ∧
    σ₁.world.NoticeAgrees o ∧
    ∀ h rest τ, after = h :: rest → σ₁.happen? s h = some τ → Pends o σ₁ τ := by
  have hstart : σ₀.Opening o (total s (enters o) (before ++ after) σ₀) :=
    opening_of_nothing hidle hnew hunshipped honce
  have htakes : σ₀.TakesOnce o := by
    rw [TakesOnce, hunpaid, hnew.payment]
    rfl
  have step {h : Happening} {υ ω : System} {n : Nat} (hmem : h ∈ before ++ after)
      (hω : υ.happen? s h = some ω) (hυ : υ.Orderly s ∧ υ.Known ∧ υ.TakesOnce o ∧
        υ.Phase o (enters o υ h ω + n)) :
      (ω.Orderly s ∧ ω.Known ∧ ω.TakesOnce o ∧ ω.Phase o n) ∧ Pends o υ ω := by
    obtain ⟨ho, hknown, ht, hph⟩ := hυ
    have hw := hwhole h hmem
    obtain ⟨hphase, hpends⟩ := hph.happen ho hknown hw (hplaces h hmem) hω
    exact ⟨⟨ho.happen hw hω, hknown.happen ho hw hω, ht.happen ho hknown hw hω, hphase⟩, hpends⟩
  have hσ₁ : σ₁.Orderly s ∧ σ₁.Known ∧ σ₁.TakesOnce o ∧
      σ₁.Phase o (total s (enters o) after σ₁) :=
    after?_total (P := fun υ n => υ.Orderly s ∧ υ.Known ∧ υ.TakesOnce o ∧ υ.Phase o n) after
      (fun h hh υ ω n hω hυ => (step (List.mem_append_left _ hh) hω hυ).1) h₁
      ⟨h₀, hk, htakes, .opening hstart⟩
  refine ⟨fun i hi => ?_, hσ₁.2.2.2.agrees hσ₁.2.2.1, fun h rest τ hafter hτ => ?_⟩
  · have hkept : σ₂.Orderly s ∧ (σ₂.world.order o).notice = some i :=
      after?_induct (P := fun υ => υ.Orderly s ∧ (υ.world.order o).notice = some i)
        (fun h hh υ ω hω hυ => ⟨hυ.1.happen (hwhole h (List.mem_append_right _ hh)) hω,
          keeps_notice (hυ.1.passage hω) hυ.2⟩) h₂ ⟨hσ₁.1, hi⟩
    exact hkept.2
  · have hmem : h ∈ before ++ after := by
      rw [hafter]
      exact List.mem_append_right _ (List.mem_cons_self ..)
    rw [hafter, total_cons rest hτ] at hσ₁
    exact (step hmem hτ hσ₁).2

/-- The payment of an order is rejected. -/
def thenRejected : List Happening :=
  .order 0 ⟨"Jim", "ABCD"⟩ "book" 10 ::
    [.act 0, .act 0, .act 0, .start 0, .act 1].map .move

/-- The message about it is put off to the queue. -/
def thenPutOff : List Happening := [.act 1, .start 0, .act 2].map .move

theorem rejected_order_agrees :
    ∃ σ₁ σ₂, after? oneTry thenRejected wrongDetails = some σ₁ ∧
      after? oneTry thenPutOff σ₁ = some σ₂ ∧
      (σ₂.world.order 0).notice = some .paymentDetailsInvalid ∧
      (σ₁.world.order 0).payment = .notDone ∧ σ₁.world.payments 0 = 0 := by
  refine ⟨_, _, rfl, rfl, ?_⟩
  have h := notice_agrees_with_outcome oneTry 0 wrongDetails _ _ thenRejected thenPutOff
    (wrongDetails_orderly oneTry) (known_of_nothing rfl rfl rfl)
    (fun _ => runs_nothing rfl rfl _) ⟨rfl, rfl, rfl⟩ rfl rfl
    (by simp [thenRejected, thenPutOff, Happening.Whole, Move.Whole])
    (by simp [thenRejected, thenPutOff, Happening.PlacesOnly]) (by decide) rfl rfl
  exact ⟨h.1 _ rfl, h.2.1.invalid rfl⟩

end System
end Fulfilment
