import Fulfilment.Proofs.Books.Errand

/-! A placement has a shipment accepted at most once, and goes on to the payment as often.

* `Happening.placement?`: the placement that starts with a happening.
* `accepts`, `invokes`: a thread has a shipment accepted, or a placement on it goes on to the
  payment.
* `Foreign`: what runs on the thread of a placement without belonging to it.
* `Placing`: how far a placement has come, with what it has counted so far.
* `Placing.happen`, `Placing.after`: a happening, and a history, count on. -/
namespace Fulfilment

set_option autoImplicit false

/-! ## Counts -/

def Event.isShipment : Event → Bool
  | .answered (.shipping _ _ _) _ => true
  | _ => false

/-- The shipments accepted so far. -/
def World.shipments (w : World) : Nat := w.journal.countP Event.isShipment

/-- The payment that a placement on this thread goes on to next. -/
def nextPayment? : List Action → Option (CoordinatorRef × OrderRef)
  | .pay c o :: .placed _ :: _ => some (c, o)
  | _ => none

/-- The shipments that are accepted while the thread at this place takes a step. -/
def accepts (i : Nat) (σ : System) (h : Happening) (τ : System) : Nat :=
  match h with
  | .move (.act k) => if k = i then τ.world.shipments - σ.world.shipments else 0
  | _ => 0

/-- A placement on the thread at this place goes on to the payment. -/
def invokes (i : Nat) (σ : System) (h : Happening) (_ : System) : Nat :=
  match h with
  | .move (.act k) => if k = i ∧ (σ.threads[i]?.bind nextPayment?).isSome then 1 else 0
  | _ => 0

/-- The coordinator and the order of the placement that starts. -/
def Happening.placement? (σ : System) : Happening → Option (CoordinatorRef × OrderRef)
  | .move (.ask (.place c o)) => some (c, o)
  | .order c _ _ _ => some (c, σ.world.orders.length)
  | _ => none

theorem World.shipments_eq (w : World) : w.shipments = w.deeds.countP Event.isShipment := by
  rw [shipments, countP_deeds]
  intro e he
  cases e with
  | answered c r => cases c <;> first | rfl | cases he
  | _ => cases he

theorem World.shipments_of_deeds {w v : World} (h : v.deeds = w.deeds) :
    v.shipments = w.shipments := by
  rw [shipments_eq, shipments_eq, h]

/-! ## What does not belong to a placement -/

/-- Neither a placement nor its end nor its attempt to ship, nor a payment. -/
def Action.isForeign : Action → Bool
  | .place _ _ => false
  | .pay _ _ => false
  | .attempt ⟨_, .shipping _⟩ _ => false
  | .placed _ => false
  | _ => true

/-- Other work on the thread of a placement; it pays only while it visits a queued task. -/
inductive Foreign : List Action → Prop
  | nil : Foreign []
  | visit (c d : CoordinatorRef) (o : OrderRef) (l : List Action) (hl : Foreign l) :
      Foreign (.pay c o :: .settleDrain d :: l)
  | other (a : Action) (l : List Action) (ha : a.isForeign = true) (hl : Foreign l) :
      Foreign (a :: l)

section Foreign
variable {s : Setup} {w v : World} {a : Action} {l l' todo rest more : List Action}

theorem Foreign.append (hl : Foreign l) (hl' : Foreign l') : Foreign (l ++ l') := by
  induction hl with
  | nil => exact hl'
  | visit c d o l _ ih => exact .visit c d o _ ih
  | other a l ha _ ih => exact .other a _ ha ih

theorem Foreign.of_forall (hl : ∀ b ∈ l, b.isForeign = true) : Foreign l := by
  induction l with
  | nil => exact .nil
  | cons b l ih =>
    have hforeign : Foreign l := ih fun c hc => hl c (List.mem_cons_of_mem b hc)
    exact .other b l (hl b (List.mem_cons_self ..)) hforeign

theorem Foreign.tail (hl : Foreign (a :: l)) : Foreign l := by
  cases hl with
  | visit c d o l hl => exact .other _ l rfl hl
  | other _ _ _ hl => exact hl

theorem Foreign.nextPayment (hl : Foreign l) (hl' : nextPayment? l' = none) :
    nextPayment? (l ++ l') = none := by
  cases hl with
  | nil => exact hl'
  | visit => rfl
  | other a l ha _ =>
    cases a with
    | pay => cases ha
    | _ => rfl

theorem Action.Spawns.isForeign {j : Job} (hj : a.Spawns j) (n : UInt32) :
    (Action.attempt j n).isForeign = true := by
  obtain ⟨c, work⟩ := j
  have hw := hj.work
  cases a <;> cases hw <;> rfl

/-- Work that does not ship leaves no shipping to do. -/
theorem Effect.foreign (h : Effect s w a v todo) (hplace : ∀ c o, a ≠ .place c o)
    (hship : ∀ c o n, a ≠ .attempt ⟨c, .shipping o⟩ n) : Foreign todo := by
  have one {b : Action} (hb : b.isForeign = true) : Foreign [b] := .other b [] hb .nil
  have two {b b' : Action} (hb : b.isForeign = true) (hb' : b'.isForeign = true) :
      Foreign [b, b'] := .other b [b'] hb (one hb')
  have again {j : Job} {n : UInt32} (ha : a = .attempt j n) (m : UInt32) :
      (Action.attempt j m).isForeign = true := by
    obtain ⟨c, work⟩ := j
    cases work with
    | shipping o => exact absurd ha (hship c o n)
    | _ => rfl
  cases h with
  | idle _ _ _ ht _ =>
    refine .of_forall fun b hb => ?_
    obtain ⟨n, rfl⟩ := ht b hb
    rfl
  | placing c o => exact absurd rfl (hplace c o)
  | waiting | lost | passed | crashed => exact .nil
  | started j _ hj _ => exact two (hj.isForeign 0) rfl
  | expired => exact one rfl
  | deferring => exact two rfl rfl
  | escalating => exact one rfl
  | drainingOn => exact two rfl rfl
  | again j n m d f _ _ _ => exact two rfl (again rfl m)
  | unneeded j n _ _ _ =>
    split
    · exact one rfl
    · exact .nil
  | succeeded c work n _ _ hs =>
    cases hs with
    | shipped o => exact absurd rfl (hship c o n)
    | visited t =>
      simp only [Task.retry]
      cases t.type with
      | payment => exact .visit c c t.order [] .nil
      | messaging => cases t.message <;> exact two rfl rfl
      | employeeDb => exact two rfl rfl
    | paid | added => exact one rfl
    | condemned => exact two rfl rfl
    | told | handed | removed => exact .nil
  | failed c work n f _ _ _ hs =>
    cases hs with
    | turnedAway | declined | stillUnpaid | unattended | notAdded => exact one rfl
    | unpaid | undelivered | notQueued => exact two rfl rfl
    | notPlaced | declinedLate | givenUp | leftAlone | unseen => exact .nil

theorem Effect.shipments_of_foreign (h : Effect s w a v todo)
    (hship : ∀ c o n, a ≠ .attempt ⟨c, .shipping o⟩ n) : v.shipments = w.shipments := by
  obtain hv | ⟨e, hv, he⟩ := h.deed_of
  · exact World.shipments_of_deeds hv
  · have hno : e.isShipment = false := by
      cases he with
      | remarked | panicked => rfl
      | answered c work n ha r =>
        cases work with
        | shipping o => exact absurd ha (hship c o n)
        | _ => rfl
    rw [World.shipments_eq, World.shipments_eq, hv, List.countP_cons_of_neg (by simp [hno])]

theorem Foreign.head (hl : Foreign (a :: l)) :
    (∀ c o, a ≠ .place c o) ∧ ∀ c o n, a ≠ .attempt ⟨c, .shipping o⟩ n := by
  cases hl with
  | visit => exact ⟨fun _ _ => nofun, fun _ _ _ => nofun⟩
  | other _ _ ha _ =>
    refine ⟨fun c o h => ?_, fun c o n h => ?_⟩ <;>
    · subst h
      cases ha

/-- Foreign work that takes a step leaves foreign work before the rest, or panics right before
it. -/
theorem Foreign.acted (hl : Foreign (a :: l)) (he : Effect s w a v todo)
    (hmore : more = l ++ l' ∨ todo = [] ∧ ∃ e, e.isEnd = true ∧ l ++ l' = e :: more) :
    (∃ l₁, Foreign l₁ ∧ todo ++ more = l₁ ++ l') ∨
      todo = [] ∧ ∃ e, e.isEnd = true ∧ l' = e :: more := by
  obtain rfl | ⟨rfl, e, hend, hmore⟩ := hmore
  · refine .inl ⟨todo ++ l, (he.foreign hl.head.1 hl.head.2).append hl.tail, ?_⟩
    rw [List.append_assoc]
  · cases l with
    | nil => exact .inr ⟨rfl, e, hend, hmore⟩
    | cons b l =>
      cases hmore
      exact .inl ⟨l, hl.tail.tail, rfl⟩

end Foreign

/-! ## Placements -/

/-- How far the placement of an order has come on its thread, how many shipments it had accepted,
and how often it went on to the payment. -/
inductive Placing (c : CoordinatorRef) (o : OrderRef) : Nat → Nat → List Action → Prop
  | asked : Placing c o 0 0 [.place c o]
  | shipping (n : UInt32) (l : List Action) (hl : Foreign l) :
      Placing c o 0 0 (l ++ [.attempt ⟨c, .shipping o⟩ n, .placed o])
  | accepted : Placing c o 1 0 [.pay c o, .placed o]
  | ended (k : Nat) (hk : k ≤ 1) (l rest : List Action) (hl : Foreign l)
      (hrest : rest = [] ∨ rest = [.placed o]) : Placing c o k k (l ++ rest)

section Placements
variable {s : Setup} {c : CoordinatorRef} {o : OrderRef} {k m : Nat} {w v : World} {a : Action}
  {agenda todo rest more : List Action}

theorem Placing.counts (hp : Placing c o k m agenda) :
    k ≤ 1 ∧ k = m + if nextPayment? agenda = some (c, o) then 1 else 0 := by
  cases hp with
  | asked => exact ⟨Nat.zero_le 1, rfl⟩
  | shipping n l hl =>
    rw [hl.nextPayment rfl]
    exact ⟨Nat.zero_le 1, rfl⟩
  | accepted =>
    refine ⟨Nat.le_refl 1, ?_⟩
    rw [if_pos (show nextPayment? [.pay c o, .placed o] = some (c, o) from rfl)]
  | ended k hk l rest hl hrest =>
    have hnone : nextPayment? rest = none := by obtain rfl | rfl := hrest <;> rfl
    rw [hl.nextPayment hnone]
    exact ⟨hk, rfl⟩

/-- The attempt to ship is repeated, or the placement goes on to the payment, or it is over. -/
theorem Placing.attempted {n : UInt32} (he : Effect s w (.attempt ⟨c, .shipping o⟩ n) v todo)
    (hmore : more = [.placed o] ∨
      todo = [] ∧ ∃ e, e.isEnd = true ∧ [Action.placed o] = e :: more) :
    Placing c o (v.shipments - w.shipments) 0 (todo ++ more) := by
  have hnone {b : Books} (hv : v.books = b) (hb : b.deeds = w.deeds) :
      v.shipments - w.shipments = 0 := by
    have hd : v.deeds = w.deeds := (congrArg Books.deeds hv).trans hb
    rw [World.shipments_of_deeds hd, Nat.sub_self]
  have hrest : more = [.placed o] ∨ todo = [] ∧ more = [] := by
    refine hmore.imp id fun ⟨ht, e, _, hm⟩ => ⟨ht, ?_⟩
    cases hm
    rfl
  have ends {l : List Action} (hl : Foreign l) (hle : todo = l)
      (hz : v.shipments - w.shipments = 0) :
      Placing c o (v.shipments - w.shipments) 0 (todo ++ more) := by
    rw [hz, hle]
    exact .ended 0 (Nat.zero_le 1) l more hl (hrest.symm.imp (·.2) id)
  cases he with
  | idle _ _ ha => cases ha
  | waiting j _ hj | started j _ hj | lost j _ hj => cases hj.work
  | passed _ ha => exact ha.elim
  | again j n m d f _ _ hv =>
    rw [hnone hv rfl]
    obtain rfl | ⟨ht, -⟩ := hrest
    · exact .shipping m [.pause d] (.other _ _ rfl .nil)
    · cases ht
  | unneeded j n _ hn => cases hn
  | crashed j n r _ _ _ hv =>
    refine ends .nil rfl ?_
    have hd : v.deeds = .panicked (callOf (.shipping o) w) :: w.deeds := congrArg Books.deeds hv
    rw [World.shipments_eq, World.shipments_eq, hd,
      List.countP_cons_of_neg (by simp [Event.isShipment]), Nat.sub_self]
  | succeeded c work n _ _ hs =>
    cases hs with
    | shipped _ r _ hv =>
      have hd : v.deeds = .answered (.shipping o (w.books.order o).item
          (w.books.order o).customer.address) r :: w.deeds := congrArg Books.deeds hv
      have hone : v.shipments - w.shipments = 1 := by
        rw [World.shipments_eq, World.shipments_eq, hd, List.countP_cons_of_pos rfl,
          Nat.add_sub_cancel_left]
      rw [hone]
      obtain rfl | ⟨ht, -⟩ := hrest
      · exact .accepted
      · cases ht
  | failed c work n f _ _ _ hs =>
    cases hs with
    | turnedAway _ _ _ _ _ hv => exact ends (.other _ _ rfl .nil) rfl (hnone hv rfl)
    | notPlaced _ _ _ hv => exact ends .nil rfl (hnone hv rfl)
    | unseen _ _ _ hw => cases hw

theorem Placing.acted (hp : Placing c o k m (a :: rest)) (he : Effect s w a v todo)
    (hmore : more = rest ∨ todo = [] ∧ ∃ e, e.isEnd = true ∧ rest = e :: more) :
    Placing c o (k + (v.shipments - w.shipments))
      (m + if (nextPayment? (a :: rest)).isSome then 1 else 0) (todo ++ more) := by
  have still (hship : ∀ c o n, a ≠ .attempt ⟨c, .shipping o⟩ n)
      (hnext : nextPayment? (a :: rest) = none) (h : Placing c o k m (todo ++ more)) :
      Placing c o (k + (v.shipments - w.shipments))
        (m + if (nextPayment? (a :: rest)).isSome then 1 else 0) (todo ++ more) := by
    rw [he.shipments_of_foreign hship, Nat.sub_self, hnext]
    exact h
  generalize hag : a :: rest = agenda at hp
  cases hp with
  | asked =>
    cases hag
    refine still (fun _ _ _ => nofun) rfl ?_
    cases he with
    | idle _ _ ha => cases ha
    | waiting j _ hj | started j _ hj | lost j _ hj => cases hj.work
    | passed _ ha => exact ha.elim
    | placing =>
      obtain rfl | ⟨ht, -⟩ := hmore
      · exact .shipping 0 [] .nil
      · cases ht
  | shipping n l hl =>
    cases l with
    | nil =>
      cases hag
      simpa [nextPayment?] using Placing.attempted he hmore
    | cons b l =>
      cases hag
      refine still hl.head.2 (hl.nextPayment rfl) ?_
      obtain ⟨l₁, hl₁, heq⟩ | ⟨-, e, hend, heq⟩ := hl.acted he hmore
      · rw [heq]
        exact .shipping n l₁ hl₁
      · cases heq
        cases hend
  | accepted =>
    cases hag
    have hforeign := he.foreign (fun _ _ => nofun) fun _ _ _ => nofun
    rw [he.shipments_of_foreign fun _ _ _ => nofun, Nat.sub_self]
    refine .ended 1 (Nat.le_refl 1) todo more hforeign ?_
    obtain rfl | ⟨-, e, -, heq⟩ := hmore
    · exact .inr rfl
    · cases heq
      exact .inl rfl
  | ended k hk l tail hl htail =>
    cases l with
    | nil =>
      obtain rfl | rfl := htail
      · cases hag
      cases hag
      refine still (fun _ _ _ => nofun) rfl (.ended k hk todo more ?_ (.inl ?_))
      · exact he.foreign (fun _ _ => nofun) fun _ _ _ => nofun
      · exact hmore.resolve_right fun ⟨_, e, _, heq⟩ => by cases heq
    | cons b l =>
      cases hag
      have hnone : nextPayment? tail = none := by obtain rfl | rfl := htail <;> rfl
      refine still hl.head.2 (hl.nextPayment hnone) ?_
      obtain ⟨l₁, hl₁, heq⟩ | ⟨ht, e, -, heq⟩ := hl.acted he hmore
      · rw [heq]
        exact .ended k hk l₁ tail hl₁ htail
      · obtain rfl | rfl := htail
        · cases heq
        cases heq
        rw [ht]
        exact .ended k hk [] [] .nil (.inl rfl)

/-- Other work may take the place of the last part of a sleep. -/
theorem Placing.replaced {n : Nat} {l : List Action} (hp : Placing c o k m (.serve n :: rest))
    (hl : Foreign l) : Placing c o k m (l ++ rest) := by
  generalize hag : Action.serve n :: rest = agenda at hp
  cases hp with
  | asked | accepted => cases hag
  | shipping n l' hl' =>
    cases l' with
    | nil => cases hag
    | cons b l' =>
      cases hag
      have hnew := Placing.shipping (c := c) (o := o) n (l ++ l') (hl.append hl'.tail)
      rw [List.append_assoc] at hnew
      exact hnew
  | ended k hk l' tail hl' htail =>
    cases l' with
    | nil => obtain rfl | rfl := htail <;> cases hag
    | cons b l' =>
      cases hag
      have hnew := Placing.ended (c := c) k hk (l ++ l') tail (hl.append hl'.tail) htail
      rw [List.append_assoc] at hnew
      exact hnew

end Placements

/-! ## Happenings -/

section Happenings
variable {s : Setup} {σ τ : System} {h : Happening} {i k m : Nat} {c : CoordinatorRef}
  {o : OrderRef} {agenda : List Action}

/-- No job that waits ships. -/
theorem waiting_foreign (hm : Motion s σ τ h)
    (hwaiting : ∀ j ∈ σ.world.pending, (Action.attempt j 0).isForeign = true) :
    ∀ j ∈ τ.world.pending, (Action.attempt j 0).isForeign = true := by
  have fewer (hsub : τ.world.pending ⊆ σ.world.pending) :
      ∀ j ∈ τ.world.pending, (Action.attempt j 0).isForeign = true :=
    fun j hj => hwaiting j (hsub hj)
  have erased {i : Nat}
      (hb : τ.world.books = { σ.world.books with pending := σ.world.pending.eraseIdx i }) :
      τ.world.pending ⊆ σ.world.pending := by
    have hpending : τ.world.pending = σ.world.pending.eraseIdx i := congrArg Books.pending hb
    rw [hpending]
    exact List.eraseIdx_subset ..
  cases hm with
  | acted i a rest v todo more ha =>
    have hpending : τ.world.pending = v.pending := World.pending_of_books ha.books
    obtain hv | ⟨j, hj, hv⟩ := System.pending_of_effect ha.effect
    · exact fewer (by rw [hpending, hv]; exact List.Subset.refl _)
    · intro j' hj'
      rw [hpending, hv] at hj'
      obtain hj' | hj' := List.mem_append.mp hj'
      · exact hwaiting j' hj'
      · rw [List.mem_singleton.mp hj']
        exact hj.isForeign 0
  | rested i old more hi hold hw ht => exact fewer (by rw [hw]; exact List.Subset.refl _)
  | served i n rest j hj hi hb ht => exact fewer (erased hb)
  | started i j hj hb ht => exact fewer (erased hb)
  | asked q hq hw ht => exact fewer (by rw [hw]; exact List.Subset.refl _)
  | scripted m hm hb ht =>
    exact fewer (by rw [World.pending_of_books hb]; exact List.Subset.refl _)
  | ordered c customer item price x hx hb ht =>
    have hpending : τ.world.pending = σ.world.pending := congrArg Books.pending hb
    exact fewer (by rw [hpending]; exact List.Subset.refl _)

/-- A happening counts on, and takes the placement on the thread further if it does anything. -/
theorem Placing.happen
    (hwaiting : ∀ j ∈ σ.world.pending, (Action.attempt j 0).isForeign = true)
    (hm : Motion s σ τ h) (hi : σ.threads[i]? = some agenda) (hp : Placing c o k m agenda) :
    ∃ agenda', τ.threads[i]? = some agenda' ∧
      Placing c o (k + accepts i σ h τ) (m + invokes i σ h τ) agenda' := by
  have hlt : i < σ.threads.length := (List.getElem?_eq_some_iff.mp hi).1
  have kept {new : List Action} (ht : τ.threads = σ.threads ++ [new]) :
      τ.threads[i]? = some agenda := by
    rw [ht, List.getElem?_append_left hlt, hi]
  have elsewhere {i' : Nat} {new : List Action} (hne : i' ≠ i)
      (ht : τ.threads = σ.threads.set i' new) :
      ∃ agenda', τ.threads[i]? = some agenda' ∧
        Placing c o (k + accepts i σ (.move (.act i')) τ) (m + invokes i σ (.move (.act i')) τ)
          agenda' := by
    refine ⟨agenda, by rw [ht, List.getElem?_set_ne hne, hi], ?_⟩
    rw [accepts, invokes, if_neg hne, if_neg fun h => hne h.1]
    exact hp
  have here {new : List Action} (ht : τ.threads = σ.threads.set i new) :
      τ.threads[i]? = some new := by
    rw [ht, List.getElem?_set_self hlt]
  have haccepts {v : World} (hd : τ.world.deeds = v.deeds) :
      accepts i σ (.move (.act i)) τ = v.shipments - σ.world.shipments := by
    rw [accepts, if_pos rfl, World.shipments_of_deeds hd]
  have hinvokes : invokes i σ (.move (.act i)) τ =
      if (nextPayment? agenda).isSome then 1 else 0 := by
    rw [invokes, hi, Option.bind_some]
    simp only [true_and]
  have still {new : List Action} (hn : nextPayment? agenda = none)
      (hd : τ.world.deeds = σ.world.deeds) (ht : τ.threads = σ.threads.set i new)
      (hnew : Placing c o k m new) :
      ∃ agenda', τ.threads[i]? = some agenda' ∧
        Placing c o (k + accepts i σ (.move (.act i)) τ) (m + invokes i σ (.move (.act i)) τ)
          agenda' := by
    refine ⟨new, here ht, ?_⟩
    rw [haccepts hd, Nat.sub_self, hinvokes, hn]
    exact hnew
  cases hm with
  | acted i' a rest v todo more ha =>
    by_cases hne : i' = i
    · subst hne
      obtain rfl : a :: rest = agenda := Option.some.inj (ha.thread.symm.trans hi)
      refine ⟨todo ++ more, here ha.threads, ?_⟩
      rw [haccepts (World.deeds_of_books ha.books), hinvokes]
      exact hp.acted ha.effect ha.more
    · exact elsewhere hne ha.threads
  | rested i' old more hold' hold hw ht =>
    by_cases hne : i' = i
    · subst hne
      obtain rfl : old = agenda := Option.some.inj (hold'.symm.trans hi)
      have hd : τ.world.deeds = σ.world.deeds := by rw [hw]
      obtain ⟨rfl, rfl⟩ | ⟨count, rfl⟩ := hold
      · exact still rfl hd ht hp
      · exact still rfl hd ht (hp.replaced .nil)
    · exact elsewhere hne ht
  | served i' n rest j hj hold hb ht =>
    by_cases hne : i' = i
    · subst hne
      obtain rfl : .serve (n + 1) :: rest = agenda := Option.some.inj (hold.symm.trans hi)
      have hl : Foreign (j.agenda ++ [.serve n]) :=
        .other _ _ (hwaiting j (List.mem_of_getElem? hj)) (.other _ _ rfl (.other _ _ rfl .nil))
      have hnew := hp.replaced hl
      rw [List.append_assoc] at hnew
      exact still rfl (congrArg Books.deeds hb) ht hnew
    · exact elsewhere hne ht
  | started i' j hj hb ht => exact ⟨agenda, kept ht, hp⟩
  | asked q hq hw ht => exact ⟨agenda, kept ht, hp⟩
  | scripted m' hm hb ht =>
    refine ⟨agenda, by rw [ht, hi], ?_⟩
    cases m' <;> first | exact hp | cases hm
  | ordered d customer item price x hx hb ht => exact ⟨agenda, kept ht, hp⟩

/-- A placement starts on a thread of its own. -/
theorem thread_of_placement (hh : h.placement? σ = some (c, o)) (hτ : σ.happen? s h = some τ) :
    τ.threads[σ.threads.length]? = some [.place c o] ∧ accepts i σ h τ = 0 ∧
      invokes i σ h τ = 0 := by
  cases System.happens_of_some hτ with
  | moved m hq hm =>
    cases m with
    | ask q =>
      cases q with
      | place =>
        cases hh
        cases hm
        exact ⟨List.getElem?_concat_length .., rfl, rfl⟩
      | _ => cases hh
    | _ => cases hh
  | ordered d customer item price x ids draws hx hυ =>
    cases hh
    subst hυ
    exact ⟨List.getElem?_concat_length .., rfl, rfl⟩

end Happenings

/-! ## Histories -/

section Histories
variable {s : Setup} {σ τ υ : System} {happenings : List Happening} {i k m : Nat}
  {c : CoordinatorRef} {o : OrderRef} {agenda : List Action}

theorem Placing.after (hσ : σ.Orderly s) (hwhole : ∀ h ∈ happenings, h.Whole s)
    (hwaiting : ∀ j ∈ σ.world.pending, (Action.attempt j 0).isForeign = true)
    (hτ : σ.after? s happenings = some τ) (hi : σ.threads[i]? = some agenda)
    (hp : Placing c o k m agenda) :
    ∃ agenda', τ.threads[i]? = some agenda' ∧
      Placing c o (k + System.total s (accepts i) happenings σ)
        (m + System.total s (invokes i) happenings σ) agenda' := by
  induction happenings generalizing σ k m agenda with
  | nil =>
    cases hτ
    exact ⟨agenda, hi, hp⟩
  | cons h happenings ih =>
    simp only [System.after?, Option.bind_eq_some_iff] at hτ
    obtain ⟨υ, hυ, hτ⟩ := hτ
    have hm : Motion s σ υ h := hσ.motion hυ
    obtain ⟨agenda₁, hi₁, hp₁⟩ := hp.happen hwaiting hm hi
    have hnext := ih (hσ.happen (hwhole h (List.mem_cons_self ..)) hυ)
      (fun h hh => hwhole h (List.mem_cons_of_mem _ hh)) (waiting_foreign hm hwaiting) hτ hi₁ hp₁
    rw [System.total_cons _ hυ, System.total_cons _ hυ, ← Nat.add_assoc, ← Nat.add_assoc]
    exact hnext

/-- What a placement has counted by any later moment. -/
theorem placement_counts {h : Happening} {after : List Happening} (hσ : σ.Orderly s)
    (hwhole : ∀ h' ∈ h :: after, h'.Whole s)
    (hwaiting : ∀ j ∈ σ.world.pending, (Action.attempt j 0).isForeign = true)
    (hh : h.placement? σ = some (c, o)) (hτ : σ.after? s (h :: after) = some τ) :
    System.total s (accepts σ.threads.length) (h :: after) σ ≤ 1 ∧
    System.total s (accepts σ.threads.length) (h :: after) σ =
      System.total s (invokes σ.threads.length) (h :: after) σ +
        if τ.threads[σ.threads.length]?.bind nextPayment? = some (c, o) then 1 else 0 := by
  simp only [System.after?, Option.bind_eq_some_iff] at hτ
  obtain ⟨υ, hυ, hτ⟩ := hτ
  obtain ⟨hi, haccepts, hinvokes⟩ := thread_of_placement (i := σ.threads.length) hh hυ
  obtain ⟨agenda, hi', hp⟩ := Placing.after (hσ.happen (hwhole h (List.mem_cons_self ..)) hυ)
    (fun h' hh' => hwhole h' (List.mem_cons_of_mem _ hh'))
    (waiting_foreign (hσ.motion hυ) hwaiting) hτ hi (.asked (c := c) (o := o))
  rw [System.total_cons _ hυ, System.total_cons _ hυ, haccepts, hinvokes, hi', Option.bind_some]
  exact hp.counts

end Histories
end Fulfilment
