import Fulfilment.Proofs.Books.Motion

/-! What a happening does to a system as a whole, said once.

* `System.outstanding`: all that is still to be done, on the threads and in the jobs that wait.
* `Passage`: an action is performed, something is only moved about, a request is made, or a new
  order comes in.
* `System.Orderly.passage`: every happening is one of these. -/
namespace Fulfilment

set_option autoImplicit false

/-- Bookkeeping: it may come and go. -/
def Action.isMinor : Action → Bool
  | .pause _ => true
  | .serve _ => true
  | .finish _ => true
  | .placed _ => true
  | _ => false

theorem Action.isMinor_of_end {a : Action} (h : a.isEnd = true) : a.isMinor = true := by
  cases a <;> first | rfl | cases h

namespace System

/-- A job that waits is outstanding as its first attempt. -/
def outstanding (σ : System) : List Action :=
  σ.threads.flatten ++ σ.world.pending.map (.attempt · 0)

theorem mem_outstanding {σ : System} {b : Action} :
    b ∈ σ.outstanding ↔
      b ∈ σ.threads.flatten ∨ ∃ j ∈ σ.world.pending, Action.attempt j 0 = b := by
  rw [outstanding, List.mem_append, List.mem_map]

theorem load_outstanding (σ : System) (p : Action → Bool) :
    σ.load p = σ.outstanding.countP p := by
  rw [load, outstanding, List.countP_append, List.countP_map]
  rfl

theorem load_pos_of_mem {σ : System} {p : Action → Bool} {b : Action} (hb : b ∈ σ.outstanding)
    (hp : p b = true) : 0 < σ.load p := by
  rw [load_outstanding]
  exact List.countP_pos_iff.mpr ⟨b, hb, hp⟩

/-- A kind has more before it than a narrower one that leaves out something outstanding. -/
theorem load_lt_load {σ : System} {p q : Action → Bool} {b : Action} (hb : b ∈ σ.outstanding)
    (hpb : p b = false) (hqb : q b = true) (hpq : ∀ a, p a = true → q a = true) :
    σ.load p < σ.load q := by
  obtain ⟨before, after, hout⟩ := List.append_of_mem hb
  have hbefore : before.countP p ≤ before.countP q := List.countP_mono_left fun a _ => hpq a
  have hafter : after.countP p ≤ after.countP q := List.countP_mono_left fun a _ => hpq a
  simp only [load_outstanding, hout, List.countP_append, List.countP_cons, hpb, hqb,
    Bool.false_eq_true, if_false, if_true]
  omega

theorem Idle.outstanding {σ : System} (h : σ.Idle) : σ.outstanding = [] := by
  rw [System.outstanding, h.1, List.flatten_eq_nil_iff.mpr h.2]
  rfl

/-! ## Threads -/

section Threads
variable {threads : List (List Action)} {i : Nat} {old new : List Action} {b : Action}

theorem mem_flatten_set_of_new (hi : threads[i]? = some old) (hb : b ∈ new) :
    b ∈ (threads.set i new).flatten := by
  have hlt : i < threads.length := (List.getElem?_eq_some_iff.mp hi).1
  exact List.mem_flatten.mpr ⟨new, List.mem_set hlt new, hb⟩

theorem mem_flatten_of_set (hb : b ∈ (threads.set i new).flatten) :
    b ∈ threads.flatten ∨ b ∈ new := by
  obtain ⟨l, hl, hbl⟩ := List.mem_flatten.mp hb
  obtain hl | rfl := List.mem_or_eq_of_mem_set hl
  · exact .inl (List.mem_flatten.mpr ⟨l, hl, hbl⟩)
  · exact .inr hbl

theorem mem_flatten_set_or_old (new : List Action) (hi : threads[i]? = some old)
    (hb : b ∈ threads.flatten) : b ∈ (threads.set i new).flatten ∨ b ∈ old := by
  obtain ⟨l, hl, hbl⟩ := List.mem_flatten.mp hb
  obtain ⟨k, hk⟩ := List.getElem?_of_mem hl
  by_cases hik : i = k
  · subst hik
    rw [hi] at hk
    cases hk
    exact .inr hbl
  · have hset : (threads.set i new)[k]? = some l := by rw [List.getElem?_set_ne hik, hk]
    exact .inl (List.mem_flatten.mpr ⟨l, List.mem_of_getElem? hset, hbl⟩)

variable {a : Action} {rest : List Action} (hi : threads[i]? = some (a :: rest))
include hi

theorem mem_flatten_of_rest (hb : b ∈ rest) : b ∈ threads.flatten :=
  List.mem_flatten.mpr ⟨a :: rest, List.mem_of_getElem? hi, List.mem_cons_of_mem _ hb⟩

/-- A thread that goes on with the rest of its actions loses the first one only. -/
theorem mem_flatten_set_or_head (hnew : ∀ b ∈ rest, b ∈ new ∨ b.isMinor = true)
    (hb : b ∈ threads.flatten) :
    b ∈ (threads.set i new).flatten ∨ b.isMinor = true ∨ b = a := by
  obtain hb | hb := mem_flatten_set_or_old new hi hb
  · exact .inl hb
  · obtain rfl | hb := List.mem_cons.mp hb
    · exact .inr (.inr rfl)
    · obtain hb | hb := hnew b hb
      · exact .inl (mem_flatten_set_of_new hi hb)
      · exact .inr (.inl hb)

end Threads
end System

/-! ## Passages -/

theorem World.order_of_addOrder {w v : World} {x : Order} (h : v.books = w.books.addOrder x)
    {o : OrderRef} (ho : o < w.orders.length) : v.order o = w.order o := by
  have hv : v.order o = (Rehearsal.addOrder x w).order o := congrArg (fun b : Books => b.order o) h
  rw [hv]
  exact (w.order_addOrder x w.ids w.draws o).trans (if_neg (Nat.ne_of_lt ho))

inductive Passage (s : Setup) (h : Happening) (σ τ : System) : Prop
  | acted (a : Action) (v : World) (todo : List Action) (ha : a ∈ σ.outstanding)
      (he : Effect s σ.world a v todo) (hb : τ.world.books = v.books)
      (hclock : τ.world.clock = v.clock) (htodo : ∀ b ∈ todo, b ∈ τ.outstanding)
      (kept : ∀ b ∈ σ.outstanding, b ∈ τ.outstanding ∨ b.isMinor = true ∨ b = a)
      (came : ∀ b ∈ τ.outstanding, b ∈ σ.outstanding ∨ b.isMinor = true ∨ b ∈ todo ∨
        ∃ j, a.Spawns j ∧ b = .attempt j 0)
      (load : ∀ p, Concern p → τ.load p + (if p a then 1 else 0) + σ.world.waiting p =
        σ.load p + todo.countP p + v.waiting p)
      (acts : ∃ i rest more, h = .move (.act i) ∧ Acts s σ τ i a rest v todo more)
  | shifted (hb : τ.world.books = { σ.world.books with pending := τ.world.pending })
      (kept : ∀ b ∈ σ.outstanding, b ∈ τ.outstanding ∨ b.isMinor = true)
      (came : ∀ b ∈ τ.outstanding, b ∈ σ.outstanding ∨ b.isMinor = true)
      (load : ∀ p, Concern p → τ.load p = σ.load p)
  | asked (q : Request) (hh : h = .move (.ask q)) (hq : q.order < σ.world.orders.length)
      (hw : τ.world = σ.world)
      (ho : ∀ b, b ∈ τ.outstanding ↔ b ∈ σ.outstanding ∨ b = q.action)
      (load : ∀ p, τ.load p = σ.load p + if p q.action then 1 else 0)
  | ordered (c : CoordinatorRef) (customer : Customer) (item : String) (price : Float) (x : Order)
      (hh : h = .order c customer item price) (hx : System.Fresh x)
      (hb : τ.world.books = σ.world.books.addOrder x)
      (ho : ∀ b, b ∈ τ.outstanding ↔ b ∈ σ.outstanding ∨ b = .place c σ.world.orders.length)
      (load : ∀ p, τ.load p = σ.load p + if p (.place c σ.world.orders.length) then 1 else 0)

section Books
variable {s : Setup} {σ τ : System} {h : Happening}

/-- The books change as some action changes them, or only orders are added and jobs moved about. -/
theorem Passage.books_cases (hp : Passage s h σ τ) :
    (∃ a v todo, a ∈ σ.outstanding ∧ Effect s σ.world a v todo ∧ τ.world.books = v.books ∧
      ∀ b ∈ todo, b ∈ τ.outstanding) ∨
    ∃ orders pending, τ.world.books = { σ.world.books with orders, pending } ∧
      ∀ o < σ.world.orders.length, τ.world.order o = σ.world.order o := by
  cases hp with
  | acted a v todo ha he hb _ htodo _ _ => exact .inl ⟨a, v, todo, ha, he, hb, htodo⟩
  | shifted hb _ _ =>
    exact .inr ⟨_, _, hb, fun o _ => congrArg (fun b : Books => b.order o) hb⟩
  | asked q _ _ hw _ => exact .inr ⟨_, _, congrArg World.books hw, fun o _ => by rw [hw]⟩
  | ordered _ _ _ _ x _ _ hb _ =>
    exact .inr ⟨_, _, hb, fun o ho => World.order_of_addOrder hb ho⟩

end Books

namespace System
variable {s : Setup} {σ τ : System} {h : Happening}

theorem pending_of_effect {w v : World} {a : Action} {todo : List Action}
    (he : Effect s w a v todo) :
    v.pending = w.pending ∨ ∃ j, a.Spawns j ∧ v.pending = w.pending ++ [j] := by
  have same {b : Books} (hv : v.books = b) (hb : b.pending = w.pending) :
      v.pending = w.pending ∨ ∃ j, a.Spawns j ∧ v.pending = w.pending ++ [j] :=
    .inl ((congrArg Books.pending hv).trans hb)
  cases he with
  | idle _ _ _ _ hv => exact same hv rfl
  | waiting j _ hj hv => exact .inr ⟨j, hj, congrArg Books.pending hv⟩
  | succeeded c work n _ _ hs => cases hs with | _ => next hv => exact same hv rfl
  | failed c work n f _ _ hf hs => cases hs with | _ => next hv => exact same hv rfl
  | _ => next hv => exact same hv rfl

theorem outstanding_of_acts {i : Nat} {a : Action} {rest todo more : List Action} {v : World}
    (h : Acts s σ τ i a rest v todo more) : a ∈ σ.outstanding :=
  mem_outstanding.mpr (.inl (List.mem_flatten.mpr
    ⟨a :: rest, List.mem_of_getElem? h.thread, List.mem_cons_self ..⟩))

theorem passage_of_acts {i : Nat} {a : Action} {rest todo more : List Action} {v : World}
    (hacts : Acts s σ τ i a rest v todo more) : Passage s (.move (.act i)) σ τ := by
  have hacts' := hacts
  obtain ⟨hi, -, he, hb, hclock, -, hthreads, hmore⟩ := hacts'
  have hkept : ∀ b ∈ rest, b ∈ more ∨ b.isMinor = true := by
    obtain rfl | ⟨-, e, hend, rfl⟩ := hmore
    · exact fun b hb => .inl hb
    · intro b hb
      obtain rfl | hb := List.mem_cons.mp hb
      · exact .inr (Action.isMinor_of_end hend)
      · exact .inl hb
  have hrest : ∀ b ∈ more, b ∈ rest := by
    obtain rfl | ⟨-, e, -, rfl⟩ := hmore
    · exact fun b hb => hb
    · exact fun b hb => List.mem_cons_of_mem _ hb
  have hpending : τ.world.pending = v.pending := World.pending_of_books hb
  refine .acted a v todo (outstanding_of_acts hacts) he hb hclock ?_ ?_ ?_
    (fun p hp => hacts.load hp) ⟨i, rest, more, rfl, hacts⟩
  · intro b hb
    refine mem_outstanding.mpr (.inl ?_)
    rw [hthreads]
    exact mem_flatten_set_of_new hi (List.mem_append_left _ hb)
  · intro b hb
    obtain hb | ⟨j, hj, rfl⟩ := mem_outstanding.mp hb
    · have hnew : ∀ b ∈ rest, b ∈ todo ++ more ∨ b.isMinor = true := fun b hb =>
        (hkept b hb).imp (List.mem_append_right _) id
      refine (mem_flatten_set_or_head hi hnew hb).imp (fun hb => mem_outstanding.mpr (.inl ?_)) id
      rwa [hthreads]
    · refine .inl (mem_outstanding.mpr (.inr ⟨j, ?_, rfl⟩))
      obtain hv | ⟨k, -, hv⟩ := pending_of_effect he
      · rwa [hpending, hv]
      · rw [hpending, hv]
        exact List.mem_append_left _ hj
  · intro b hb
    obtain hb | ⟨j, hj, rfl⟩ := mem_outstanding.mp hb
    · rw [hthreads] at hb
      obtain hb | hb := mem_flatten_of_set hb
      · exact .inl (mem_outstanding.mpr (.inl hb))
      · obtain hb | hb := List.mem_append.mp hb
        · exact .inr (.inr (.inl hb))
        · exact .inl (mem_outstanding.mpr (.inl (mem_flatten_of_rest hi (hrest b hb))))
    · rw [hpending] at hj
      obtain hv | ⟨k, hk, hv⟩ := pending_of_effect he
      · rw [hv] at hj
        exact .inl (mem_outstanding.mpr (.inr ⟨j, hj, rfl⟩))
      · rw [hv] at hj
        obtain hj | hj := List.mem_append.mp hj
        · exact .inl (mem_outstanding.mpr (.inr ⟨j, hj, rfl⟩))
        · rw [List.mem_singleton.mp hj]
          exact .inr (.inr (.inr ⟨k, hk, rfl⟩))

/-- A job that starts is only moved about: from those that wait to a thread. -/
theorem passage_of_start {k : Nat} {j : Job} (hj : σ.world.pending[k]? = some j)
    (hb : τ.world.books = { σ.world.books with pending := σ.world.pending.eraseIdx k })
    (hk : ∀ b ∈ σ.threads.flatten, b ∈ τ.threads.flatten ∨ b.isMinor = true)
    (ht : ∀ b ∈ τ.threads.flatten, b ∈ σ.threads.flatten ∨ b.isMinor = true ∨ b ∈ j.agenda)
    (hnew : ∀ b ∈ j.agenda, b ∈ τ.threads.flatten)
    (load : ∀ p, Concern p → τ.load p = σ.load p) : Passage s h σ τ := by
  have hpending : τ.world.pending = σ.world.pending.eraseIdx k := congrArg Books.pending hb
  refine .shifted ?_ ?_ ?_ load
  · rw [hb, hpending]
  · intro b hb
    obtain hb | ⟨l, hl, rfl⟩ := mem_outstanding.mp hb
    · exact (hk b hb).imp (fun hb => mem_outstanding.mpr (.inl hb)) id
    · refine .inl (mem_outstanding.mpr ?_)
      by_cases hlj : l = j
      · rw [hlj]
        exact .inl (hnew _ (List.mem_cons_self ..))
      · refine .inr ⟨l, ?_, rfl⟩
        rw [hpending]
        exact (List.mem_eraseIdx_iff_getElem? ..).mpr (by
          obtain ⟨m, hm⟩ := List.getElem?_of_mem hl
          refine ⟨m, fun hmk => hlj ?_, hm⟩
          rw [hmk, hj] at hm
          exact (Option.some.inj hm).symm)
  · intro b hb
    obtain hb | ⟨l, hl, rfl⟩ := mem_outstanding.mp hb
    · obtain hb | hb | hb := ht b hb
      · exact .inl (mem_outstanding.mpr (.inl hb))
      · exact .inr hb
      · obtain rfl | hb := List.mem_cons.mp hb
        · exact .inl (mem_outstanding.mpr (.inr ⟨j, List.mem_of_getElem? hj, rfl⟩))
        · rw [List.mem_singleton.mp hb]
          exact .inr rfl
    · rw [hpending] at hl
      exact .inl (mem_outstanding.mpr (.inr ⟨l, List.mem_of_mem_eraseIdx hl, rfl⟩))

/-- A thread that goes on without a minor action of its own moves nothing. -/
theorem passage_of_rest {i : Nat} {old more : List Action} (hi : σ.threads[i]? = some old)
    (hold : old = [] ∧ more = [] ∨ ∃ count, old = .serve count :: more) (hw : τ.world = σ.world)
    (ht : τ.threads = σ.threads.set i more) : Passage s h σ τ := by
  have hin : ∀ b ∈ old, b ∈ more ∨ b.isMinor = true := by
    obtain ⟨rfl, rfl⟩ | ⟨count, rfl⟩ := hold
    · exact fun b hb => .inl hb
    · intro b hb
      obtain rfl | hb := List.mem_cons.mp hb
      · exact .inr rfl
      · exact .inl hb
  have hout : ∀ b ∈ more, b ∈ old := by
    obtain ⟨rfl, rfl⟩ | ⟨count, rfl⟩ := hold
    · exact fun b hb => hb
    · exact fun b hb => List.mem_cons_of_mem _ hb
  have hb : τ.world.books = { σ.world.books with pending := τ.world.pending } := by
    rw [hw]
    rfl
  refine .shifted hb (fun b hb => ?_) (fun b hb => ?_) fun p hp => load_of_rest hp hi hold hw ht
  · obtain hb | hb := mem_outstanding.mp hb
    · obtain hb | hb := mem_flatten_set_or_old more hi hb
      · exact .inl (mem_outstanding.mpr (.inl (by rwa [ht])))
      · refine (hin b hb).imp (fun hb => mem_outstanding.mpr (.inl ?_)) id
        rw [ht]
        exact mem_flatten_set_of_new hi hb
    · exact .inl (mem_outstanding.mpr (.inr (by rwa [hw])))
  · obtain hb | hb := mem_outstanding.mp hb
    · rw [ht] at hb
      obtain hb | hb := mem_flatten_of_set hb
      · exact .inl (mem_outstanding.mpr (.inl hb))
      · refine .inl (mem_outstanding.mpr (.inl ?_))
        exact List.mem_flatten.mpr ⟨old, List.mem_of_getElem? hi, hout b hb⟩
    · rw [hw] at hb
      exact .inl (mem_outstanding.mpr (.inr hb))

theorem outstanding_of_new (a : Action) (hw : τ.world.pending = σ.world.pending)
    (ht : τ.threads = σ.threads ++ [[a]]) (b : Action) :
    b ∈ τ.outstanding ↔ b ∈ σ.outstanding ∨ b = a := by
  simp only [outstanding, hw, ht, List.flatten_append, List.flatten_singleton, List.mem_append,
    List.mem_singleton]
  exact or_right_comm

theorem passage_of_motion (hm : Motion s σ τ h) : Passage s h σ τ := by
  cases hm with
  | acted i a rest v todo more ha => exact passage_of_acts ha
  | rested i old more hi hold hw ht => exact passage_of_rest hi hold hw ht
  | served i n rest j hj hi hb ht =>
    refine passage_of_start hj hb (fun b hb => ?_) (fun b hb => ?_) (fun b hb => ?_) fun p hp =>
      load_of_served hp hj hi hb ht
    · have hnew : ∀ b ∈ rest, b ∈ j.agenda ++ .serve n :: rest ∨ b.isMinor = true :=
        fun b hb => .inl (List.mem_append_right _ (List.mem_cons_of_mem _ hb))
      rw [ht]
      obtain hb | hb | rfl := mem_flatten_set_or_head hi hnew hb
      · exact .inl hb
      · exact .inr hb
      · exact .inr rfl
    · rw [ht] at hb
      obtain hb | hb := mem_flatten_of_set hb
      · exact .inl hb
      · obtain hb | hb := List.mem_append.mp hb
        · exact .inr (.inr hb)
        · obtain rfl | hb := List.mem_cons.mp hb
          · exact .inr (.inl rfl)
          · exact .inl (mem_flatten_of_rest hi hb)
    · rw [ht]
      exact mem_flatten_set_of_new hi (List.mem_append_left _ hb)
  | started k j hj hb ht =>
    have hflat : τ.threads.flatten = σ.threads.flatten ++ j.agenda := by
      rw [ht, List.flatten_append, List.flatten_singleton]
    refine passage_of_start hj hb (fun b hb => ?_) (fun b hb => ?_) (fun b hb => ?_) fun p hp =>
      load_of_started hp hj hb ht
    · exact .inl (by rw [hflat]; exact List.mem_append_left _ hb)
    · rw [hflat] at hb
      exact (List.mem_append.mp hb).imp id .inr
    · rw [hflat]
      exact List.mem_append_right _ hb
  | asked q hq hw ht =>
    have hpending : τ.world.pending = σ.world.pending := by rw [hw]
    exact .asked q rfl hq hw (outstanding_of_new q.action hpending ht)
      fun p => load_of_new hpending ht
  | scripted m hm hb ht =>
    have hpending : τ.world.pending = σ.world.pending := World.pending_of_books hb
    have hout : τ.outstanding = σ.outstanding := by rw [outstanding, outstanding, ht, hpending]
    refine .shifted ?_ (fun b hb => .inl (by rwa [hout])) (fun b hb => .inl (by rwa [← hout]))
      fun p hp => ?_
    · rw [hb, hpending]
      rfl
    · rw [load, load, ht, World.waiting_of_pending hpending]
  | ordered c customer item price x hx hb ht =>
    have hpending : τ.world.pending = σ.world.pending := congrArg Books.pending hb
    exact .ordered c customer item price x rfl hx hb (outstanding_of_new _ hpending ht)
      fun p => load_of_new hpending ht

theorem Orderly.passage (hσ : σ.Orderly s) (hτ : σ.happen? s h = some τ) : Passage s h σ τ :=
  passage_of_motion (hσ.motion hτ)

end System
end Fulfilment
