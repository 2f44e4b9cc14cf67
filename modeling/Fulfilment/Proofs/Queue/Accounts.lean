import Mathlib.Data.List.Forall2
import Fulfilment.Proofs.Books.Passage

/-! The accounts of a queue store that one coordinator has to itself.

* `World.tasksAdded`, `World.tasksRemoved`: the tasks the store took and gave back, read off the
  journal.
* `Books.Balanced`: the counter agrees with the store, and what was added is what was removed and
  then what is in the store.
* `System.queue_accounts`: the accounts balance in every history, so a look at the queue that sees a
  positive counter finds a task, and the counter is positive when a removal is counted. -/
namespace Fulfilment

set_option autoImplicit false

/-! ## Tasks added and removed -/

def Event.added? : Event → Option Task
  | .answered (.add t) _ => some t
  | _ => none

def Event.removed? : Event → Option Task
  | .answered .dequeue (.taken t) => some t
  | _ => none

namespace World

/-- The tasks that the queue store took, the first one first. -/
def tasksAdded (w : World) : List Task := (w.journal.filterMap Event.added?).reverse

def tasksRemoved (w : World) : List Task := (w.journal.filterMap Event.removed?).reverse

end World

/-! ## Balanced books -/

namespace Books

def tasksAdded (b : Books) : List Task := (b.deeds.filterMap Event.added?).reverse

def tasksRemoved (b : Books) : List Task := (b.deeds.filterMap Event.removed?).reverse

/-- What was added splits into tasks that were removed since and tasks that are in the store. -/
structure Balanced (c : CoordinatorRef) (b : Books) : Prop where
  counted : b.queued[c]? = some b.store.length
  kept : ∃ gone left, b.tasksAdded = gone ++ left ∧
    List.Forall₂ Task.Becomes gone b.tasksRemoved ∧ List.Forall₂ Task.Becomes left b.store
  types : b.added = b.tasksAdded.map Task.type

end Books

theorem World.tasksAdded_books (w : World) : w.tasksAdded = w.books.tasksAdded := by
  rw [tasksAdded, Books.tasksAdded, books, filterMap_deeds]
  intro e he
  cases e with
  | answered c r => cases c <;> first | rfl | cases he
  | _ => rfl

theorem World.tasksRemoved_books (w : World) : w.tasksRemoved = w.books.tasksRemoved := by
  rw [tasksRemoved, Books.tasksRemoved, books, filterMap_deeds]
  intro e he
  cases e with
  | answered c r => cases c <;> first | rfl | cases he
  | _ => rfl

section Actions
variable {s : Setup} {w v : World} {a : Action} {todo : List Action} {c : CoordinatorRef}

theorem Books.Balanced.queuedItems (h : w.books.Balanced c) :
    w.queuedItems c = w.collaborators.store.length := by
  have hcounted : w.queued[c]? = some w.collaborators.store.length := h.counted
  rw [World.queuedItems, List.getD_eq_getElem?_getD, hcounted, Option.getD_some]

theorem Books.Balanced.of_same {b b' : Books} (h : b.Balanced c) (hs : b'.store = b.store)
    (hq : b'.queued = b.queued) (ha : b'.added = b.added) (hin : b'.tasksAdded = b.tasksAdded)
    (hout : b'.tasksRemoved = b.tasksRemoved) : b'.Balanced c := by
  refine ⟨?_, ?_, ?_⟩
  · rw [hq, hs]
    exact h.counted
  · rw [hin, hout, hs]
    exact h.kept
  · rw [ha, hin]
    exact h.types

theorem Books.Balanced.visited {b b' : Books} {t : Task} {rest : List Task} (h : b.Balanced c)
    (now : Instant) (hs : b.store = t :: rest) (hs' : b'.store = t.markFirstAttempt now :: rest)
    (hq : b'.queued = b.queued) (ha : b'.added = b.added) (hin : b'.tasksAdded = b.tasksAdded)
    (hout : b'.tasksRemoved = b.tasksRemoved) : b'.Balanced c := by
  refine ⟨?_, ?_, ?_⟩
  · rw [hq, hs', h.counted, hs]
    rfl
  · obtain ⟨gone, left, hsplit, hgone, hleft⟩ := h.kept
    rw [hs] at hleft
    rw [hin, hout, hs']
    cases hleft with
    | cons ht hrest => exact ⟨gone, _, hsplit, hgone, .cons (ht.mark now) hrest⟩
  · rw [ha, hin]
    exact h.types

theorem Books.Balanced.added {b : Books} (h : b.Balanced c) (t : Task) :
    Books.Balanced c { b.deed (.answered (.add t) .stored) with
      store := b.store ++ [t]
      added := b.added ++ [t.type]
      queued := b.queued.modify c (· + 1) } := by
  have hin : (b.deed (.answered (.add t) .stored)).tasksAdded = b.tasksAdded ++ [t] :=
    List.reverse_cons
  refine ⟨?_, ?_, ?_⟩
  · simp only [List.getElem?_modify, h.counted, List.length_append, List.length_singleton]
    rfl
  · obtain ⟨gone, left, hsplit, hgone, hleft⟩ := h.kept
    refine ⟨gone, left ++ [t], ?_, hgone, ?_⟩
    · rw [← List.append_assoc, ← hsplit]
      exact hin
    · exact List.rel_append hleft (.cons (.inl rfl) .nil)
  · have htypes := congrArg (List.map Task.type) hin
    rw [List.map_append, ← h.types] at htypes
    exact htypes.symm

theorem Books.Balanced.removed {b : Books} {t : Task} {rest : List Task} (h : b.Balanced c)
    (hs : b.store = t :: rest) :
    Books.Balanced c { b.deed (.answered .dequeue (.taken t)) with
      store := rest
      queued := b.queued.modify c (· - 1) } := by
  have hout : (b.deed (.answered .dequeue (.taken t))).tasksRemoved = b.tasksRemoved ++ [t] :=
    List.reverse_cons
  refine ⟨?_, ?_, h.types⟩
  · simp only [List.getElem?_modify, h.counted, hs, List.length_cons]
    rfl
  · obtain ⟨gone, left, hsplit, hgone, hleft⟩ := h.kept
    rw [hs] at hleft
    cases hleft with
    -- The head of the store is the oldest of the tasks that are left.
    | @cons u _ left _ ht hrest =>
      refine ⟨gone ++ [u], left, ?_, ?_, hrest⟩
      · rw [List.append_assoc]
        exact hsplit
      · have happend : List.Forall₂ Task.Becomes (gone ++ [u]) (b.tasksRemoved ++ [t]) :=
          List.rel_append hgone (.cons ht .nil)
        rw [← hout] at happend
        exact happend

theorem Success.balanced {work : Work} (h : Success s w.books c work v todo)
    (hw : w.books.Balanced c) : v.books.Balanced c := by
  cases h with
  | shipped _ _ _ hv | paid _ _ _ _ hv | told _ _ _ _ _ hv | handed _ _ _ _ hv =>
    rw [hv]
    exact hw.of_same rfl rfl rfl rfl rfl
  | added t _ hv =>
    rw [hv]
    exact hw.added t
  | visited t rest now _ hs hc hf hv =>
    rw [hv]
    exact hw.visited now hs rfl rfl rfl rfl rfl
  | condemned t rest now r _ hs hc hr hf hv =>
    rw [hv]
    exact hw.visited now hs rfl rfl rfl rfl rfl
  | removed t rest _ hs hv =>
    rw [hv]
    exact hw.removed hs

theorem Setback.balanced {work : Work} {d : CoordinatorRef} {f : Failure}
    (h : Setback s w.books d work f v todo) (hw : w.books.Balanced c) : v.books.Balanced c := by
  cases h with
  | _ =>
    next hv =>
    rw [hv]
    exact hw.of_same rfl rfl rfl rfl rfl

theorem Effect.balanced (h : Effect s w a v todo) (ha : ∀ d, a.owner? = some d → d = c)
    (hw : w.books.Balanced c) : v.books.Balanced c := by
  cases h with
  | idle _ _ _ _ hv =>
    rw [hv]
    exact hw
  | succeeded d work n _ _ hs =>
    cases ha d rfl
    exact hs.balanced hw
  | failed d work n f _ _ hf hs => exact hs.balanced hw
  | _ =>
    next hv =>
    rw [hv]
    exact hw.of_same rfl rfl rfl rfl rfl

/-! ## One coordinator -/

theorem Action.owner?_of_minor (h : a.isMinor = true) : a.owner? = none := by
  cases a <;> first | rfl | cases h

theorem Task.owner?_retry (t : Task) (d : CoordinatorRef) : (t.retry d).owner? = some d := by
  simp only [Task.retry]
  split <;> rfl

/-- Whoever an action belongs to, what it leaves to do belongs to as well. -/
theorem Effect.owner (h : Effect s w a v todo) :
    ∀ b ∈ todo, b.isMinor = true ∨ b.owner? = a.owner? := by
  have one {b : Action} (hb : b.owner? = a.owner?) :
      ∀ b' ∈ [b], b'.isMinor = true ∨ b'.owner? = a.owner? :=
    List.forall_mem_singleton.mpr (.inr hb)
  have two {b b' : Action} (hb : b.isMinor = true ∨ b.owner? = a.owner?)
      (hb' : b'.isMinor = true ∨ b'.owner? = a.owner?) :
      ∀ d ∈ [b, b'], d.isMinor = true ∨ d.owner? = a.owner? :=
    List.forall_mem_cons.mpr ⟨hb, List.forall_mem_singleton.mpr hb'⟩
  have nothing : ∀ b ∈ ([] : List Action), b.isMinor = true ∨ b.owner? = a.owner? :=
    fun b hb => absurd hb List.not_mem_nil
  cases h with
  | idle _ _ _ ht _ =>
    intro b hb
    obtain ⟨n, rfl⟩ := ht b hb
    exact .inl rfl
  | placing => exact two (.inr rfl) (.inl rfl)
  | waiting | lost | passed | crashed => exact nothing
  | started j _ hj _ => exact two (.inr hj.owner.symm) (.inl rfl)
  | expired | escalating => exact one rfl
  | deferring => exact two (.inr rfl) (.inr rfl)
  | drainingOn => exact two (.inl rfl) (.inr rfl)
  | again => exact two (.inl rfl) (.inr rfl)
  | unneeded j n _ hn hv =>
    split
    · exact one rfl
    · exact nothing
  | succeeded d work n _ _ hs =>
    cases hs with
    | shipped | paid | added => exact one rfl
    | told | handed | removed => exact nothing
    | visited t => exact two (.inr (t.owner?_retry d)) (.inr rfl)
    | condemned => exact two (.inr rfl) (.inr rfl)
  | failed d work n f _ _ hf hs =>
    cases hs with
    | turnedAway | declined | stillUnpaid | unattended | notAdded => exact one rfl
    | unpaid | undelivered | notQueued => exact two (.inr rfl) (.inr rfl)
    | notPlaced | declinedLate | givenUp | leftAlone | unseen => exact nothing

end Actions

def Request.owner : Request → CoordinatorRef
  | .place c _ => c
  | .pay c _ => c
  | .tell c _ _ => c
  | .escalate c _ => c
  | .enqueue c _ => c

theorem Request.owner_action (q : Request) : q.action.owner? = some q.owner := by
  cases q <;> rfl

/-- Nobody but the coordinator is asked. -/
def Happening.Of (c : CoordinatorRef) : Happening → Prop
  | .move (.ask q) => q.owner = c
  | .move _ => True
  | .order d _ _ _ => d = c

namespace System

/-- All that is outstanding is the coordinator's. -/
def Solely (c : CoordinatorRef) (σ : System) : Prop :=
  ∀ a ∈ σ.outstanding, ∀ d, a.owner? = some d → d = c

section Happenings
variable {s : Setup} {σ τ : System} {h : Happening} {c : CoordinatorRef}

theorem Solely.passage (hs : σ.Solely c) (hh : h.Of c) (hp : Passage s h σ τ) : τ.Solely c := by
  intro b hb d hd
  cases hp with
  | acted a v todo ha he _ _ _ _ came =>
    have minor (hm : b.isMinor = true) : d = c := by
      rw [Action.owner?_of_minor hm] at hd
      cases hd
    obtain hold | hm | hnew | ⟨j, hj, rfl⟩ := came b hb
    · exact hs b hold d hd
    · exact minor hm
    · obtain hm | howner := he.owner b hnew
      · exact minor hm
      · exact hs a ha d (howner.symm.trans hd)
    · exact hs a ha d (hj.owner.trans hd)
  | shifted _ _ came =>
    obtain hold | hm := came b hb
    · exact hs b hold d hd
    · rw [Action.owner?_of_minor hm] at hd
      cases hd
  | asked q hh' _ _ hout =>
    subst hh'
    obtain hold | rfl := (hout b).mp hb
    · exact hs b hold d hd
    · rw [q.owner_action] at hd
      exact (Option.some.inj hd).symm.trans hh
  | ordered c' customer item price x hh' _ _ hout =>
    subst hh'
    obtain hold | rfl := (hout b).mp hb
    · exact hs b hold d hd
    · exact (Option.some.inj hd).symm.trans hh

theorem balanced_passage (hs : σ.Solely c) (hp : Passage s h σ τ)
    (hb : σ.world.books.Balanced c) : τ.world.books.Balanced c := by
  obtain ⟨a, v, todo, ha, he, hbooks, -⟩ | ⟨_, _, hbooks, -⟩ := hp.books_cases
  · rw [hbooks]
    exact he.balanced (hs a ha) hb
  · rw [hbooks]
    exact hb.of_same rfl rfl rfl rfl rfl

end Happenings
end System

/-! ## Looks and removals -/

/-- No look at the queue store is told that the store is empty. -/
def World.Candid (w : World) : Prop :=
  ∀ r, (CallKind.peek, r) ∈ w.replies → r.empty = false ∧ r.failure ≠ some .queueEmpty

/-- The replies to looks at the queue store that are scripted do not say that it is empty. -/
def Happening.Candid : Happening → Prop
  | .move (.reply .peek r) => r.empty = false ∧ r.failure ≠ some .queueEmpty
  | _ => True

theorem World.Candid.happen {s : Setup} {σ τ : System} {h : Happening} (hc : σ.world.Candid)
    (hσ : σ.Orderly s) (hh : h.Candid) (hτ : σ.happen? s h = some τ) : τ.world.Candid := by
  intro r hr
  obtain hr | rfl := hσ.replies_happen hτ hr
  · exact hc r hr
  · exact hh

section Calls
variable {s : Setup} {c : CoordinatorRef} {w : World}

theorem peek_finds (hw : w.Whole s) (hc : w.Candid)
    (hcount : w.queuedItems c = w.collaborators.store.length) (hpos : 0 < w.queuedItems c) :
    (checkAndCall s ⟨c, .drain⟩ w).2 ≠ .refused .queueEmpty := by
  have hneeded : needed ⟨c, .drain⟩ w = true := decide_eq_true hpos
  obtain ⟨hreply, -, hholdings⟩ := called_reply ⟨c, .drain⟩ w
  rw [checkAndCall_eq _ w hw, if_pos hneeded]
  have hstore := congrArg Collaborators.store (World.collaborators_of_holdings hholdings)
  -- The call leaves the store alone before it looks, so a positive counter means a head.
  generalize called ⟨c, .drain⟩ w = q at hreply hstore ⊢
  obtain ⟨r, v⟩ := q
  have hcandid : r.empty = false ∧ r.failure ≠ some .queueEmpty := by
    obtain rfl | hr := hreply
    · exact ⟨rfl, by decide⟩
    · exact hc r hr
  intro hrefused
  simp only [answer] at hrefused
  split at hrefused
  · cases hrefused
  · cases hf : r.failure with
    | some f =>
      simp only [hf, World.refuse] at hrefused
      cases hrefused
      exact hcandid.2 hf
    | none =>
      cases hs : w.collaborators.store with
      | nil =>
        rw [hs] at hcount
        rw [hcount] at hpos
        exact absurd hpos (Nat.lt_irrefl 0)
      | cons t rest =>
        have hhead : v.collaborators.head? = some t := by
          rw [Collaborators.head?, hstore, hs]
          rfl
        simp only [hf, fulfil, hcandid.1, hhead, Bool.false_eq_true, if_false] at hrefused
        cases hrefused

theorem removal_counted (hw : w.Whole s) (hcount : w.queuedItems c = w.collaborators.store.length)
    {t : Task} (h : (checkAndCall s ⟨c, .dequeue⟩ w).2 = .accepted (.taken t)) :
    0 < (checkAndCall s ⟨c, .dequeue⟩ w).1.queuedItems c := by
  obtain ⟨-, -, hholdings⟩ := called_reply ⟨c, .dequeue⟩ w
  have hneeded : needed ⟨c, .dequeue⟩ w = true := rfl
  rw [checkAndCall_eq _ w hw, if_pos hneeded] at h ⊢
  have hstore := congrArg Collaborators.store (World.collaborators_of_holdings hholdings)
  have hqueued := World.queued_of_holdings hholdings
  generalize called ⟨c, .dequeue⟩ w = q at hstore hqueued h ⊢
  obtain ⟨r, v⟩ := q
  simp only [answer] at h ⊢
  split at h
  · cases h
  · next hp =>
    rw [if_neg hp]
    cases hf : r.failure with
    | some f =>
      simp only [hf] at h
      cases h
    | none =>
      simp only [hf] at h ⊢
      rw [World.queuedItems, fulfil_queued, hqueued]
      have hpos : 0 < w.collaborators.store.length := by
        cases hs : w.collaborators.store with
        | nil =>
          have hnone : v.collaborators.take? = none := by
            rw [Collaborators.take?, (hstore.trans hs : v.collaborators.store = [])]
          simp only [fulfil, hnone] at h
          cases h
        | cons u rest => exact Nat.succ_pos _
      rw [← hcount] at hpos
      exact hpos

end Calls

/-! ## Histories -/

/-- The queue store is empty, nothing was ever added to it or removed from it, and the coordinator
has counted nothing. -/
structure World.Unused (c : CoordinatorRef) (w : World) : Prop where
  store : w.collaborators.store = []
  types : w.collaborators.added = []
  counted : w.queued[c]? = some 0
  added : w.tasksAdded = []
  removed : w.tasksRemoved = []

theorem World.Unused.balanced {c : CoordinatorRef} {w : World} (h : w.Unused c) :
    w.books.Balanced c := by
  have hadded : w.books.tasksAdded = [] := by rw [← w.tasksAdded_books, h.added]
  have hremoved : w.books.tasksRemoved = [] := by rw [← w.tasksRemoved_books, h.removed]
  have hstore : w.books.store = [] := h.store
  refine ⟨?_, ⟨[], [], hadded, ?_, ?_⟩, ?_⟩
  · rw [hstore]
    exact h.counted
  · rw [hremoved]
    exact .nil
  · rw [hstore]
    exact .nil
  · rw [hadded]
    exact h.types

namespace System

/-- In a history in which one coordinator alone uses a queue store that was unused at first: it
counts the tasks in the store; the tasks added are, in their order, those removed and then those in
the store, the same but for the mark of their first visit; the store has noted their types; no look
that sees a positive counter is refused because the store is empty; and whenever a removal is
about to be counted the counter is positive. -/
theorem queue_accounts (s : Setup) (c : CoordinatorRef) (σ₀ σ₁ : System)
    (happenings : List Happening) (h₀ : σ₀.Orderly s) (hunused : σ₀.world.Unused c)
    (hsolely : σ₀.Solely c) (hcandid : σ₀.world.Candid) (hwhole : ∀ h ∈ happenings, h.Whole s)
    (hof : ∀ h ∈ happenings, h.Of c) (hreplies : ∀ h ∈ happenings, h.Candid)
    (h₁ : after? s happenings σ₀ = some σ₁) :
    σ₁.world.queuedItems c = σ₁.world.collaborators.store.length ∧
    List.Forall₂ Task.Becomes σ₁.world.tasksAdded
      (σ₁.world.tasksRemoved ++ σ₁.world.collaborators.store) ∧
    σ₁.world.collaborators.added = σ₁.world.tasksAdded.map Task.type ∧
    (0 < σ₁.world.queuedItems c →
      (checkAndCall s ⟨c, .drain⟩ σ₁.world).2 ≠ .refused .queueEmpty) ∧
    ∀ t, (checkAndCall s ⟨c, .dequeue⟩ σ₁.world).2 = .accepted (.taken t) →
      0 < (checkAndCall s ⟨c, .dequeue⟩ σ₁.world).1.queuedItems c := by
  obtain ⟨ho, -, hc, hb⟩ : σ₁.Orderly s ∧ σ₁.Solely c ∧ σ₁.world.Candid ∧
      σ₁.world.books.Balanced c := by
    refine after?_induct (P := fun υ => υ.Orderly s ∧ υ.Solely c ∧ υ.world.Candid ∧
      υ.world.books.Balanced c) ?_ h₁ ⟨h₀, hsolely, hcandid, hunused.balanced⟩
    rintro h hh υ ω hω ⟨ho, hs, hc, hb⟩
    exact ⟨ho.happen (hwhole h hh) hω, hs.passage (hof h hh) (ho.passage hω),
      hc.happen ho (hreplies h hh) hω, balanced_passage hs (ho.passage hω) hb⟩
  have hcount := hb.queuedItems
  obtain ⟨gone, left, hsplit, hgone, hleft⟩ := hb.kept
  refine ⟨hcount, ?_, ?_, peek_finds ho.replies hc hcount,
    fun t => removal_counted ho.replies hcount⟩
  · rw [World.tasksAdded_books, World.tasksRemoved_books, hsplit]
    exact List.rel_append hgone hleft
  · rw [World.tasksAdded_books]
    exact hb.types

/-- No orders yet, and nothing to go wrong. -/
def newShop : System := { world := { clock := 5 } }

theorem newShop_orderly (s : Setup) : newShop.Orderly s :=
  ⟨by decide, .of_forall (by decide), by simp [World.Whole, newShop], by simp [newShop]⟩

/-- Two tasks are queued for an order; the payment is taken otherwise, and a drain step drops the
first task. -/
def firstDropped : List Happening :=
  .order 0 ⟨"Jim", "ABCD"⟩ "book" 10 ::
    [.ask (.enqueue 0 (.payment 0)), .act 1, .ask (.enqueue 0 (.employeeDb 0)), .act 2, .start 0,
      .act 3, .start 0, .act 4, .act 3, .ask (.pay 0 0), .act 5, .start 1, .act 6, .start 0, .act 7,
      .act 7, .start 0, .act 8].map .move

theorem firstDropped_accounts :
    ∃ σ₁, after? {} firstDropped newShop = some σ₁ ∧
      σ₁.world.tasksRemoved = [(Task.payment 0).markFirstAttempt 5] ∧
      σ₁.world.collaborators.store = [.employeeDb 0] ∧ σ₁.world.queuedItems 0 = 1 ∧
      List.Forall₂ Task.Becomes [.payment 0, .employeeDb 0]
        [(Task.payment 0).markFirstAttempt 5, .employeeDb 0] ∧
      σ₁.world.collaborators.added = [.payment, .employeeDb] := by
  refine ⟨_, rfl, rfl, rfl, ?_⟩
  have h := queue_accounts {} 0 newShop _ firstDropped (newShop_orderly {})
    ⟨rfl, rfl, rfl, rfl, rfl⟩ (by simp [Solely, outstanding, newShop])
    (by simp [World.Candid, newShop])
    (by simp [firstDropped, Happening.Whole, Move.Whole])
    (by simp [firstDropped, Happening.Of, Request.owner])
    (by simp [firstDropped, Happening.Candid]) rfl
  exact ⟨h.1, h.2.1, h.2.2.1⟩

end System
end Fulfilment
