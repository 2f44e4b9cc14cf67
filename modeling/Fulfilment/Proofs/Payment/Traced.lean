import Mathlib.Data.List.Forall2
import Fulfilment.Proofs.Notice.Bill
import Fulfilment.Proofs.Payment.Rerun

/-! Histories in which the payment calls for one order are traced.

* `Traced`: a system with a mark on every action and every pending job that goes back to a payment
  call made since.
* `Traced.happen?`: what happens is what happens to the system; the marks are handed on.
* `Traced.Sound`: what is marked is what a further payment call leads to.
* `Traced.Sound.harmless`: what goes back to a call for a settled payment is harmless. -/
namespace Fulfilment

set_option autoImplicit false

/-! ## Marks -/

structure Traced where
  system : System
  /-- For each thread the marks of its actions. -/
  threads : List (List Bool)
  /-- The marks of the pending jobs. -/
  jobs : List Bool

namespace Traced

/-- Nothing is marked. -/
def unmarked (σ : System) : Traced :=
  ⟨σ, σ.threads.map (·.map fun _ => false), σ.world.pending.map fun _ => false⟩

/-- The payment of the order is taken up, on whatever call, or what happens goes back to that. -/
def goesBack (o : OrderRef) (μ : Traced) : Happening → Bool
  | .move (.act i) =>
    (μ.threads.getD i []).headD false || (μ.system.threads.getD i []).head?.any (Action.bills o)
  | .move (.start k) => μ.jobs.getD k false
  | _ => false

/-- The marks of so many actions: those that are new have this mark, the others keep theirs. -/
def inherit (mark : Bool) (marks : List Bool) (actions : Nat) : List Bool :=
  List.replicate (actions - marks.length) mark ++ marks.drop (marks.length - actions)

/-- An action hands its mark on to what it leaves to do and to the job it spawns, and a job to its
actions. -/
def next (o : OrderRef) (μ : Traced) (h : Happening) (τ : System) : Traced :=
  match h with
  | .move (.act i) =>
    let mark := μ.goesBack o (.move (.act i))
    let marks := μ.threads.getD i []
    if τ.world.pending.length < μ.system.world.pending.length then
      ⟨τ, μ.threads.set i (μ.jobs.headD false :: μ.jobs.headD false :: marks), μ.jobs.tail⟩
    else
      let new := τ.world.pending.length - μ.system.world.pending.length
      ⟨τ, μ.threads.set i (inherit mark marks.tail (τ.threads.getD i []).length),
        μ.jobs ++ List.replicate new mark⟩
  | .move (.start k) =>
    ⟨τ, μ.threads ++ [[μ.jobs.getD k false, μ.jobs.getD k false]], μ.jobs.eraseIdx k⟩
  | .move (.ask _) => ⟨τ, μ.threads ++ [[false]], μ.jobs⟩
  | .move _ => ⟨τ, μ.threads, μ.jobs⟩
  | .order _ _ _ _ => ⟨τ, μ.threads ++ [[false]], μ.jobs⟩

def happen? (s : Setup) (o : OrderRef) (h : Happening) (μ : Traced) : Option Traced :=
  (μ.system.happen? s h).map (μ.next o h)

def after? (s : Setup) (o : OrderRef) : List Happening → Traced → Option Traced
  | [], μ => some μ
  | h :: happenings, μ => (μ.happen? s o h).bind (after? s o happenings)

theorem next_system (o : OrderRef) (μ : Traced) (h : Happening) (τ : System) :
    (μ.next o h τ).system = τ := by
  unfold next
  split
  · dsimp only
    split <;> rfl
  all_goals rfl

/-- Marks have no influence on what happens. -/
theorem map_system_after? (s : Setup) (o : OrderRef) (happenings : List Happening) (μ : Traced) :
    (after? s o happenings μ).map Traced.system = System.after? s happenings μ.system := by
  induction happenings generalizing μ with
  | nil => rfl
  | cons h happenings ih =>
    rw [after?, System.after?, happen?]
    cases μ.system.happen? s h with
    | none => rfl
    | some τ =>
      rw [Option.map_some, Option.bind_some, ih, next_system, Option.bind_some]

/-! ## Sound marks -/

/-- What is marked has the property. -/
def Marks {α : Type} (P : α → Bool) (xs : List α) (marks : List Bool) : Prop :=
  List.Forall₂ (fun x mark => mark = true → P x = true) xs marks

structure Sound (o : OrderRef) (μ : Traced) : Prop where
  threads : List.Forall₂ (Marks (Action.reruns o)) μ.system.threads μ.threads
  jobs : Marks (fun j => j.work.reruns o) μ.system.world.pending μ.jobs

section Lists
variable {α β : Type} {R : α → β → Prop} {xs : List α} {ys : List β}

theorem forall₂_getElem? (h : List.Forall₂ R xs ys) {i : Nat} {x : α} (hx : xs[i]? = some x) :
    ∃ y, ys[i]? = some y ∧ R x y := by
  induction h generalizing i with
  | nil => cases hx
  | cons hR _ ih =>
    cases i with
    | zero =>
      cases hx
      exact ⟨_, rfl, hR⟩
    | succ i => exact ih hx

theorem forall₂_set (h : List.Forall₂ R xs ys) (i : Nat) {x : α} {y : β} (hxy : R x y) :
    List.Forall₂ R (xs.set i x) (ys.set i y) := by
  induction h generalizing i with
  | nil => exact .nil
  | cons hR hrest ih =>
    cases i with
    | zero => exact .cons hxy hrest
    | succ i => exact .cons hR (ih i)

theorem forall₂_eraseIdx (h : List.Forall₂ R xs ys) (i : Nat) :
    List.Forall₂ R (xs.eraseIdx i) (ys.eraseIdx i) := by
  induction h generalizing i with
  | nil => exact .nil
  | cons hR hrest ih =>
    cases i with
    | zero => exact hrest
    | succ i => exact .cons hR (ih i)

end Lists

section Marks
variable {α : Type} {P : α → Bool} {xs : List α}

theorem marks_replicate {mark : Bool} (h : mark = true → ∀ x ∈ xs, P x = true) :
    Marks P xs (List.replicate xs.length mark) := by
  induction xs with
  | nil => exact .nil
  | cons x xs ih =>
    exact .cons (fun hm => h hm x List.mem_cons_self)
      (ih fun hm y hy => h hm y (List.mem_cons_of_mem _ hy))

theorem marks_map_false (P : α → Bool) (xs : List α) : Marks P xs (xs.map fun _ => false) := by
  rw [List.map_const']
  exact marks_replicate nofun

/-- The first of the actions is performed, and leaves others to do before the rest, or cuts the
rest short. -/
theorem marks_inherit {todo rest more : List α} {mark : Bool} {marks : List Bool}
    (h : Marks P rest marks) (htodo : mark = true → ∀ x ∈ todo, P x = true)
    (hmore : more = rest ∨ todo = [] ∧ ∃ e, rest = e :: more) :
    Marks P (todo ++ more) (inherit mark marks (todo ++ more).length) := by
  have hlength : rest.length = marks.length := h.length_eq
  rw [inherit, List.length_append]
  obtain rfl | ⟨rfl, e, rfl⟩ := hmore
  · have hnew : todo.length + more.length - marks.length = todo.length := by omega
    have hold : marks.length - (todo.length + more.length) = 0 := by omega
    rw [hnew, hold, List.drop_zero]
    exact List.rel_append (marks_replicate htodo) h
  · rw [List.length_cons] at hlength
    have hnew : ([] : List α).length + more.length - marks.length = 0 := by
      rw [List.length_nil]
      omega
    have hold : marks.length - (([] : List α).length + more.length) = 1 := by
      rw [List.length_nil]
      omega
    rw [hnew, hold]
    cases h with
    | cons _ h => exact h

end Marks

theorem unmarked_sound (o : OrderRef) (σ : System) : (unmarked σ).Sound o := by
  refine ⟨?_, marks_map_false _ _⟩
  rw [unmarked]
  induction σ.threads with
  | nil => exact .nil
  | cons agenda threads ih => exact .cons (marks_map_false _ agenda) ih

end Traced

/-! ## One happening -/

theorem Work.reruns_of_spawns {o : OrderRef} {a : Action} {j : Job} (ha : a.reruns o = true)
    (hj : a.Spawns j) : j.work.reruns o = true := by
  have hwork := hj.work
  cases a with
  | pay c p | tell c p m =>
    rw [← Option.some.inj hwork]
    exact ha
  | _ => first | exact absurd ha Bool.false_ne_true | cases hwork

namespace Traced
variable {s : Setup} {o : OrderRef} {μ ν : Traced} {h : Happening}

theorem Sound.agenda (hμ : μ.Sound o) {i : Nat} {agenda : List Action}
    (hi : μ.system.threads[i]? = some agenda) :
    Marks (Action.reruns o) agenda (μ.threads.getD i []) := by
  obtain ⟨marks, hmarks, h⟩ := forall₂_getElem? hμ.threads hi
  rwa [List.getD_eq_getElem?_getD, hmarks]

theorem Sound.head (hμ : μ.Sound o) {i : Nat} (hi : μ.goesBack o (.move (.act i)) = true) :
    ∃ a rest, μ.system.threads[i]? = some (a :: rest) ∧ a.reruns o = true := by
  simp only [goesBack] at hi
  cases hagenda : μ.system.threads[i]? with
  | none =>
    have hnone : μ.threads[i]? = none := by
      rw [List.getElem?_eq_none_iff] at hagenda ⊢
      rwa [← hμ.threads.length_eq]
    rw [List.getD_eq_getElem?_getD, List.getD_eq_getElem?_getD, hnone, hagenda] at hi
    cases hi
  | some agenda =>
    have hmarks := hμ.agenda hagenda
    have hthread : μ.system.threads.getD i [] = agenda := by
      rw [List.getD_eq_getElem?_getD, hagenda, Option.getD_some]
    rw [hthread] at hi
    generalize μ.threads.getD i [] = marks at hi hmarks
    cases hmarks with
    | nil => cases hi
    | @cons a mark rest _ ha _ =>
      refine ⟨a, rest, rfl, ?_⟩
      obtain hmark | hbills := (Bool.or_eq_true _ _).mp hi
      · exact ha hmark
      · obtain ⟨c, rfl⟩ := pay_of_bills hbills
        exact hbills

theorem Sound.job (hμ : μ.Sound o) {k : Nat} {j : Job} (hj : μ.system.world.pending[k]? = some j)
    (hk : μ.jobs.getD k false = true) : j.work.reruns o = true := by
  obtain ⟨mark, hmark, hreruns⟩ := forall₂_getElem? hμ.jobs hj
  rw [List.getD_eq_getElem?_getD, hmark] at hk
  exact hreruns hk

/-- The first action of a thread that goes back to a payment call is performed. -/
theorem act_harmless {σ τ : System} {i : Nat} {a : Action} {rest : List Action}
    (hσ : σ.Orderly s) (hset : σ.world.Settled o) (hi : σ.threads[i]? = some (a :: rest))
    (ha : a.reruns o = true) (hτ : σ.move? s (.act i) = some τ) :
    σ.world.Harmless o τ.world := by
  obtain ⟨agenda, hagenda, rfl⟩ := System.act?_eq_some hτ
  rw [hi] at hagenda
  cases hagenda
  rw [Run.step_cons]
  obtain ⟨v, todo, hp, hv, -⟩ := perform_rerun (s := s) ha hσ.clock hσ.unlocked hset
  rw [hp]
  exact hv

theorem Sound.harmless (hμ : μ.Sound o) (hσ : μ.system.Orderly s)
    (hset : μ.system.world.Settled o) (hν : μ.happen? s o h = some ν)
    (hback : μ.goesBack o h = true) : μ.system.world.Harmless o ν.system.world := by
  obtain ⟨τ, hτ, rfl⟩ := Option.map_eq_some_iff.mp hν
  rw [next_system]
  cases System.happens_of_some hτ with
  | ordered => cases hback
  | moved m hq hm =>
    cases m with
    | act i =>
      obtain ⟨a, rest, hi, ha⟩ := hμ.head hback
      exact act_harmless hσ hset hi ha hm
    | start k =>
      obtain ⟨w, todo, hs, rfl⟩ := System.start?_eq_some hm
      exact startAt_harmless hs
    | ask | pass | fault | reply => cases hback

/-- An action that goes back to a payment call leaves nothing to do but its like. -/
theorem reruns_of_acts {σ τ : System} {i : Nat} {a : Action} {rest todo more : List Action}
    {v : World} (hσ : σ.Orderly s) (hset : σ.world.Settled o)
    (hacts : Acts s σ τ i a rest v todo more) (ha : a.reruns o = true) :
    ∀ b ∈ todo, b.reruns o = true := by
  obtain ⟨v', todo', hp, -, hnext⟩ := perform_rerun (s := s) ha hσ.clock hσ.unlocked hset
  obtain ⟨rfl, rfl⟩ : v' = v ∧ todo' = todo := by
    obtain hcome | ⟨hpanic, -⟩ := hacts.outcome
    · rw [hp] at hcome
      cases hcome
      exact ⟨rfl, rfl⟩
    · rw [hp] at hpanic
      cases hpanic
  obtain htodo | hstarted := hnext
  · exact htodo
  · -- A job that starts is gone from those that wait, and no effect of an action takes one away.
    obtain heq | ⟨k, -, heq⟩ := System.pending_of_effect hacts.effect
    · rw [heq] at hstarted
      omega
    · rw [heq, List.length_append] at hstarted
      omega

theorem Sound.acted (hμ : μ.Sound o) (hσ : μ.system.Orderly s) (hset : μ.system.world.Settled o)
    {τ : System} {i : Nat} {a : Action} {rest todo more : List Action} {v : World}
    (hacts : Acts s μ.system τ i a rest v todo more) :
    (μ.next o (.move (.act i)) τ).Sound o := by
  have hpending : τ.world.pending = v.pending := World.pending_of_books hacts.books
  have hthread : τ.threads.getD i [] = todo ++ more := by
    have hlt : i < μ.system.threads.length := (List.getElem?_eq_some_iff.mp hacts.thread).1
    rw [List.getD_eq_getElem?_getD, hacts.threads, List.getElem?_set_self hlt, Option.getD_some]
  have hmarks := hμ.agenda hacts.thread
  generalize hms : μ.threads.getD i [] = marks at hmarks
  obtain _ | @⟨_, mark, _, marks, -, hrest⟩ := hmarks
  have ha : μ.goesBack o (.move (.act i)) = true → a.reruns o = true := by
    intro hback
    obtain ⟨b, more', hi, hb⟩ := hμ.head hback
    rw [hacts.thread] at hi
    cases hi
    exact hb
  have htodo : μ.goesBack o (.move (.act i)) = true → ∀ b ∈ todo, b.reruns o = true :=
    fun hback => reruns_of_acts hσ hset hacts (ha hback)
  have hmore : more = rest ∨ todo = [] ∧ ∃ e, rest = e :: more :=
    hacts.more.imp id fun ⟨ht, e, _, he⟩ => ⟨ht, e, he⟩
  have hjobs : ¬ τ.world.pending.length < μ.system.world.pending.length ∧
      Marks (fun j => j.work.reruns o) τ.world.pending (μ.jobs ++
        List.replicate (τ.world.pending.length - μ.system.world.pending.length)
          (μ.goesBack o (.move (.act i)))) := by
    rw [hpending]
    obtain hsame | ⟨j, hj, hadded⟩ := System.pending_of_effect hacts.effect
    · rw [hsame, Nat.sub_self, List.replicate_zero, List.append_nil]
      exact ⟨Nat.lt_irrefl _, hμ.jobs⟩
    · rw [hadded, List.length_append, List.length_singleton, Nat.add_sub_cancel_left]
      refine ⟨by omega, List.rel_append hμ.jobs (.cons (fun hmark => ?_) .nil)⟩
      exact Work.reruns_of_spawns (ha hmark) hj
  simp only [next, hjobs.1, if_false, hms, List.tail_cons, hthread]
  refine ⟨?_, hjobs.2⟩
  simp only [hacts.threads]
  exact forall₂_set hμ.threads i (marks_inherit hrest htodo hmore)

theorem Sound.act (hμ : μ.Sound o) (hσ : μ.system.Orderly s) (hset : μ.system.world.Settled o)
    {τ : System} {i : Nat} (hm : Motion s μ.system τ (.move (.act i))) :
    (μ.next o (.move (.act i)) τ).Sound o := by
  cases hm with
  | acted _ a rest v todo more hacts => exact hμ.acted hσ hset hacts
  | rested _ old more hi hold hw ht =>
    have hthread : τ.threads.getD i [] = more := by
      have hlt : i < μ.system.threads.length := (List.getElem?_eq_some_iff.mp hi).1
      rw [List.getD_eq_getElem?_getD, ht, List.getElem?_set_self hlt, Option.getD_some]
    have hrest : Marks (Action.reruns o) more (μ.threads.getD i []).tail := by
      have hmarks := hμ.agenda hi
      generalize μ.threads.getD i [] = marks at hmarks
      obtain ⟨rfl, rfl⟩ | ⟨count, rfl⟩ := hold
      · cases hmarks
        exact .nil
      · cases hmarks with
        | cons _ hrest => exact hrest
    have hinherit : Marks (Action.reruns o) ([] ++ more)
        (inherit (μ.goesBack o (.move (.act i))) (μ.threads.getD i []).tail
          ([] ++ more).length) := marks_inherit hrest (fun _ => List.forall_mem_nil _) (.inl rfl)
    simp only [next, hw, Nat.lt_irrefl, if_false, Nat.sub_self, List.replicate_zero,
      List.append_nil, hthread]
    refine ⟨?_, ?_⟩
    · simp only [ht]
      exact forall₂_set hμ.threads i hinherit
    · simp only [hw]
      exact hμ.jobs
  | served _ n rest j hj hi hb ht =>
    have hpending : τ.world.pending = μ.system.world.pending.eraseIdx 0 := congrArg Books.pending hb
    have hlt : 0 < μ.system.world.pending.length := (List.getElem?_eq_some_iff.mp hj).1
    have hless : τ.world.pending.length < μ.system.world.pending.length := by
      rw [hpending, List.length_eraseIdx_of_lt hlt]
      omega
    have hhead : μ.jobs.headD false = μ.jobs.getD 0 false := by cases μ.jobs <;> rfl
    have hagenda : Marks (Action.reruns o) (j.agenda ++ .serve n :: rest)
        (μ.jobs.headD false :: μ.jobs.headD false :: μ.threads.getD i []) := by
      rw [hhead]
      refine .cons (hμ.job hj) (.cons (hμ.job hj) ?_)
      have hmarks := hμ.agenda hi
      generalize μ.threads.getD i [] = marks at hmarks
      cases hmarks with
      | cons _ hrest => exact .cons (fun _ => rfl) hrest
    simp only [next, hless, if_true]
    refine ⟨?_, ?_⟩
    · simp only [ht]
      exact forall₂_set hμ.threads i hagenda
    · simp only [hpending, ← List.eraseIdx_zero]
      exact forall₂_eraseIdx hμ.jobs 0
  | scripted _ hm => cases hm

theorem Sound.happen (hμ : μ.Sound o) (hσ : μ.system.Orderly s)
    (hset : μ.system.world.Settled o) (hν : μ.happen? s o h = some ν) : ν.Sound o := by
  obtain ⟨τ, hτ, rfl⟩ := Option.map_eq_some_iff.mp hν
  have hmotion := hσ.motion hτ
  cases hmotion with
  | acted | rested | served => exact hμ.act hσ hset (hσ.motion hτ)
  | started k j hj hb ht =>
    have hpending : τ.world.pending = μ.system.world.pending.eraseIdx k := congrArg Books.pending hb
    have hagenda : Marks (Action.reruns o) j.agenda [μ.jobs.getD k false, μ.jobs.getD k false] :=
      .cons (hμ.job hj) (.cons (hμ.job hj) .nil)
    refine ⟨?_, ?_⟩
    · simp only [next, ht]
      exact List.rel_append hμ.threads (.cons hagenda .nil)
    · simp only [next, hpending]
      exact forall₂_eraseIdx hμ.jobs k
  | asked q hq hw ht =>
    refine ⟨?_, ?_⟩
    · simp only [next, ht]
      exact List.rel_append hμ.threads (.cons (.cons nofun .nil) .nil)
    · simp only [next, hw]
      exact hμ.jobs
  | scripted m hm hb ht =>
    have hpending : τ.world.pending = μ.system.world.pending := World.pending_of_books hb
    cases m with
    | pass | fault | reply => exact ⟨by simpa only [next, ht] using hμ.threads,
        by simpa only [next, hpending] using hμ.jobs⟩
    | act | start | ask => cases hm
  | ordered c customer item price x hx hb ht =>
    have hpending : τ.world.pending = μ.system.world.pending := congrArg Books.pending hb
    refine ⟨?_, ?_⟩
    · simp only [next, ht]
      exact List.rel_append hμ.threads (.cons (.cons nofun .nil) .nil)
    · simp only [next, hpending]
      exact hμ.jobs

end Traced

end Fulfilment
