import Fulfilment.Proofs.System

/-! How many actions of a kind a system still has before it, on its threads and in the jobs that
wait, and how the moves change that number. -/
namespace Fulfilment

set_option autoImplicit false

/-! ## Kinds of actions -/

/-- A kind that leaves out all bookkeeping and pays no heed to how often an attempt has failed. -/
structure Concern (p : Action → Bool) : Prop where
  pause : ∀ d, p (.pause d) = false
  serve : ∀ count, p (.serve count) = false
  finish : ∀ j, p (.finish j) = false
  placed : ∀ o, p (.placed o) = false
  attempt : ∀ j n m, p (.attempt j n) = p (.attempt j m)

theorem Concern.of_end {p : Action → Bool} (hp : Concern p) {a : Action} (ha : a.isEnd = true) :
    p a = false := by
  cases a with
  | finish j => exact hp.finish j
  | placed o => exact hp.placed o
  | _ => cases ha

/-- The jobs of a kind that wait, each as its first attempt. -/
def World.waiting (p : Action → Bool) (w : World) : Nat :=
  w.pending.countP fun j => p (.attempt j 0)

/-- The actions of a kind that are still to be performed. -/
def System.load (p : Action → Bool) (σ : System) : Nat :=
  σ.threads.flatten.countP p + σ.world.waiting p

theorem World.waiting_of_pending {w v : World} (h : v.pending = w.pending) (p : Action → Bool) :
    v.waiting p = w.waiting p := by
  rw [waiting, waiting, h]

theorem World.waiting_mono {w v : World} (h : w.pending <+: v.pending) (p : Action → Bool) :
    w.waiting p ≤ v.waiting p :=
  h.sublist.countP_le

theorem countP_of_getElem? {α : Type} (p : α → Bool) (l : List α) (i : Nat) (x : α)
    (h : l[i]? = some x) : l.countP p = (l.eraseIdx i).countP p + if p x then 1 else 0 := by
  induction l generalizing i with
  | nil => cases h
  | cons a l ih =>
    cases i with
    | zero =>
      cases h
      simp only [List.eraseIdx_cons_zero, List.countP_cons]
    | succ i =>
      have hi := ih i h
      simp only [List.eraseIdx_cons_succ, List.countP_cons]
      omega

/-! ## Starting jobs -/

section Jobs
variable {s : Setup} {p : Action → Bool}

/-- A job that starts has its first attempt on a thread. -/
theorem startAt_load (hp : Concern p) (i : Nat) (w v : World) (todo : List Action)
    (h : startAt? s i w = some (v, todo)) : todo.countP p + v.waiting p = w.waiting p := by
  obtain ⟨j, hj, rfl, hv, -⟩ := startAt_cases i w v todo h
  have hw := countP_of_getElem? (fun j => p (.attempt j 0)) w.pending i j hj
  simp only [World.waiting, hv, List.countP_cons, List.countP_nil, hp.finish j,
    Bool.false_eq_true, if_false]
  omega

/-- Where jobs are not turned away, one that is spawned waits or is about to be attempted. -/
theorem spawn_load (w : World) (j : Job) (hw : w.Open) :
    ∃ v todo, spawn s j w = .next v todo ∧ v.settings = w.settings ∧ v.queued = w.queued ∧
      ∀ p, Concern p →
        todo.countP p + v.waiting p = w.waiting p + if p (.attempt j 0) then 1 else 0 := by
  by_cases hs : s.dispatch = .inline
  · refine ⟨_, _, spawn_inline hs hw j, rfl, rfl, fun p hp => ?_⟩
    simp only [World.waiting, World.record, List.countP_cons, List.countP_nil, hp.finish j,
      Bool.false_eq_true, if_false]
    omega
  · obtain ⟨stats, hspawn⟩ := spawn_waits hs hw j
    refine ⟨_, _, hspawn, rfl, rfl, fun p _ => ?_⟩
    simp only [World.waiting, World.enlist, World.record, List.countP_append, List.countP_cons,
      List.countP_nil, Nat.zero_add]

end Jobs

/-! ## Moves -/

namespace System
variable {s : Setup} {σ τ : System} {p q : Action → Bool}

theorem load_set {i : Nat} {old : List Action} (hi : σ.threads[i]? = some old) (w : World)
    (new : List Action) :
    (⟨w, σ.threads.set i new⟩ : System).load p + old.countP p + σ.world.waiting p =
      σ.load p + new.countP p + w.waiting p := by
  have h : ∀ (l : List (List Action)) (i : Nat), l[i]? = some old →
      (l.set i new).flatten.countP p + old.countP p = l.flatten.countP p + new.countP p := by
    intro l
    induction l with
    | nil =>
      intro i hi
      cases hi
    | cons x l ih =>
      intro i hi
      cases i with
      | zero =>
        cases hi
        simp only [List.set_cons_zero, List.flatten_cons, List.countP_append]
        omega
      | succ i =>
        have hl := ih i hi
        simp only [List.set_cons_succ, List.flatten_cons, List.countP_append]
        omega
  have hset := h σ.threads i hi
  simp only [load]
  omega

theorem load_pos {i : Nat} {a : Action} {rest : List Action}
    (hi : σ.threads[i]? = some (a :: rest)) (ha : p a = true) : 0 < σ.load p := by
  have hmem : a ∈ σ.threads.flatten :=
    List.mem_flatten.mpr ⟨a :: rest, List.mem_of_getElem? hi, List.mem_cons_self ..⟩
  have hpos : 0 < σ.threads.flatten.countP p := List.countP_pos_iff.mpr ⟨a, hmem, ha⟩
  simp only [load]
  omega

theorem load_mono (h : ∀ a, p a = true → q a = true) : σ.load p ≤ σ.load q := by
  have ht : σ.threads.flatten.countP p ≤ σ.threads.flatten.countP q :=
    List.countP_mono_left fun a _ => h a
  have hw : σ.world.waiting p ≤ σ.world.waiting q := List.countP_mono_left fun j _ => h _
  simp only [load]
  omega

/-- Nothing is left of a system whose threads have ended and for which no job waits. -/
def Idle (σ : System) : Prop := σ.world.pending = [] ∧ ∀ agenda ∈ σ.threads, agenda = []

theorem Idle.load (h : σ.Idle) (p : Action → Bool) : σ.load p = 0 := by
  have hflat : σ.threads.flatten = [] := by
    rw [List.flatten_eq_nil_iff]
    exact h.2
  simp only [System.load, World.waiting, hflat, h.1, List.countP_nil]

/-- How a thread that takes a step gets there. -/
theorem Orderly.act_cases {i : Nat} (h : σ.Orderly s) (hτ : σ.move? s (.act i) = some τ) :
    (σ.threads[i]? = some [] ∧ τ = ⟨σ.world, σ.threads.set i []⟩) ∨
      ∃ a rest r, σ.threads[i]? = some (a :: rest) ∧ Run.StepCases s σ.world a rest r ∧
        τ = ⟨r.world, σ.threads.set i r.agenda⟩ := by
  obtain ⟨agenda, hi, rfl⟩ := act?_eq_some hτ
  cases agenda with
  | nil => exact .inl ⟨hi, rfl⟩
  | cons a rest => exact .inr ⟨a, rest, _, hi, (h.thread hi).cases, rfl⟩

end System
end Fulfilment
