import Fulfilment.Proofs.Employee.Handle
import Fulfilment.Proofs.Load
import Fulfilment.Proofs.Stage.Course

/-! Steps that have no part in what becomes of a payment: messages to the customer and bookkeeping,
as long as messages are never refused.

* `World.standing`: what is known of an order's payment, and of who was informed.
* `Action.isQuiet`: messages and bookkeeping.
* `System.quiet_or_loud`: a move leaves the standing of the order and all other actions alone, or it
  performs one of these. -/
namespace Fulfilment

set_option autoImplicit false

/-! ## The standing of an order -/

/-- Shipping accepted the order. -/
def Event.isShipmentOf (o : OrderRef) : Event → Bool
  | .answered (.shipping p _ _) _ => p = o
  | _ => false

/-- The payment service panicked over the order. -/
def Event.isCrashOf (o : OrderRef) : Event → Bool
  | .panicked (.payment p _) => p = o
  | _ => false

namespace World

def shipped (w : World) (o : OrderRef) : Bool := w.journal.any (Event.isShipmentOf o)

def crashed (w : World) (o : OrderRef) : Bool := w.journal.any (Event.isCrashOf o)

theorem shipped_eq (w : World) (o : OrderRef) :
    w.shipped o = w.deeds.any (Event.isShipmentOf o) := by
  rw [shipped, any_deeds]
  intro e he
  cases e with
  | answered c r => cases c <;> first | rfl | cases he
  | _ => cases he

theorem shipped_of_deeds {w v : World} (h : v.deeds = w.deeds) (o : OrderRef) :
    v.shipped o = w.shipped o := by
  rw [shipped_eq, shipped_eq, h]

theorem crashed_eq (w : World) (o : OrderRef) : w.crashed o = w.deeds.any (Event.isCrashOf o) := by
  rw [crashed, any_deeds]
  intro e he
  cases e with
  | panicked c => rfl
  | _ => cases he

/-- Status, whether an employee has the order, whether it was shipped, and whether the payment
service panicked over it. -/
def standing (w : World) (o : OrderRef) : PaymentStatus × Bool × Bool × Bool :=
  ((w.order o).payment, w.informed o, w.shipped o, w.crashed o)

theorem standing_of_eq {w v : World} (ho : v.orders = w.orders)
    (hc : v.collaborators = w.collaborators) (hd : v.deeds = w.deeds) (o : OrderRef) :
    v.standing o = w.standing o := by
  have hv : v.order o = w.order o := by rw [order, order, ho]
  simp only [standing, informed, idOf, shipped_eq, crashed_eq, hv, hc, hd]

theorem standing_of_settings {w v : World} (h : v.settings = w.settings) (o : OrderRef) :
    v.standing o = w.standing o :=
  standing_of_eq (congrArg (·.1) h) (congrArg (·.2.1) h) (congrArg (·.2.2.1) h) o

theorem standing_of_holdings {w v : World} (h : v.holdings = w.holdings) (o : OrderRef) :
    v.standing o = w.standing o :=
  standing_of_eq (orders_of_holdings h) (collaborators_of_holdings h) (deeds_of_holdings h) o

theorem standing_parts {w v : World} {o : OrderRef} (h : v.standing o = w.standing o) :
    (v.order o).payment = (w.order o).payment ∧ v.informed o = w.informed o ∧
      v.shipped o = w.shipped o ∧ v.crashed o = w.crashed o := by
  simpa only [standing, Prod.mk.injEq] using h

theorem standing_showNotice (w : World) (p o : OrderRef) (n : SiteNotice) :
    (w.showNotice p n).standing o = w.standing o := by
  simp only [showNotice]
  cases (w.order p).notice with
  | some _ => rfl
  | none =>
    have hpay : ((w.modifyOrder p (·.recordNotice n)).order o).payment = (w.order o).payment :=
      order_modifyOrder_congr Order.payment w p o _ fun x => by
        cases hx : x.notice <;> simp only [Order.recordNotice, hx]
    have hid : ((w.modifyOrder p (·.recordNotice n)).order o).id = (w.order o).id :=
      order_modifyOrder_congr Order.id w p o _ fun x => by
        cases hx : x.notice <;> simp only [Order.recordNotice, hx]
    have h : (w.modifyOrder p (·.recordNotice n)).standing o = w.standing o := by
      simp only [standing, informed, idOf, hpay, hid]
      rfl
    exact h

theorem standing_deliver (w : World) (empty : Bool) (p o : OrderRef) (m : MessageType) :
    (fulfil (.messaging p m) empty w).1.standing o = w.standing o := by
  have hpay : ((w.setSent p (.ofMessage m)).order o).payment = (w.order o).payment :=
    order_modifyOrder_congr Order.payment w p o _ fun _ => rfl
  have hid : ((w.setSent p (.ofMessage m)).order o).id = (w.order o).id :=
    order_modifyOrder_congr Order.id w p o _ fun _ => rfl
  have h : (w.setSent p (.ofMessage m)).standing o = w.standing o := by
    simp only [standing, informed, idOf, hpay, hid]
    rfl
  exact h

end World

theorem shipped_fulfil (work : Work) (empty : Bool) (w : World) (o : OrderRef) :
    (fulfil work empty w).1.shipped o = (decide (work = .shipping o) || w.shipped o) := by
  rw [World.shipped_eq, World.shipped_eq]
  by_cases hd : work = .drain
  · subst hd
    rw [deeds_fulfil_drain]
    rfl
  by_cases hq : work = .dequeue
  · subst hq
    rw [deeds_fulfil_dequeue]
    cases w.collaborators.head? <;> rfl
  obtain ⟨r, hr⟩ := deeds_fulfil work empty w hd hq
  rw [hr, List.any_cons]
  cases work <;> simp [callOf, Event.isShipmentOf]

/-! ## Quiet actions -/

/-- Messages to the customer, and bookkeeping. -/
def Action.isQuiet : Action → Bool
  | .tell _ _ _ => true
  | .attempt ⟨_, .messaging _ _⟩ _ => true
  | .pause _ => true
  | .serve _ => true
  | .finish _ => true
  | .placed _ => true
  | _ => false

/-- A kind of actions that are not quiet. -/
structure Matter (p : Action → Bool) : Prop where
  quiet : ∀ a, a.isQuiet = true → p a = false
  attempt : ∀ j n m, p (.attempt j n) = p (.attempt j m)

theorem Matter.concern {p : Action → Bool} (hp : Matter p) : Concern p :=
  ⟨fun _ => hp.quiet _ rfl, fun _ => hp.quiet _ rfl, fun _ => hp.quiet _ rfl,
    fun _ => hp.quiet _ rfl, hp.attempt⟩

/-- What is left to do after an action comes to these actions, and quiet ones. -/
def Yields (w v : World) (todo l : List Action) : Prop :=
  ∀ p, Matter p → todo.countP p + v.waiting p = w.waiting p + l.countP p

theorem Yields.of_pending {w v : World} {todo l : List Action} (h : v.pending = w.pending)
    (hl : ∀ p, Matter p → todo.countP p = l.countP p) : Yields w v todo l := by
  intro p hp
  rw [World.waiting_of_pending h, hl p hp, Nat.add_comm]

/-- The service has no failure scripted, neither by itself nor in reply to a call. -/
structure World.Answers (w : World) (sv : Service) (k : CallKind) : Prop where
  faults : w.faults.get sv = []
  replies : ∀ r, (k, r) ∈ w.replies → r.panics = false ∧ r.failure = none

theorem World.Answers.change {s : Setup} {w v : World} {sv : Service} {k : CallKind}
    (h : w.Answers sv k) (hc : Changes s w v) : v.Answers sv k := by
  refine ⟨?_, fun r hr => h.replies r (hc.replies hr)⟩
  have hf := hc.faults sv
  rw [h.faults] at hf
  exact List.suffix_nil.mp hf

section Quiet
variable {s : Setup}

theorem spawn_yields (j : Job) (w : World) (hw : w.Open) :
    ∃ v todo, spawn s j w = .next v todo ∧ (∀ o, v.standing o = w.standing o) ∧
      Yields w v todo [.attempt j 0] := by
  obtain ⟨v, todo, hs, hset, -, hload⟩ := spawn_load (s := s) w j hw
  refine ⟨v, todo, hs, World.standing_of_settings hset, fun p hp => ?_⟩
  have h := hload p hp.concern
  simp only [List.countP_cons, List.countP_nil]
  omega

theorem spawn_quiet (j : Job) (w : World) (hw : w.Open) (hj : (Action.attempt j 0).isQuiet = true) :
    ∃ v todo, spawn s j w = .next v todo ∧ (∀ o, v.standing o = w.standing o) ∧
      Yields w v todo [] := by
  obtain ⟨v, todo, hs, hst, hy⟩ := spawn_yields (s := s) j w hw
  refine ⟨v, todo, hs, hst, fun p hp => ?_⟩
  have h := hy p hp
  simp only [List.countP_cons, List.countP_nil, hp.quiet _ hj] at h ⊢
  exact h

theorem attempt_message_quiet (c : CoordinatorRef) (p : OrderRef) (m : MessageType) (n : UInt32)
    (w : World) (hu : w.Unlocked) (hw : w.Whole s) (hd : w.Answers .messaging .messaging) :
    ∃ v, attempt s ⟨c, .messaging p m⟩ n w = .next v [] ∧ v.pending = w.pending ∧
      ∀ o, v.standing o = w.standing o := by
  have h := attempt_course (s := s) ⟨c, .messaging p m⟩ n w hu hw
  generalize attempt s ⟨c, .messaging p m⟩ n w = x at h
  cases h with
  | fault f rest v hf _ _ _ _ =>
    have hnil : w.faults.get .messaging = f :: rest := hf
    rw [hd.faults] at hnil
    cases hnil
  | skipped _ _ => exact ⟨_, rfl, rfl, fun _ => rfl⟩
  | refused r f v hr hf _ _ _ =>
    rw [(hd.replies r hr).2] at hf
    cases hf
  | panicked r v hr hp _ =>
    rw [(hd.replies r hr).1] at hp
    cases hp
  | accepted r v empty _ _ _ hv hr _ =>
    have hst : ∀ o, (fulfil (.messaging p m) empty v).1.standing o = w.standing o := fun o => by
      rw [World.standing_deliver, World.standing_of_holdings hv]
    have hpend : (fulfil (.messaging p m) empty v).1.pending = w.pending := by
      rw [fulfil_pending, World.pending_of_holdings hv]
    cases hr
    exact ⟨_, rfl, hpend, hst⟩
  | emptied v empty _ _ _ hr _ _ => cases hr

/-- A quiet action leaves the standing of every order alone, and only quiet things to do. -/
theorem perform_quiet (a : Action) (w : World) (hu : w.Unlocked) (hw : w.Whole s) (ho : w.Open)
    (hd : w.Answers .messaging .messaging) (ha : a.isQuiet = true)
    (hserve : ∀ count, a ≠ .serve count) :
    ∃ v todo, perform s a w = .next v todo ∧ (∀ o, v.standing o = w.standing o) ∧
      Yields w v todo [] := by
  cases a with
  | tell c p m =>
    simp only [perform, tell]
    split
    · exact ⟨_, _, rfl, fun _ => rfl, .of_pending rfl fun _ _ => rfl⟩
    · exact spawn_quiet _ w ho rfl
  | attempt j n =>
    obtain ⟨c, work⟩ := j
    cases work with
    | messaging p m =>
      obtain ⟨v, hv, hpend, hst⟩ := attempt_message_quiet (s := s) c p m n w hu hw hd
      exact ⟨v, [], hv, hst, .of_pending hpend fun _ _ => rfl⟩
    | _ => cases ha
  | pause d =>
    simp only [perform, pause]
    refine ⟨_, _, rfl, fun o => ?_, .of_pending ?_ fun p hp => ?_⟩
    · split <;> rfl
    · split <;> rfl
    · split
      · simp only [List.countP_cons, List.countP_nil, hp.quiet (.serve _) rfl, Bool.false_eq_true,
          if_false]
      · rfl
  | serve count => exact absurd rfl (hserve count)
  | finish j =>
    have hf := settings_finished (s := s) j w
    exact ⟨_, _, rfl, World.standing_of_settings hf.1, .of_pending hf.2 fun _ _ => rfl⟩
  | placed o => exact ⟨_, _, rfl, fun _ => rfl, .of_pending rfl fun _ _ => rfl⟩
  | _ => cases ha

end Quiet

/-! ## Moves -/

/-- The service is not made to fail, neither by itself nor in reply to a call. -/
def Move.Spares (sv : Service) (k : CallKind) : Move → Prop
  | .fault sv' _ => sv' ≠ sv
  | .reply k' r => k' = k → r.panics = false ∧ r.failure = none
  | _ => True

/-- Nothing more is asked for, and messaging and the employee handle are not made to fail. -/
def Move.Benign (s : Setup) : Move → Prop
  | .ask _ => False
  | .fault sv _ => sv ≠ .messaging ∧ sv ≠ .employee
  | .reply k r =>
    r.Whole s ∧ (k = .messaging ∨ k = .employee → r.panics = false ∧ r.failure = none)
  | _ => True

theorem Move.Benign.whole {s : Setup} {m : Move} (h : m.Benign s) : m.Whole s := by
  cases m with
  | reply k r => exact h.1
  | _ => trivial

theorem Move.Benign.spares {s : Setup} {m : Move} (h : m.Benign s) :
    m.Spares .messaging .messaging ∧ m.Spares .employee .employee := by
  cases m with
  | fault sv f => exact h
  | reply k r => exact ⟨fun hk => h.2 (.inl hk), fun hk => h.2 (.inr hk)⟩
  | _ => exact ⟨trivial, trivial⟩

namespace System

/-- Whole attempts, no job turned away, and no failure of messaging or the employee handle. -/
structure Calm (s : Setup) (σ : System) : Prop where
  orderly : σ.Orderly s
  isOpen : σ.world.Open
  delivers : σ.world.Answers .messaging .messaging
  parks : σ.world.Answers .employee .employee

section Moves
variable {s : Setup} {σ τ : System} {m : Move}

theorem Orderly.answers_move {sv : Service} {k : CallKind} (h : σ.Orderly s)
    (hτ : σ.move? s m = some τ) (hm : m.Spares sv k) (ha : σ.world.Answers sv k) :
    τ.world.Answers sv k := by
  obtain ⟨pending, hc⟩ | ⟨sv', f, rfl, hw⟩ | ⟨k', r, rfl, hw⟩ := h.move_changes hτ
  · have hp : World.Answers { σ.world with pending } sv k := ⟨ha.faults, ha.replies⟩
    exact hp.change hc
  · have hpush : (σ.world.faults.push sv' f).get sv = σ.world.faults.get sv := by
      cases sv' <;> cases sv <;> first | rfl | exact absurd rfl hm
    rw [hw]
    exact ⟨hpush.trans ha.faults, ha.replies⟩
  · rw [hw]
    refine ⟨ha.faults, fun r' hr => ?_⟩
    obtain hr | hr := List.mem_append.mp hr
    · exact ha.replies r' hr
    · cases List.mem_singleton.mp hr
      exact hm rfl

theorem Calm.move (h : σ.Calm s) (hm : m.Benign s) (hτ : σ.move? s m = some τ) : τ.Calm s :=
  ⟨(h.orderly.move hm.whole hτ).2, h.orderly.open_move hτ h.isOpen,
    h.orderly.answers_move hτ hm.spares.1 h.delivers,
    h.orderly.answers_move hτ hm.spares.2 h.parks⟩

/-- No order's standing changes, nor how much of anything but quiet things there is to do. -/
def Rests (σ τ : System) : Prop :=
  (∀ o, τ.world.standing o = σ.world.standing o) ∧ ∀ p, Matter p → τ.load p = σ.load p

/-- The action that a move performs, if it is the step of a thread. -/
def performed? (σ : System) : Move → Option Action
  | .act i => σ.threads[i]?.bind List.head?
  | _ => none

/-- A thread performs an action that is not quiet. -/
structure ActsLoudly (s : Setup) (σ τ : System) (m : Move) (a : Action) : Prop where
  loud : a.isQuiet = false
  performed : σ.performed? m = some a
  step : ∃ i rest r, σ.threads[i]? = some (a :: rest) ∧ Run.StepCases s σ.world a rest r ∧
    τ = ⟨r.world, σ.threads.set i r.agenda⟩

theorem Calm.quiet_or_loud (h : σ.Calm s) (hm : m.Benign s) (hτ : σ.move? s m = some τ) :
    (Rests σ τ ∧ ∀ a, σ.performed? m = some a → a.isQuiet = true) ∨
      ∃ a, ActsLoudly s σ τ m a := by
  cases m with
  | act i =>
    obtain ⟨hi, rfl⟩ | ⟨a, rest, r, hi, hr, rfl⟩ := h.orderly.act_cases hτ
    · refine .inl ⟨⟨fun _ => rfl, fun p _ => ?_⟩, fun a ha => ?_⟩
      · have hset := load_set (p := p) hi σ.world []
        omega
      · simp [performed?, hi] at ha
    · have hperformed : σ.performed? (.act i) = some a := by simp [performed?, hi]
      by_cases ha : a.isQuiet = true
      · have hquiet : ∀ b, σ.performed? (.act i) = some b → b.isQuiet = true := by
          intro b hb
          rw [hperformed] at hb
          cases hb
          exact ha
        refine .inl ⟨?_, hquiet⟩
        cases hr with
        | performed v todo hserve hp hv =>
          obtain ⟨v', todo', hp', hst, hy⟩ := perform_quiet a σ.world h.orderly.unlocked
            h.orderly.replies h.isOpen h.delivers ha hserve
          rw [hp] at hp'
          cases hp'
          refine ⟨hst, fun p hmatter => ?_⟩
          have hset := load_set (p := p) hi v (todo ++ rest)
          have hyield := hy p hmatter
          simp only [List.countP_append, List.countP_cons, List.countP_nil, hmatter.quiet a ha,
            Bool.false_eq_true, if_false] at hset hyield
          show load p ⟨v, σ.threads.set i (todo ++ rest)⟩ = load p σ
          omega
        | unserved count hcount =>
          refine ⟨fun _ => rfl, fun p hmatter => ?_⟩
          have hset := load_set (p := p) hi σ.world rest
          simp only [List.countP_cons, hmatter.quiet a ha, Bool.false_eq_true, if_false] at hset
          show load p ⟨σ.world, σ.threads.set i rest⟩ = load p σ
          omega
        | served n v todo hserve hs =>
          obtain ⟨j, -, -, -, hset, -⟩ := startAt_cases 0 σ.world v todo hs
          refine ⟨World.standing_of_settings (hset h.isOpen), fun p hmatter => ?_⟩
          have hset := load_set (p := p) hi v (todo ++ .serve n :: rest)
          have hload := startAt_load hmatter.concern 0 σ.world v todo hs
          simp only [List.countP_append, List.countP_cons, hmatter.quiet a ha,
            hmatter.quiet (.serve n) rfl, Bool.false_eq_true, if_false] at hset
          show load p ⟨v, σ.threads.set i (todo ++ .serve n :: rest)⟩ = load p σ
          omega
        | panicked j n v u b more hj hp hv hb hrest hu hpend =>
          subst hj
          obtain ⟨c, work⟩ := j
          cases work with
          | messaging p m =>
            obtain ⟨v', hp', -, -⟩ := attempt_message_quiet (s := s) c p m n σ.world
              h.orderly.unlocked h.orderly.replies h.delivers
            rw [hp] at hp'
            cases hp'
          | _ => cases ha
      · exact .inr ⟨a, by simpa using ha, hperformed, i, rest, r, hi, hr, rfl⟩
  | start i =>
    obtain ⟨w, todo, hs, rfl⟩ := start?_eq_some hτ
    obtain ⟨j, -, -, -, hset, -⟩ := startAt_cases i σ.world w todo hs
    refine .inl ⟨⟨World.standing_of_settings (hset h.isOpen), fun p hmatter => ?_⟩,
      fun _ ha => by cases ha⟩
    have hload := startAt_load hmatter.concern i σ.world w todo hs
    simp only [load, List.flatten_append, List.countP_append, List.flatten_cons, List.flatten_nil,
      List.append_nil]
    omega
  | ask q => exact hm.elim
  | pass d =>
    cases hτ
    exact .inl ⟨⟨fun _ => rfl, fun _ _ => rfl⟩, fun _ ha => by cases ha⟩
  | fault sv f =>
    cases hτ
    exact .inl ⟨⟨fun _ => rfl, fun _ _ => rfl⟩, fun _ ha => by cases ha⟩
  | reply k r =>
    cases hτ
    exact .inl ⟨⟨fun _ => rfl, fun _ _ => rfl⟩, fun _ ha => by cases ha⟩

/-- The action comes to these, and to quiet ones. -/
def Turns (σ τ : System) (a : Action) (l : List Action) : Prop :=
  ∀ p, Matter p → τ.load p + (if p a then 1 else 0) = σ.load p + l.countP p

theorem Turns.spends {a : Action} {l : List Action} {p : Action → Bool} (h : Turns σ τ a l)
    (hp : Matter p) (ha : p a = true) (hl : ∀ b ∈ l, p b = true) :
    τ.load p + 1 = σ.load p + l.length := by
  have ht := h p hp
  rw [List.countP_eq_length.mpr hl, if_pos ha] at ht
  exact ht

theorem Turns.gains {a : Action} {l : List Action} {p : Action → Bool} (h : Turns σ τ a l)
    (hp : Matter p) (ha : p a = false) (hl : ∀ b ∈ l, p b = true) :
    τ.load p = σ.load p + l.length := by
  have ht := h p hp
  rw [List.countP_eq_length.mpr hl, ha] at ht
  exact ht

/-- What a loud action does is what performing it does; other actions are not lost by it. -/
theorem ActsLoudly.outcome {a : Action} (h : ActsLoudly s σ τ m a) :
    ∃ v todo, (perform s a σ.world).ComesTo v todo ∧
      τ.world.settings = v.settings ∧ Changes s σ.world v ∧
      (∀ l, Yields σ.world v todo l → Turns σ τ a l) ∧
      ∀ p, Matter p → σ.load p ≤ τ.load p + if p a then 1 else 0 := by
  obtain ⟨i, rest, r, hi, hr, rfl⟩ := h.step
  cases hr with
  | performed v todo hserve hp hv =>
    have hset (p : Action → Bool) := load_set (p := p) hi v (todo ++ rest)
    refine ⟨v, todo, .inl hp, rfl, hv, fun l hl p hmatter => ?_, fun p hmatter => ?_⟩
    · have hp := hset p
      have hy := hl p hmatter
      simp only [List.countP_append, List.countP_cons] at hp
      show load p ⟨v, σ.threads.set i (todo ++ rest)⟩ + _ = _
      omega
    · have hp := hset p
      have hmono := World.waiting_mono hv.jobs p
      simp only [List.countP_append, List.countP_cons] at hp
      show _ ≤ load p ⟨v, σ.threads.set i (todo ++ rest)⟩ + _
      omega
  | unserved count ha =>
    rw [ha] at h
    cases h.loud
  | served n v todo ha hs =>
    rw [ha] at h
    cases h.loud
  | panicked j n v u b more ha hp hv hb hrest hu hpend =>
    subst ha hrest
    have hset (p : Action → Bool) := load_set (p := p) hi u more
    refine ⟨v, [], .inr ⟨hp, rfl⟩, hu, hv, fun l hl p hmatter => ?_, fun p hmatter => ?_⟩
    · have hp := hset p
      have hy := hl p hmatter
      simp only [List.countP_cons, List.countP_nil, hmatter.concern.of_end hb,
        World.waiting_of_pending hpend, Bool.false_eq_true, if_false] at hp hy
      show load p ⟨u, σ.threads.set i more⟩ + _ = _
      omega
    · have hp := hset p
      have hmono := World.waiting_mono hv.jobs p
      simp only [List.countP_cons, hmatter.concern.of_end hb, World.waiting_of_pending hpend,
        Bool.false_eq_true, if_false] at hp
      show _ ≤ load p ⟨u, σ.threads.set i more⟩ + _
      omega

end Moves
end System
end Fulfilment
