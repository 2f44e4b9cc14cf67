import Fulfilment.Proofs.Stage.Change

/-! What the actions of a run cost at most, if jobs run on the spot and the collaborators answer for
themselves.

* `Action.weight`: more than what the action leaves to do weighs, unless it meets a failure, puts a
  task into the queue or goes on with the drain loop.
* `Stock.reserve`: what pays for these three: the failures that are left, and the time that the
  queued tasks may still stay in play.
* `Outcome.Yields`: the clock, the failures and the queue after an action, and a bound on the weight
  of what is left to do; one lemma for each function an action is made of. -/
namespace Fulfilment

set_option autoImplicit false

/-! ## Weights -/

/-- How long the drain loop may still keep the task, in nanoseconds, and one more until the task is
removed; a task that was not visited yet counts one more. -/
def Task.playtime (limit : Span) (now : Instant) (t : Task) : Nat :=
  match t.firstAttempt with
  | none => limit + 2
  | some first => (first + limit - now).toNat + 1

/-- What the task pays for. A round of the drain loop that attempts its stage again costs eleven: four
steps, six for the stage and one for the end of the job; and it takes a nanosecond of the task's
time at least, if pauses do. -/
def Task.stake (limit : Span) (now : Instant) (t : Task) : Nat := 11 * t.playtime limit now

/-- What a failure can lead to weighs no more. -/
def reliefOf (limit : Span) : Nat := 11 * (limit + 2) + 24

/-- More than what an accepted call leaves to do weighs; a task that is added brings its stake. -/
def Work.weight (limit : Span) : Work → Nat
  | .shipping _ => 7
  | .payment _ => 4
  | .messaging _ _ => 1
  | .escalation _ => 1
  | .add t => t.stake limit 0 + 15
  | .drain => 12
  | .dequeue => 1

/-- More than what the action leaves to do weighs, except after a visit of the drain loop: there are
five for a round that finds nothing, and any other round is paid for by a task or a failure. -/
def Action.weight (limit : Span) : Action → Nat
  | .place _ _ => 9
  | .pay _ _ => 6
  | .tell _ _ _ => 3
  | .escalate _ _ => 3
  | .enqueue _ t => t.stake limit 0 + 17
  | .deferPayment _ _ => 11 * (limit + 2) + 21
  | .escalateTask _ _ _ => 4
  | .drain _ => 14
  | .dequeue _ => 3
  | .settleDrain _ => 5
  | .attempt j _ => j.work.weight limit
  | _ => 1

def weigh (limit : Span) : List Action → Nat
  | [] => 0
  | a :: todo => a.weight limit + weigh limit todo

section Weights
variable (limit : Span)

theorem Action.weight_pos (a : Action) : 0 < a.weight limit := by
  cases a with
  | attempt j n =>
    simp only [weight, Work.weight]
    split <;> omega
  | _ => exact Nat.succ_pos _

@[simp] theorem weigh_nil : weigh limit [] = 0 := rfl

@[simp] theorem weigh_cons (a : Action) (todo : List Action) :
    weigh limit (a :: todo) = a.weight limit + weigh limit todo := rfl

theorem weigh_append (todo rest : List Action) :
    weigh limit (todo ++ rest) = weigh limit todo + weigh limit rest := by
  induction todo with
  | nil => simp only [List.nil_append, weigh_nil, Nat.zero_add]
  | cons a todo ih => simp only [List.cons_append, weigh_cons, ih, Nat.add_assoc]

end Weights

/-! ## Stock -/

/-- What the length of a run depends on. -/
structure Stock where
  clock : Nat
  faults : FaultScripts
  store : List Task
  queued : List Nat

namespace Stock

def later (st : Stock) (clock : Nat) : Stock := { st with clock }

/-- One failure of the service is used up, and these are left. -/
def met (st : Stock) (sv : Service) (rest : Faults) : Stock :=
  { st with faults := st.faults.set rest sv }

def holding (st : Stock) (store : List Task) (queued : List Nat) : Stock :=
  { st with store, queued }

end Stock

def World.stock (w : World) : Stock := ⟨w.clock, w.faults, w.collaborators.store, w.queued⟩

/-- The stakes of all tasks. -/
def stakes (limit : Span) (now : Instant) : List Task → Nat
  | [] => 0
  | t :: tasks => t.stake limit now + stakes limit now tasks

def Stock.reserve (limit : Span) (st : Stock) : Nat :=
  (reliefOf limit + 12) * st.faults.size + stakes limit st.clock st.store

section Reserve
variable (limit : Nat) {t : Task} {rest : List Task}

theorem Task.stake_pos (now : Instant) (t : Task) : 11 ≤ t.stake limit now := by
  simp only [stake, playtime]
  split <;> omega

/-- Time is taken from a task, never given. -/
theorem Task.stake_anti {now later : Int} (h : now ≤ later) (t : Task) :
    t.stake limit later ≤ t.stake limit now := by
  simp only [stake, playtime]
  split
  · exact Nat.le_refl _
  · omega

theorem stakes_anti {now later : Int} (h : now ≤ later) (tasks : List Task) :
    stakes limit later tasks ≤ stakes limit now tasks := by
  induction tasks with
  | nil => exact Nat.le_refl _
  | cons t tasks ih => exact Nat.add_le_add (t.stake_anti limit h) ih

theorem stakes_concat (now : Instant) (tasks : List Task) (t : Task) :
    stakes limit now (tasks ++ [t]) = stakes limit now tasks + t.stake limit now := by
  induction tasks with
  | nil => simp only [List.nil_append, stakes, Nat.zero_add, Nat.add_zero]
  | cons u tasks ih => simp only [List.cons_append, stakes, ih, Nat.add_assoc]

theorem Task.stake_mark (now : Instant) (h : t.firstAttempt = none) :
    (t.markFirstAttempt now).stake limit now + 11 = t.stake limit now := by
  simp only [stake, playtime, markFirstAttempt, firstVisit, h, Option.getD_none]
  omega

theorem Task.mark_of_visited {first : Instant} (h : t.firstAttempt = some first) (now : Instant) :
    t.markFirstAttempt now = t := by
  obtain ⟨o, type, message, _⟩ := t
  cases h
  rfl

theorem Stock.reserve_later (st : Stock) {clock : Nat} (h : st.clock ≤ clock) :
    (st.later clock).reserve limit ≤ st.reserve limit :=
  Nat.add_le_add_left (stakes_anti limit (Int.ofNat_le.mpr h) st.store) _

theorem FaultScripts.size_set {f : FaultScripts} {sv : Service} {fault : Failure} {rest : Faults}
    (h : f.get sv = fault :: rest) : (f.set rest sv).size + 1 = f.size := by
  cases sv <;>
    (simp only [get] at h; simp only [set, size, h, List.length_cons]; omega)

/-- A failure that is met is used up. It pays for what it leads to, and for the round of the drain
loop that comes to nothing. -/
theorem Stock.reserve_fault (st : Stock) {sv : Service} {fault : Failure} {rest : Faults}
    (h : st.faults.get sv = fault :: rest) :
    (st.met sv rest).reserve limit + reliefOf limit + 12 = st.reserve limit := by
  have hsize := FaultScripts.size_set h
  simp only [reserve, met, ← hsize, Nat.mul_add, Nat.mul_one]
  omega

theorem Stock.reserve_add (st : Stock) (t : Task) (queued : List Nat) :
    (st.holding (st.store ++ [t]) queued).reserve limit ≤
      st.reserve limit + t.stake limit 0 := by
  have hstake := Task.stake_anti limit (Int.natCast_nonneg st.clock) t
  simp only [reserve, holding, stakes_concat]
  omega

theorem Stock.reserve_take (st : Stock) (hs : st.store = t :: rest) (queued : List Nat) :
    (st.holding rest queued).reserve limit + 11 ≤ st.reserve limit := by
  have hstake := Task.stake_pos limit st.clock t
  simp only [reserve, holding, hs, stakes]
  omega

/-- The first visit of a task is taken from its stake. -/
theorem Stock.reserve_first (st : Stock) (hs : st.store = t :: rest)
    (ht : t.firstAttempt = none) (queued : List Nat) :
    (st.holding (t.markFirstAttempt st.clock :: rest) queued).reserve limit + 11 =
      st.reserve limit := by
  have hstake := Task.stake_mark limit st.clock ht
  simp only [reserve, holding, hs, stakes]
  omega

theorem Stock.reserve_visit (st : Stock) (hs : st.store = t :: rest) (queued : List Nat) :
    (st.holding (t.markFirstAttempt st.clock :: rest) queued).reserve limit ≤
      st.reserve limit := by
  cases ht : t.firstAttempt with
  | none =>
    have h := st.reserve_first limit hs ht queued
    omega
  | some first =>
    rw [Task.mark_of_visited ht, ← hs]
    exact Nat.le_refl _

/-- A pause takes its time from the head of the queue, if that stays in play all the while. -/
theorem Stock.reserve_pause (st : Stock) (hs : st.store = t :: rest) {first : Instant}
    (ht : t.firstAttempt = some first) {d : Nat} (hd : 0 < d)
    (hlive : Instant.since ((st.clock + d : Nat) : Int) first < limit) :
    (st.later (st.clock + d)).reserve limit + 11 ≤ st.reserve limit := by
  have hle : st.clock ≤ st.clock + d := Nat.le_add_right ..
  have hrest := stakes_anti limit (Int.ofNat_le.mpr hle) rest
  have hhead : t.stake limit ((st.clock + d : Nat) : Int) + 11 ≤ t.stake limit st.clock := by
    have hleft : (((st.clock + d : Nat) : Int) - first).toNat < limit := hlive
    simp only [Task.stake, Task.playtime, ht]
    omega
  simp only [reserve, later, hs, stakes]
  omega

end Reserve

/-! ## Small changes -/

section Small
variable (w : World)

@[simp] theorem World.stock_remark (r : Remark) : (w.remark r).stock = w.stock := rfl

@[simp] theorem World.stock_showNotice (o : OrderRef) (n : SiteNotice) :
    (w.showNotice o n).stock = w.stock := by
  simp only [showNotice]
  cases (w.order o).notice <;> rfl

@[simp] theorem World.stock_failPending (o : OrderRef) : (failPending o w).1.stock = w.stock := by
  simp only [failPending]
  split <;> rfl

theorem World.stock_fulfil (work : Work) (empty : Bool) :
    (fulfil work empty w).1.stock = w.stock.holding (match work with
      | .add t => w.collaborators.store ++ [t]
      | .dequeue => w.collaborators.store.tail
      | _ => w.collaborators.store) w.queued := by
  simp only [stock, fulfil_clock, fulfil_faults, store_fulfil, fulfil_queued]
  cases work <;> rfl

end Small

/-! ## Actions -/

/-- Everything but the traces of jobs that wait: an action that runs some of them, and the rest of
an attempt that they interrupted. -/
def Action.isPlain : Action → Bool
  | .serve _ => false
  | .conclude _ _ _ => false
  | _ => true

/-- Nobody waits, nobody is turned away, and the collaborators answer for themselves. -/
structure World.Plain (w : World) : Prop where
  clock : w.clock ≤ World.lastClock
  unlocked : w.Unlocked
  replies : w.replies = []
  isOpen : w.Open

theorem World.Plain.whole {s : Setup} {w : World} (h : w.Plain) : w.Whole s :=
  World.whole_of_no_replies h.replies

theorem World.Plain.changes {s : Setup} {w v : World} (h : w.Plain) (hc : Changes s w v) :
    v.Plain where
  clock := (hc.timePasses h.clock).2
  unlocked := hc.unlocked h.unlocked
  replies := hc.no_replies h.replies
  isOpen := hc.isOpen h.isOpen

/-- What a plain action does in a plain world is a number of changes. -/
theorem World.Plain.performed {s : Setup} {w v : World} {a : Action} {todo : List Action}
    (h : w.Plain) (ha : a.isPlain = true) (hp : perform s a w = .next v todo) :
    Changes s w v := by
  have hwhole : a.isWhole = true := by
    cases a with
    | conclude => cases ha
    | _ => rfl
  have hserve : ∀ count, a ≠ .serve count := by
    rintro count rfl
    cases ha
  have hc := perform_changes (s := s) a w h.unlocked h.whole hwhole hserve
  rw [hp] at hc
  exact hc

/-- No panic, no lock taken twice; the stock afterwards, and a bound on the weight of what is left
to do. -/
def Outcome.Yields (limit : Span) (st : Stock) (bound : Nat) : Outcome → Prop
  | .next v todo => v.stock = st ∧ todo.all (·.isPlain) = true ∧ weigh limit todo ≤ bound
  | .panic _ => False
  | .stuck _ => False

theorem Outcome.Yields.mono {limit : Span} {st : Stock} {b c : Nat} {x : Outcome}
    (h : x.Yields limit st b) (hbc : b ≤ c) : x.Yields limit st c := by
  cases x with
  | next v todo => exact ⟨h.1, h.2.1, Nat.le_trans h.2.2 hbc⟩
  | panic v => exact h
  | stuck v => exact h

theorem Outcome.Yields.next {limit : Span} {st : Stock} {b : Nat} {x : Outcome}
    (h : x.Yields limit st b) : ∃ v todo, x = .next v todo ∧ v.stock = st ∧
      todo.all (·.isPlain) = true ∧ weigh limit todo ≤ b := by
  cases x with
  | next v todo => exact ⟨v, todo, rfl, h⟩
  | panic v => exact h.elim
  | stuck v => exact h.elim

/-- The head of the queue is visited: its first visit is noted, and its removal or another attempt of
its stage is left to do before the loop goes on; the removal if its time is over. -/
def Outcome.Visits (s : Setup) (limit : Span) (c : CoordinatorRef) (w : World) (t : Task)
    (rest : List Task) (x : Outcome) : Prop :=
  ∃ v b, x = .next v [b, .settleDrain c] ∧
    v.stock = w.stock.holding (t.markFirstAttempt w.now :: rest) w.queued ∧
    b.isPlain = true ∧ b.weight limit ≤ 6 ∧
    (s.config.limits.queueTask ≤ w.now.since (t.firstVisit w.now) → b = .dequeue c)

section Yields
variable {s : Setup} (limit : Span) {w : World}

theorem spawn_starts (hs : s.dispatch = .inline) (hw : w.Plain) (j : Job) :
    ∃ v, spawn s j w = .next v [.attempt j 0, .finish j] ∧ v.stock = w.stock := by
  exact ⟨_, spawn_inline hs hw.isOpen j, rfl⟩

/-! ### Failures -/

theorem failPayment_keeps (hu : w.Unlocked) (o : OrderRef) :
    ∃ v changed, failPayment s o w = some (v, changed) ∧ v.stock = w.stock :=
  ⟨_, _, failPayment_eq s o w hu, w.stock_failPending o⟩

theorem paymentFailed_yields (c : CoordinatorRef) (o : OrderRef) (f : Failure)
    (hu : w.Unlocked) : (paymentFailed s c o f w).Yields limit w.stock (reliefOf limit) := by
  simp only [paymentFailed, reliefOf]
  split
  · obtain ⟨v, changed, hv, hstock⟩ :=
      failPayment_keeps (s := s) (hu.showNotice o .paymentDetailsInvalid) o
    rw [World.stock_showNotice] at hstock
    rw [hv]
    cases changed with
    | false => exact ⟨hstock, rfl, Nat.zero_le _⟩
    | true => exact ⟨hstock, rfl, by simp [Action.weight]⟩
  · split
    · refine ⟨World.stock_showNotice .., rfl, ?_⟩
      simp only [weigh_cons, weigh_nil, Action.weight]
      omega
    · exact ⟨rfl, rfl, by simp [Action.weight]⟩

theorem addFailed_yields (c : CoordinatorRef) (t : Task) (f : Failure) (hu : w.Unlocked) :
    (addFailed s c t f w).Yields limit w.stock (reliefOf limit) := by
  simp only [addFailed, reliefOf]
  split
  · obtain ⟨v, changed, hv, hstock⟩ := failPayment_keeps (s := s) hu t.order
    rw [hv]
    cases changed with
    | false => exact ⟨hstock, rfl, by simp [Action.weight]⟩
    | true => exact ⟨hstock, rfl, by simp [Action.weight]⟩
  · exact ⟨rfl, rfl, by simp [Action.weight]⟩

theorem handOver_yields (j : Job) (f : Failure) (hu : w.Unlocked) :
    (handOver s j f w).Yields limit w.stock (reliefOf limit) := by
  simp only [handOver]
  cases j.work with
  | shipping o =>
    simp only [shippingFailed, reliefOf]
    cases f.kind <;> exact ⟨World.stock_showNotice .., rfl, by simp [Action.weight]⟩
  | payment o => exact paymentFailed_yields limit j.owner o f hu
  | messaging o m =>
    simp only [messagingFailed, reliefOf]
    split
    · exact ⟨rfl, rfl, by simp [Action.weight, Task.stake, Task.playtime, Task.messaging]⟩
    · exact ⟨rfl, rfl, Nat.zero_le _⟩
  | escalation o =>
    simp only [escalationFailed, reliefOf]
    split
    · exact ⟨rfl, rfl, by simp [Action.weight, Task.stake, Task.playtime, Task.employeeDb]⟩
    · exact ⟨rfl, rfl, Nat.zero_le _⟩
  | add t => exact addFailed_yields limit j.owner t f hu
  | drain | dequeue => exact ⟨rfl, rfl, Nat.zero_le _⟩

/-- A failure is repeated after a pause or handed over. -/
theorem failed_yields (j : Job) (n : UInt32) (f : Failure) (hu : w.Unlocked) :
    (failed s j n f w).Yields limit w.stock (j.work.weight limit + reliefOf limit) := by
  simp only [failed]
  split
  · refine ⟨rfl, rfl, ?_⟩
    simp only [weigh_cons, weigh_nil, Action.weight, reliefOf]
    omega
  · exact (handOver_yields limit j f hu).mono (Nat.le_add_left ..)

theorem attempt_met {j : Job} {f : Failure} {rest : Faults} (n : UInt32) (hw : w.Plain)
    (hf : w.faults.get j.work.service = f :: rest) :
    (attempt s j n w).Yields limit (w.stock.met j.work.service rest)
      (j.work.weight limit + reliefOf limit) := by
  have hpop : w.popFault j.work.service =
      (some f, { w with faults := w.faults.set rest j.work.service }) := by
    simp only [World.popFault, FaultScripts.pop, hf]
  rw [attempt_eq s j n w hw.unlocked, hpop]
  exact failed_yields limit j n f (hw.unlocked.of_orders rfl)

/-! ### Calls -/

/-- An attempt that meets no failure asks the collaborator, if there is anything to ask for. -/
theorem attempt_clear {j : Job} (n : UInt32) (hw : w.Plain)
    (hf : w.faults.get j.work.service = []) :
    attempt s j n w =
      if needed j w then
        settle s j n (fulfil j.work false (w.record (.called (callOf j.work w)))).2
          (fulfil j.work false (w.record (.called (callOf j.work w)))).1
      else skipped j w := by
  have hpop : w.popFault j.work.service = (none, w) := by
    simp only [World.popFault, FaultScripts.pop, hf]
  have hcalled : called j w = ({}, w.record (.called (callOf j.work w))) := by
    have hnone : (w.record (.called (callOf j.work w))).replies = [] := hw.replies
    have hsame := (w.record (.called (callOf j.work w))).advance_zero hw.clock
    simp only [called, World.takeReply, hnone, List.find?_nil, hsame]
  rw [attempt_eq s j n w hw.unlocked, hpop, checkAndCall_eq j w hw.whole, hcalled]
  simp only [apply_ite Prod.fst, apply_ite Prod.snd]
  split <;> rfl

/-! ### The queue -/

/-- The action after a visit weighs no more than the attempt of a payment. -/
theorem weight_retry (c : CoordinatorRef) (t : Task) :
    (t.retry c).isPlain = true ∧ (t.retry c).weight limit ≤ 6 := by
  simp only [Task.retry]
  split <;> exact ⟨rfl, by simp [Action.weight]⟩

theorem visit_yields (c : CoordinatorRef) (t : Task) (rest : List Task)
    (hs : w.collaborators.store = t :: rest) :
    (visit s c t w).Visits s limit c w t rest := by
  have hmark : (w.collaborators.markHead w.now).store = t.markFirstAttempt w.now :: rest := by
    simp only [Collaborators.markHead, hs]
  have hstock : (w.visited t).stock =
      w.stock.holding (t.markFirstAttempt w.now :: rest) w.queued := by
    simp only [World.stock, World.visited, hmark]
    rfl
  obtain ⟨r, -, -, hv⟩ | ⟨r, -, hf, hv⟩ := visit_cases (s := s) c t w
  · exact ⟨_, _, hv, hstock, rfl, by simp [Action.weight], fun _ => rfl⟩
  · obtain ⟨hplain, hweight⟩ := weight_retry limit c t
    exact ⟨_, _, hv, hstock, hplain, hweight, fun htime => absurd (.inr ⟨_, rfl, htime⟩) hf⟩

/-- A look at the queue visits its head, if there is one. -/
theorem look_cases (c : CoordinatorRef) (n : UInt32) (hw : w.Plain)
    (hf : w.faults.get .queue = []) (hc : w.queuedItems c ≠ 0) :
    (attempt s ⟨c, .drain⟩ n w).Yields limit w.stock 0 ∨
      ∃ t rest, w.collaborators.store = t :: rest ∧
        (attempt s ⟨c, .drain⟩ n w).Visits s limit c w t rest := by
  have hneeded : needed ⟨c, .drain⟩ w = true := by
    simpa [needed] using Nat.pos_of_ne_zero hc
  rw [attempt_clear (j := ⟨c, .drain⟩) n hw hf, if_pos hneeded]
  cases hs : w.collaborators.store with
  | nil =>
    refine .inl ?_
    have hhead : (w.record (.called .peek)).collaborators.head? = none := by
      show w.collaborators.store.head? = none
      rw [hs]
      rfl
    simp only [callOf, fulfil, hhead, Bool.false_eq_true, if_false, settle, failed]
    exact ⟨rfl, rfl, Nat.zero_le _⟩
  | cons t rest =>
    refine .inr ?_
    have hhead : (w.record (.called .peek)).collaborators.head? = some t := by
      show w.collaborators.store.head? = some t
      rw [hs]
      rfl
    simp only [callOf, fulfil, hhead, Bool.false_eq_true, if_false, settle, succeeded]
    exact ⟨t, rest, rfl, visit_yields limit
      (w := ((w.record (.called .peek)).accept .peek (.head (some t))).1) c t rest hs⟩

/-- A removal takes the head of the queue, if there is one. -/
theorem removal_cases (c : CoordinatorRef) (n : UInt32) (hw : w.Plain)
    (hf : w.faults.get .queue = []) :
    (w.collaborators.store = [] ∧ (attempt s ⟨c, .dequeue⟩ n w).Yields limit w.stock 0) ∨
      ∃ t rest, w.collaborators.store = t :: rest ∧
        (attempt s ⟨c, .dequeue⟩ n w).Yields limit
          (w.stock.holding rest (w.queued.modify c (· - 1))) 0 := by
  have hneeded : needed ⟨c, .dequeue⟩ w = true := rfl
  rw [attempt_clear (j := ⟨c, .dequeue⟩) n hw hf, if_pos hneeded]
  cases hs : w.collaborators.store with
  | nil =>
    refine .inl ⟨rfl, ?_⟩
    have htake : (w.record (.called .dequeue)).collaborators.take? = none := by
      simp only [Collaborators.take?, World.record, hs]
    simp only [callOf, fulfil, htake, settle, World.refuse, failed]
    exact ⟨rfl, rfl, Nat.zero_le _⟩
  | cons t rest =>
    refine .inr ⟨t, rest, rfl, ?_⟩
    have htake : (w.record (.called .dequeue)).collaborators.take? =
        some (t, { w.collaborators with store := rest }) := by
      simp only [Collaborators.take?, World.record, hs]
    simp only [callOf, fulfil, htake, settle, World.accept, succeeded]
    exact ⟨rfl, rfl, Nat.zero_le _⟩

/-! ### Attempts -/

/-- An attempt pays for what it leaves to do. -/
theorem attempt_yields (j : Job) (n : UInt32) (hw : w.Plain) :
    ∃ st b, (attempt s j n w).Yields limit st b ∧
      st.reserve limit + b < w.stock.reserve limit + j.work.weight limit := by
  cases hf : w.faults.get j.work.service with
  | cons f rest =>
    have hreserve := Stock.reserve_fault limit w.stock hf
    exact ⟨_, _, attempt_met limit n hw hf, by omega⟩
  | nil =>
    obtain ⟨c, work⟩ := j
    have same {x : Outcome} {b : Nat} (h : x.Yields limit w.stock b)
        (hb : b < work.weight limit) : ∃ st b, x.Yields limit st b ∧
          st.reserve limit + b < w.stock.reserve limit + work.weight limit :=
      ⟨_, _, h, by omega⟩
    cases work with
    | shipping o =>
      have hneeded : needed ⟨c, .shipping o⟩ w = true := rfl
      rw [attempt_clear n hw hf, if_pos hneeded]
      exact same (b := 6) ⟨rfl, rfl, by simp [Action.weight]⟩ (by simp [Work.weight])
    | payment o =>
      rw [attempt_clear n hw hf]
      split
      · exact same (b := 3) ⟨World.stock_showNotice .., rfl, by simp [Action.weight]⟩
          (by simp [Work.weight])
      · exact same (b := 0) ⟨rfl, rfl, Nat.zero_le _⟩ (by simp [Work.weight])
    | messaging o m =>
      rw [attempt_clear n hw hf]
      split
      · exact same (b := 0) ⟨rfl, rfl, Nat.zero_le _⟩ (by simp [Work.weight])
      · exact same (b := 0) ⟨rfl, rfl, Nat.zero_le _⟩ (by simp [Work.weight])
    | escalation o =>
      rw [attempt_clear n hw hf]
      split
      · exact same (b := 0) ⟨World.stock_fulfil .., rfl, Nat.zero_le _⟩ (by simp [Work.weight])
      · exact same (b := 0) ⟨rfl, rfl, Nat.zero_le _⟩ (by simp [Work.weight])
    | add t =>
      have hneeded : needed ⟨c, .add t⟩ w = true := rfl
      rw [attempt_clear n hw hf, if_pos hneeded]
      have hreserve := w.stock.reserve_add limit t (w.queued.modify c (· + 1))
      refine ⟨_, 14, ⟨rfl, rfl, by simp [Action.weight]⟩, ?_⟩
      simp only [Work.weight]
      exact Nat.lt_of_le_of_lt (Nat.add_le_add_right hreserve 14) (by omega)
    | drain =>
      by_cases hc : w.queuedItems c = 0
      · have hneeded : needed ⟨c, .drain⟩ w = false := by simp [needed, hc]
        rw [attempt_clear n hw hf, hneeded]
        exact same (b := 5) ⟨rfl, rfl, by simp [Action.weight]⟩ (by simp [Work.weight])
      · obtain h | ⟨t, rest, hs, v, b, hv, hstock, hplain, hb, -⟩ :=
          look_cases (s := s) limit c n hw hf hc
        · exact same h (by simp [Work.weight])
        · have hreserve := w.stock.reserve_visit limit hs w.queued
          rw [hv]
          refine ⟨_, 11, ⟨hstock, ?_, ?_⟩, ?_⟩
          · simp only [List.all_cons, hplain]
            rfl
          · exact Nat.add_le_add hb (Nat.le_refl 5)
          · simp only [Work.weight]
            exact Nat.add_lt_add_of_le_of_lt hreserve (by decide)
    | dequeue =>
      obtain ⟨-, h⟩ | ⟨t, rest, hs, h⟩ := removal_cases (s := s) limit c n hw hf
      · exact same h (by simp [Work.weight])
      · have hreserve := w.stock.reserve_take limit hs (w.queued.modify c (· - 1))
        exact ⟨_, _, h, by omega⟩

/-! ### All actions -/

theorem pause_passes (hs : s.dispatch = .inline) (hw : w.Plain) (d : Span) :
    ∃ v, perform s (.pause d) w = .next v [] ∧ v.stock = w.stock.later v.clock ∧
      w.clock ≤ v.clock := by
  have hforward : w.clock ≤ (w.advance d).clock :=
    (w.timePasses_advance (Int.natCast_nonneg d) hw.clock).1
  simp only [perform, pause, hs, reduceCtorEq, false_and, if_false]
  cases s.sleepsPass with
  | true => exact ⟨_, rfl, rfl, hforward⟩
  | false => exact ⟨_, rfl, rfl, Nat.le_refl _⟩

/-- Whoever spawns a job pays for it. -/
theorem spawn_pays (hs : s.dispatch = .inline) (hw : w.Plain) (j : Job) {a : Action}
    (ha : a.weight limit = j.work.weight limit + 2) :
    ∃ st b, (spawn s j w).Yields limit st b ∧
      st.reserve limit + b < w.stock.reserve limit + a.weight limit := by
  obtain ⟨v, hv, hstock⟩ := spawn_starts hs hw j
  rw [hv]
  exact ⟨_, j.work.weight limit + 1, ⟨hstock, rfl, Nat.le_refl _⟩, by omega⟩

/-- Every action but the one that goes on with the drain loop pays for what it leaves to do. -/
theorem perform_yields (hs : s.dispatch = .inline) (hw : w.Plain) (a : Action)
    (ha : a.isPlain = true) (hsettle : ∀ c, a ≠ .settleDrain c) :
    ∃ st b, (perform s a w).Yields limit st b ∧
      st.reserve limit + b < w.stock.reserve limit + a.weight limit := by
  have leaves (v : World) (todo : List Action) (hv : v.stock = w.stock)
      (hplain : todo.all (·.isPlain) = true) (hb : weigh limit todo < a.weight limit) :
      ∃ st b, (Outcome.next v todo).Yields limit st b ∧
        st.reserve limit + b < w.stock.reserve limit + a.weight limit :=
    ⟨_, _, ⟨hv, hplain, Nat.le_refl _⟩, Nat.add_lt_add_left hb _⟩
  have ends (v : World) (hv : v.stock = w.stock) :=
    leaves v [] hv rfl (a.weight_pos limit)
  cases a with
  | place c o => exact leaves _ _ rfl rfl (Nat.lt_succ_self _)
  | pay c o =>
    simp only [perform, pay]
    split
    · obtain ⟨v, changed, hv, hstock⟩ := failPayment_keeps (s := s) hw.unlocked o
      rw [hv]
      cases changed with
      | false => exact ends _ hstock
      | true => exact leaves _ _ hstock rfl (by simp [Action.weight])
    · exact spawn_pays limit hs hw _ rfl
  | tell c o m =>
    simp only [perform, tell]
    split
    · exact ends _ rfl
    · exact spawn_pays limit hs hw _ rfl
  | escalate c o =>
    simp only [perform, escalate]
    split
    · exact ends _ rfl
    · exact spawn_pays limit hs hw _ rfl
  | enqueue c t =>
    simp only [perform, enqueue]
    split
    · exact ends _ rfl
    · split
      · exact ends _ rfl
      · split
        · exact spawn_pays limit hs hw _ rfl
        · exact ends _ rfl
  | deferPayment c o =>
    simp only [perform, deferPayment]
    split
    · exact leaves _ _ rfl rfl (Nat.lt_succ_self _)
    · exact ends _ rfl
  | escalateTask c t f => exact leaves _ _ rfl rfl (Nat.lt_succ_self _)
  | drain c | dequeue c =>
    simp only [perform]
    split
    · exact spawn_pays limit hs hw _ rfl
    · exact ends _ rfl
  | settleDrain c => exact absurd rfl (hsettle c)
  | attempt j n => exact attempt_yields limit j n hw
  | conclude | serve => cases ha
  | pause d =>
    obtain ⟨v, hv, hstock, hforward⟩ := pause_passes hs hw d
    have hreserve := w.stock.reserve_later limit hforward
    rw [hv]
    exact ⟨_, 0, ⟨hstock, rfl, Nat.le_refl _⟩, Nat.lt_succ_of_le hreserve⟩
  | finish j =>
    simp only [perform, finished, hs]
    exact ends _ rfl
  | placed o => exact ends _ rfl

end Yields

end Fulfilment
