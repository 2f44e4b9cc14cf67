import Mathlib.Logic.Relation
import Fulfilment.Proofs.Stage.Lock

/-! What performing an action can do to a world, said once.

* `Change s w v`: one change to the orders, to what the collaborators hold or to the deeds, each
  with the check that stands before it.
* `Task.Finished s w t`: nothing is left to do for a queued task, or its time in the queue is over.
* `perform_changes`: an action performed as a whole is a sequence of such changes, so whatever every
  change preserves holds along every run. -/
namespace Fulfilment

set_option autoImplicit false

/-! ## Finished tasks -/

/-- The stage of the task is settled, or the task was first visited long enough ago. -/
def Task.Finished (s : Setup) (w : World) (t : Task) : Prop :=
  t.isSettled (w.order t.order) = true ∨
    ∃ first, t.firstAttempt = some first ∧ s.config.limits.queueTask ≤ w.now.since first

/-! ## Changes -/

/-- The clock of a world that it has not passed yet goes forward. -/
def World.TimePasses (w v : World) : Prop :=
  w.clock ≤ World.lastClock → w.clock ≤ v.clock ∧ v.clock ≤ World.lastClock

theorem World.TimePasses.of_eq {w v : World} (h : v.clock = w.clock) : w.TimePasses v := by
  intro hw
  rw [h]
  exact ⟨Nat.le_refl _, hw⟩

theorem World.TimePasses.trans {u v w : World} (h : u.TimePasses v) (k : v.TimePasses w) :
    u.TimePasses w := by
  intro hu
  have hv := h hu
  have hw := k hv.2
  exact ⟨Nat.le_trans hv.1 hw.1, hw.2⟩

theorem World.timePasses_advance (w : World) {d : Int} (hd : 0 ≤ d) :
    w.TimePasses (w.advance d) := by
  intro hw
  simp only [advance]
  omega

/-- Any number of jobs may run, and the pool takes them. -/
def World.Open (w : World) : Prop := w.allowance = none ∧ w.closed = false

/-- Nothing happens to orders and collaborators. -/
structure World.Aside (w v : World) : Prop where
  orders : v.orders = w.orders
  collaborators : v.collaborators = w.collaborators
  deeds : v.deeds = w.deeds
  replies : v.replies ⊆ w.replies
  faults : ∀ sv, v.faults.get sv <:+ w.faults.get sv
  jobs : w.pending <+: v.pending
  isOpen : w.Open → v.Open
  time : w.TimePasses v

/-- One change, after the check that stands before it. -/
inductive Change (s : Setup) : World → World → Prop
  /-- Clock, scripts, draws, counters, further jobs and log. -/
  | aside {w v : World} (h : w.Aside v) : Change s w v
  | notice (w : World) (o : OrderRef) (n : SiteNotice) (h : (w.order o).notice = none) :
      Change s w (w.modifyOrder o (·.recordNotice n))
  | failed (w : World) (o : OrderRef) (h : (w.order o).payment = .trying) :
      Change s w (w.setPayment o .notDone)
  | fulfilled (w : World) (j : Job) (empty : Bool) (h : needed j w = true) :
      Change s w (fulfil j.work empty w).1
  | crashed (w : World) (c : Call) : Change s w (w.record (.panicked c))
  | visited (w : World) :
      Change s w { w with collaborators := w.collaborators.markHead w.now }
  | dropped (w : World) (t : Task) (r : Remark) (ht : w.collaborators.head? = some t)
      (hv : t.firstAttempt.isSome = true) (hf : t.Finished s w) (hr : r.isDropping = true) :
      Change s w (w.remark r)

/-- Any number of changes. -/
abbrev Changes (s : Setup) : World → World → Prop := Relation.ReflTransGen (Change s)

/-- Every action but the rest of an interrupted attempt. -/
def Action.isWhole : Action → Bool
  | .conclude _ _ _ => false
  | _ => true

/-- No lock is taken twice, and the world after the action has the property. -/
def Outcome.Leaves (P : World → Prop) : Outcome → Prop
  | .next w _ => P w
  | .panic w => P w
  | .stuck _ => False

theorem Outcome.Leaves.mono {P Q : World → Prop} {x : Outcome} (h : x.Leaves P)
    (hPQ : ∀ w, P w → Q w) : x.Leaves Q := by
  cases x with
  | next w _ => exact hPQ w h
  | panic w => exact hPQ w h
  | stuck w => exact h

/-- The world after an outcome and what is left to do; nothing is after a panic. -/
def Outcome.ComesTo (x : Outcome) (v : World) (todo : List Action) : Prop :=
  x = .next v todo ∨ (x = .panic v ∧ todo = [])

theorem Outcome.ComesTo.unique {x : Outcome} {v v' : World} {todo todo' : List Action}
    (h : x.ComesTo v todo) (h' : x.ComesTo v' todo') : v' = v ∧ todo' = todo := by
  obtain h | ⟨h, ht⟩ := h
  · obtain h' | ⟨h', -⟩ := h'
    · rw [h] at h'
      cases h'
      exact ⟨rfl, rfl⟩
    · rw [h] at h'
      cases h'
  · obtain h' | ⟨h', ht'⟩ := h'
    · rw [h] at h'
      cases h'
    · rw [h] at h'
      cases h'
      exact ⟨rfl, by rw [ht, ht']⟩

/-! ## What every change keeps -/

theorem Change.timePasses {s : Setup} {w v : World} (h : Change s w v) : w.TimePasses v := by
  cases h with
  | aside h => exact h.time
  | notice | failed | crashed | visited | dropped => exact .of_eq rfl
  | fulfilled j empty _ => exact .of_eq (fulfil_clock j.work empty w)

theorem Change.replies {s : Setup} {w v : World} (h : Change s w v) : v.replies ⊆ w.replies := by
  cases h with
  | aside h => exact h.replies
  | notice | failed | crashed | visited | dropped => exact List.Subset.refl _
  | fulfilled j empty _ =>
    intro e he
    rw [fulfil_replies] at he
    exact he

theorem Change.faults {s : Setup} {w v : World} (h : Change s w v) (sv : Service) :
    v.faults.get sv <:+ w.faults.get sv := by
  cases h with
  | aside h => exact h.faults sv
  | notice | failed | crashed | visited | dropped => exact List.suffix_rfl
  | fulfilled j empty _ =>
    simp only [fulfil_faults, List.suffix_refl]

theorem Change.jobs {s : Setup} {w v : World} (h : Change s w v) : w.pending <+: v.pending := by
  cases h with
  | aside h => exact h.jobs
  | notice | failed | crashed | visited | dropped => exact List.prefix_rfl
  | fulfilled j empty _ =>
    simp only [fulfil_pending, List.prefix_refl]

theorem Change.isOpen {s : Setup} {w v : World} (h : Change s w v) (hw : w.Open) : v.Open := by
  cases h with
  | aside h => exact h.isOpen hw
  | notice | failed | crashed | visited | dropped => exact hw
  | fulfilled j empty _ => exact ⟨by rw [fulfil_allowance, hw.1], by rw [fulfil_closed, hw.2]⟩

theorem Change.unlocked {s : Setup} {w v : World} (h : Change s w v) (hu : w.Unlocked) :
    v.Unlocked := by
  cases h with
  | aside h => exact hu.of_orders h.orders
  | notice o n hn =>
    refine hu.modifyOrder o _ fun x => ?_
    cases hx : x.notice <;> simp only [Order.recordNotice, hx]
  | failed o _ => exact hu.modifyOrder o _ fun _ => rfl
  | fulfilled j empty _ => exact hu.fulfil j.work empty
  | crashed | visited | dropped => exact hu.of_orders rfl

/-- A relation between worlds that every change respects holds along any number of them. -/
theorem Changes.preserves {s : Setup} {P : World → Prop} (hP : ∀ u v, Change s u v → P u → P v)
    {w v : World} (h : Changes s w v) (hw : P w) : P v := by
  induction h with
  | refl => exact hw
  | tail _ huv ih => exact hP _ _ huv ih

theorem Changes.timePasses {s : Setup} {w v : World} (h : Changes s w v) : w.TimePasses v :=
  h.preserves (fun _ _ hc ht => World.TimePasses.trans ht hc.timePasses) (.of_eq rfl)

theorem Changes.unlocked {s : Setup} {w v : World} (h : Changes s w v) (hu : w.Unlocked) :
    v.Unlocked :=
  h.preserves (fun _ _ hc => hc.unlocked) hu

theorem Changes.replies {s : Setup} {w v : World} (h : Changes s w v) : v.replies ⊆ w.replies :=
  h.preserves (P := fun u => u.replies ⊆ w.replies)
    (fun _ _ hc hr => List.Subset.trans hc.replies hr) (List.Subset.refl _)

theorem Changes.no_replies {s : Setup} {w v : World} (h : Changes s w v) (hw : w.replies = []) :
    v.replies = [] := by
  have hr := h.replies
  rw [hw] at hr
  exact List.subset_nil.mp hr

theorem Changes.faults {s : Setup} {w v : World} (h : Changes s w v) (sv : Service) :
    v.faults.get sv <:+ w.faults.get sv :=
  h.preserves (P := fun u => u.faults.get sv <:+ w.faults.get sv)
    (fun _ _ hc hf => (hc.faults sv).trans hf) List.suffix_rfl

theorem Changes.jobs {s : Setup} {w v : World} (h : Changes s w v) : w.pending <+: v.pending :=
  h.preserves (P := fun u => w.pending <+: u.pending) (fun _ _ hc hj => hj.trans hc.jobs)
    List.prefix_rfl

theorem Changes.isOpen {s : Setup} {w v : World} (h : Changes s w v) (hw : w.Open) : v.Open :=
  h.preserves (fun _ _ hc => hc.isOpen) hw

theorem Changes.whole {s : Setup} {w v : World} (h : Changes s w v) (hw : w.Whole s) :
    v.Whole s :=
  fun e he => hw e (h.replies he)

/-! ## Scripts and jobs taken -/

/-- Somebody has written other scripts or taken a pending job. -/
def World.Handled (w v : World) : Prop :=
  ∃ faults replies pending, v = { w with faults, replies, pending }

/-- Any number of changes, with scripts written and jobs taken in between. -/
abbrev World.Evolves (s : Setup) : World → World → Prop :=
  Relation.ReflTransGen fun w v => Change s w v ∨ w.Handled v

theorem Changes.evolves {s : Setup} {w v : World} (h : Changes s w v) : w.Evolves s v :=
  h.preserves (P := w.Evolves s) (fun _ _ hc hu => hu.tail (.inl hc)) .refl

theorem World.evolves_handled {s : Setup} (w : World) (faults : FaultScripts)
    (replies : List (CallKind × Reply)) (pending : List Job) :
    w.Evolves s { w with faults, replies, pending } :=
  .single (.inr ⟨faults, replies, pending, rfl⟩)

/-- Changes, after a pending job was taken perhaps. -/
def World.Proceeds (s : Setup) (w v : World) : Prop := ∃ pending, Changes s { w with pending } v

theorem Changes.proceeds {s : Setup} {w v : World} (h : Changes s w v) : w.Proceeds s v :=
  ⟨w.pending, h⟩

theorem World.Proceeds.evolves {s : Setup} {w v : World} (h : w.Proceeds s v) : w.Evolves s v := by
  obtain ⟨pending, h⟩ := h
  exact (w.evolves_handled w.faults w.replies pending).trans h.evolves

/-- What changes keep while the clock is in range, and scripts and jobs have no part in, is kept. -/
theorem World.Evolves.preserves {s : Setup} {P : World → Prop} {w v : World} (h : w.Evolves s v)
    (hclock : w.clock ≤ World.lastClock)
    (change : ∀ u u', u.clock ≤ World.lastClock → Change s u u' → P u → P u')
    (handled : ∀ u faults replies pending, P u → P { u with faults, replies, pending })
    (hw : P w) :
    v.clock ≤ World.lastClock ∧ P v := by
  induction h with
  | refl => exact ⟨hclock, hw⟩
  | tail _ huv ih =>
    obtain hc | ⟨faults, replies, pending, rfl⟩ := huv
    · exact ⟨(hc.timePasses ih.1).2, change _ _ ih.1 hc ih.2⟩
    · exact ⟨ih.1, handled _ _ _ _ ih.2⟩

section Steps
variable {s : Setup}

/-! ## The small changes -/

/-- What a change aside leaves alone, all at once. -/
def World.settings (w : World) :=
  (w.orders, w.collaborators, w.deeds, w.replies, w.faults, w.allowance, w.closed, w.clock)

theorem changes_enlisting {w v : World} (h : v.settings = w.settings)
    (hj : w.pending <+: v.pending) : Changes s w v := by
  simp only [World.settings, Prod.mk.injEq] at h
  obtain ⟨ho, hc, hd, hr, hf, ha, hl, ht⟩ := h
  have hfaults : ∀ sv, v.faults.get sv <:+ w.faults.get sv := fun sv => by
    simp only [hf, List.suffix_refl]
  refine .single (.aside ⟨ho, hc, hd, fun _ he => hr ▸ he, hfaults, hj, ?_, .of_eq ht⟩)
  intro hw
  exact ⟨by rw [ha, hw.1], by rw [hl, hw.2]⟩

theorem changes_aside {w v : World} (h : v.settings = w.settings) (hj : v.pending = w.pending) :
    Changes s w v :=
  changes_enlisting h (by simp only [hj, List.prefix_refl])

theorem changes_record (w : World) {e : Event} (he : e.isDeed = false) :
    Changes s w (w.record e) := by
  have hd : (w.record e).deeds = w.deeds := by
    rw [World.deeds_record]
    simp [he]
  refine changes_aside ?_ rfl
  rw [World.settings, hd]
  rfl

theorem changes_remark (w : World) {r : Remark} (hr : r.isDropping = false) :
    Changes s w (w.remark r) :=
  changes_record w hr

theorem changes_advance (w : World) {d : Int} (hd : 0 ≤ d) : Changes s w (w.advance d) :=
  .single (.aside ⟨rfl, rfl, rfl, List.Subset.refl _, fun _ => List.suffix_rfl, List.prefix_rfl, id,
    w.timePasses_advance hd⟩)

theorem FaultScripts.suffix_pop (f : FaultScripts) (sv sv' : Service) :
    (f.pop sv).2.get sv' <:+ f.get sv' := by
  simp only [pop]
  cases hf : f.get sv with
  | nil => exact List.suffix_rfl
  | cons fault rest =>
    by_cases h : sv = sv'
    · subst h
      have hset : (f.set rest sv).get sv = rest := by cases sv <;> rfl
      rw [hset, hf]
      exact List.suffix_cons fault rest
    · have hset : (f.set rest sv).get sv' = f.get sv' := by
        cases sv <;> cases sv' <;> first | rfl | exact absurd rfl h
      simp only [hset, List.suffix_refl]

theorem changes_popFault (w : World) (sv : Service) : Changes s w (w.popFault sv).2 :=
  .single (.aside ⟨rfl, rfl, rfl, List.Subset.refl _, w.faults.suffix_pop sv, List.prefix_rfl, id,
    .of_eq rfl⟩)

theorem changes_takeReply (w : World) (k : CallKind) : Changes s w (w.takeReply k).2 := by
  obtain hk | ⟨r, -, hk⟩ := w.takeReply_cases k
  · rw [hk]
  · rw [hk]
    exact .single (.aside ⟨rfl, rfl, rfl, List.eraseP_subset .., fun _ => List.suffix_rfl,
      List.prefix_rfl, id, .of_eq rfl⟩)

theorem changes_drawJitter (w : World) : Changes s w w.drawJitter.2 :=
  changes_aside rfl rfl

theorem changes_showNotice (w : World) (o : OrderRef) (n : SiteNotice) :
    Changes s w (w.showNotice o n) := by
  simp only [World.showNotice]
  cases hn : (w.order o).notice with
  | some _ => exact .refl
  | none => exact (Relation.ReflTransGen.single (.notice w o n hn)).trans (changes_remark _ rfl)

theorem changes_failPending (w : World) (o : OrderRef) : Changes s w (failPending o w).1 := by
  simp only [failPending]
  split
  · next h => exact .single (.failed w o h)
  · exact .refl

/-! ## Background jobs -/

theorem changes_enlist (w : World) (j : Job) : Changes s w (w.enlist j) :=
  changes_enlisting rfl (List.prefix_append ..)

theorem World.spendAllowance_of_open {w : World} (hw : w.Open) : w.spendAllowance = w := by
  simp only [spendAllowance, hw.1, Option.map_none]
  rw [← hw.1]

theorem changes_spendAllowance (w : World) : Changes s w w.spendAllowance := by
  refine .single (.aside ⟨rfl, rfl, rfl, List.Subset.refl _, fun _ => List.suffix_rfl,
    List.prefix_rfl, ?_, .of_eq rfl⟩)
  intro hw
  exact ⟨by rw [World.spendAllowance, hw.1]; rfl, hw.2⟩

theorem launch_changes (j : Job) (w : World) : (launch s j w).Leaves (Changes s w) := by
  simp only [launch]
  split
  · exact changes_record w rfl
  · split
    · exact changes_aside rfl rfl
    · exact changes_enlisting rfl (List.prefix_append ..)
  · exact changes_enlist w j

theorem spawn_changes (j : Job) (w : World) : (spawn s j w).Leaves (Changes s w) := by
  have hs : Changes s w (w.record (.spawned j)) := changes_record w rfl
  simp only [spawn]
  split
  · exact hs.trans (changes_enlist _ j)
  · split
    · exact hs.trans (changes_record _ rfl)
    · have h : Changes s w (w.record (.spawned j)).spendAllowance :=
        hs.trans (changes_spendAllowance _)
      exact (launch_changes j _).mono fun v hv => h.trans hv

/-- Where nobody is turned away, a job that is not to wait starts at once. -/
theorem spawn_inline (hs : s.dispatch = .inline) {w : World} (hw : w.Open) (j : Job) :
    spawn s j w =
      .next ((w.record (.spawned j)).record (.started j)) [.attempt j 0, .finish j] := by
  have hspend : (w.record (.spawned j)).spendAllowance = w.record (.spawned j) :=
    World.spendAllowance_of_open hw
  have hexhausted : (w.record (.spawned j)).isExhausted = false := by
    simp [World.isExhausted, World.record, hw.1]
  simp only [spawn, launch, hs, hspend, hexhausted, reduceCtorEq, Bool.false_eq_true, if_false]

/-- Where nobody is turned away, any other job waits; a pool counts it. -/
theorem spawn_waits (hs : s.dispatch ≠ .inline) {w : World} (hw : w.Open) (j : Job) :
    ∃ stats, spawn s j w = .next (World.enlist { w.record (.spawned j) with stats } j) [] := by
  have hspend : (w.record (.spawned j)).spendAllowance = w.record (.spawned j) :=
    World.spendAllowance_of_open hw
  have hexhausted : (w.record (.spawned j)).isExhausted = false := by
    simp [World.isExhausted, World.record, hw.1]
  cases hd : s.dispatch with
  | deferred => exact ⟨w.stats, by rw [spawn, if_pos hd]; rfl⟩
  | inline => exact absurd hd hs
  | pool name =>
    have hopen : ¬ (w.record (.spawned j)).closed = true := by simp [World.record, hw.2]
    refine ⟨w.stats.accepted, ?_⟩
    simp only [spawn, launch, hd, hspend, hexhausted, reduceCtorEq, Bool.false_eq_true, if_false,
      if_neg hopen]
    rfl
  | threads =>
    refine ⟨w.stats, ?_⟩
    simp only [spawn, launch, hd, hspend, hexhausted, reduceCtorEq, Bool.false_eq_true, if_false]
    rfl

/-- The job that starts is no longer pending; it may be counted, and a pool says that it runs. -/
theorem startAt?_eq_some {i : Nat} {w v : World} {todo : List Action}
    (h : startAt? s i w = some (v, todo)) :
    ∃ j u, w.pending[i]? = some j ∧ todo = [.attempt j 0, .finish j] ∧ v = u.record (.started j) ∧
      (u = { w with pending := w.pending.eraseIdx i } ∨
        u = World.spendAllowance { w with pending := w.pending.eraseIdx i } ∨
        ∃ name, u = World.remark { w with pending := w.pending.eraseIdx i }
          (.poolRunning name j.name)) := by
  simp only [startAt?] at h
  cases hj : w.pending[i]? with
  | none => simp [hj] at h
  | some j =>
    simp only [hj] at h
    cases hd : s.dispatch with
    | deferred =>
      simp only [hd] at h
      split at h
      · cases h
      · cases h
        exact ⟨j, _, rfl, rfl, rfl, .inr (.inl rfl)⟩
    | pool name =>
      simp only [hd] at h
      cases h
      exact ⟨j, _, rfl, rfl, rfl, .inr (.inr ⟨name, rfl⟩)⟩
    | inline | threads =>
      simp only [hd] at h
      cases h
      exact ⟨j, _, rfl, rfl, rfl, .inl rfl⟩

theorem startAt_cases (i : Nat) (w v : World) (todo : List Action)
    (h : startAt? s i w = some (v, todo)) :
    ∃ j, w.pending[i]? = some j ∧ todo = [.attempt j 0, .finish j] ∧
      v.pending = w.pending.eraseIdx i ∧ (w.Open → v.settings = w.settings) ∧
      Changes s { w with pending := w.pending.eraseIdx i } v := by
  obtain ⟨j, u, hj, rfl, rfl, rfl | rfl | ⟨name, rfl⟩⟩ := startAt?_eq_some h
  · exact ⟨j, hj, rfl, rfl, fun _ => rfl, changes_record _ rfl⟩
  · refine ⟨j, hj, rfl, rfl, fun hw => ?_, (changes_spendAllowance _).trans (changes_record _ rfl)⟩
    have hw' : World.Open { w with pending := w.pending.eraseIdx i } := hw
    rw [World.spendAllowance_of_open hw']
    rfl
  · exact ⟨j, hj, rfl, rfl, fun _ => rfl, changes_aside rfl rfl⟩

theorem settings_finished (j : Job) (w : World) :
    (finished s j w).settings = w.settings ∧ (finished s j w).pending = w.pending := by
  simp only [finished]
  cases s.dispatch <;> exact ⟨rfl, rfl⟩

theorem settings_panicked (j : Job) (w : World) :
    (panicked s j w).settings = w.settings ∧ (panicked s j w).pending = w.pending := by
  simp only [panicked]
  cases s.dispatch <;> exact ⟨rfl, rfl⟩

/-! ## Calls -/

theorem answer_changes (j : Job) (r : Reply) (w : World) (h : needed j w = true) :
    Changes s w (answer j.work r w).1 := by
  simp only [answer]
  split
  · exact .single (.crashed w _)
  · cases r.failure with
    | some f => exact changes_record w rfl
    | none => exact .single (.fulfilled w j r.empty h)

theorem needed_of_eq (j : Job) {w v : World} (ho : v.orders = w.orders)
    (hq : v.queued = w.queued) : needed j v = needed j w := by
  have hv : ∀ o, v.order o = w.order o := fun o => by rw [World.order, World.order, ho]
  have hc : ∀ c, v.queuedItems c = w.queuedItems c := fun c => by
    rw [World.queuedItems, World.queuedItems, hq]
  unfold needed
  cases j.work with
  | payment o => simp only [hv o]
  | messaging o m => simp only [hv o]
  | escalation o => simp only [hv o]
  | drain => simp only [hc j.owner]
  | shipping | add | dequeue => rfl

/-- Up to the answer of the collaborator. -/
def called (j : Job) (w : World) : Reply × World :=
  let (r, v) := (w.record (.called (callOf j.work w))).takeReply j.work.callKind
  (r, v.advance r.advance)

theorem called_changes (j : Job) (w : World) (hw : w.Whole s) :
    Changes s w (called j w).2 ∧ (called j w).1.Whole s ∧
      needed j (called j w).2 = needed j w := by
  have hr : (w.record (.called (callOf j.work w))).Whole s := hw
  have ht := hr.takeReply j.work.callKind
  refine ⟨?_, ht.1, ?_⟩
  · exact ((changes_record w rfl).trans (changes_takeReply _ _)).trans
      (changes_advance _ ht.1.forward)
  · obtain hk | ⟨r, -, hk⟩ :=
        (w.record (.called (callOf j.work w))).takeReply_cases j.work.callKind
    · simp only [called, hk]
      exact needed_of_eq j rfl rfl
    · simp only [called, hk]
      exact needed_of_eq j rfl rfl

theorem checkAndCall_eq (j : Job) (w : World) (hw : w.Whole s) :
    checkAndCall s j w =
      if needed j w then answer j.work (called j w).1 (called j w).2 else (w, .skipped) := by
  have hi := (called_changes j w hw).2.1.uninterrupted
  simp only [called] at hi
  simp only [checkAndCall, called, hi, Bool.false_eq_true, if_false]

theorem checkAndCall_changes (j : Job) (w : World) (hw : w.Whole s) :
    Changes s w (checkAndCall s j w).1 := by
  obtain ⟨hc, -, hn⟩ := called_changes j w hw
  rw [checkAndCall_eq j w hw]
  split
  · next h => exact hc.trans (answer_changes j _ _ (hn.trans h))
  · exact .refl

theorem head_of_fulfil (work : Work) (empty : Bool) (w : World) (t : Task)
    (h : (fulfil work empty w).2 = .accepted (.head (some t))) :
    (fulfil work empty w).1.collaborators.head? = some t := by
  cases work with
  | drain =>
    simp only [fulfil] at h ⊢
    cases empty with
    | true => cases h
    | false =>
      simp only [Bool.false_eq_true, if_false] at h ⊢
      cases ht : w.collaborators.head? with
      | none => rw [ht] at h; cases h
      | some u =>
        rw [ht] at h
        cases h
        exact ht
  | dequeue =>
    simp only [fulfil] at h
    cases ht : w.collaborators.take? with
    | none => rw [ht] at h; cases h
    | some u => rw [ht] at h; cases h
  | shipping | payment | messaging | escalation | add => cases h

theorem head_of_answer (work : Work) (r : Reply) (w : World) (t : Task)
    (h : (answer work r w).2 = .accepted (.head (some t))) :
    (answer work r w).1.collaborators.head? = some t := by
  simp only [answer] at h ⊢
  by_cases hp : r.panics = true
  · simp only [hp, if_true] at h
    cases h
  · simp only [hp, Bool.false_eq_true, if_false] at h ⊢
    cases hf : r.failure with
    | some f => rw [hf] at h; cases h
    | none =>
      rw [hf] at h
      exact head_of_fulfil work r.empty w t h

/-- The head that a look at the queue returns is the head of the queue. -/
theorem head_of_accepted (j : Job) (w : World) (hw : w.Whole s) (t : Task)
    (h : (checkAndCall s j w).2 = .accepted (.head (some t))) :
    (checkAndCall s j w).1.collaborators.head? = some t := by
  rw [checkAndCall_eq j w hw] at h ⊢
  split at h
  · next hn =>
    rw [if_pos hn]
    generalize (called j w).1 = r at h ⊢
    generalize (called j w).2 = v at h ⊢
    exact head_of_answer j.work r v t h
  · cases h

/-! ## After an attempt -/

theorem handOver_changes (j : Job) (f : Failure) (w : World) (hu : w.Unlocked) :
    (handOver s j f w).Leaves (Changes s w) := by
  simp only [handOver]
  cases j.work with
  | shipping o =>
    simp only [shippingFailed]
    cases f.kind <;> exact (changes_showNotice w o _).trans (changes_remark _ rfl)
  | payment o =>
    simp only [paymentFailed]
    split
    · have hn : Changes s w (w.showNotice o .paymentDetailsInvalid) := changes_showNotice w o _
      rw [failPayment_eq s o _ (hu.showNotice o _)]
      exact (hn.trans (changes_failPending _ o)).trans (changes_remark _ rfl)
    · split
      · exact (changes_showNotice w o _).trans (changes_remark _ rfl)
      · exact .refl
  | messaging o m =>
    simp only [messagingFailed]
    split
    · exact changes_remark w rfl
    · exact changes_remark w rfl
  | escalation o =>
    simp only [escalationFailed]
    split
    · exact changes_remark w rfl
    · exact .refl
  | add t =>
    simp only [addFailed]
    split
    · rw [failPayment_eq s t.order w hu]
      exact (changes_failPending w t.order).trans (changes_remark _ rfl)
    · exact .refl
  | drain => exact changes_remark w rfl
  | dequeue => exact changes_remark w rfl

theorem failed_changes (j : Job) (n : UInt32) (f : Failure) (w : World) (hu : w.Unlocked) :
    (failed s j n f w).Leaves (Changes s w) := by
  simp only [failed]
  split
  · exact changes_drawJitter w
  · exact handOver_changes j f w hu

theorem markHead_of_head (c : Collaborators) (now : Instant) (t : Task) (h : c.head? = some t) :
    (c.markHead now).head? = some (t.markFirstAttempt now) := by
  simp only [Collaborators.head?] at h
  simp only [Collaborators.markHead]
  cases hs : c.store with
  | nil => rw [hs] at h; cases h
  | cons u rest =>
    rw [hs] at h
    cases h
    rfl

/-- The world in which the head has been looked at and its first visit is noted. -/
def World.visited (w : World) (t : Task) : World :=
  { w.remark (.visiting (w.idOf t.order) t) with collaborators := w.collaborators.markHead w.now }

/-- The stage of the task, attempted again. -/
def Task.retry (c : CoordinatorRef) (t : Task) : Action :=
  match t.type, t.message with
  | .payment, _ => .pay c t.order
  | .messaging, some m => .tell c t.order m
  | .messaging, none => .dequeue c
  | .employeeDb, _ => .escalate c t.order

/-- A visit drops the head exactly if it is finished, else it attempts its stage again. -/
theorem visit_cases (c : CoordinatorRef) (t : Task) (w : World) :
    (∃ r : Remark, r.isDropping = true ∧ (t.markFirstAttempt w.now).Finished s (w.visited t) ∧
      visit s c t w = .next ((w.visited t).remark r) [.dequeue c, .settleDrain c]) ∨
    (∃ r : Remark, r.isDropping = false ∧ ¬ (t.markFirstAttempt w.now).Finished s (w.visited t) ∧
      visit s c t w = .next ((w.visited t).remark r) [t.retry c, .settleDrain c]) := by
  have unfinished (htime : ¬ s.config.limits.queueTask ≤ w.now.since (t.firstVisit w.now))
      (hs : t.isSettled (w.order t.order) = false) :
      ¬ (t.markFirstAttempt w.now).Finished s (w.visited t) := by
    rintro (h | ⟨first, hf, h⟩)
    · have h' : t.isSettled (w.order t.order) = true := h
      rw [hs] at h'
      cases h'
    · cases hf
      exact htime h
  by_cases htime : s.config.limits.queueTask ≤ w.now.since (t.firstVisit w.now)
  · refine Or.inl ⟨.taskTimedOut (w.idOf t.order) t, rfl, .inr ⟨_, rfl, htime⟩, ?_⟩
    exact if_pos htime
  obtain ⟨o, type, message, first⟩ := t
  cases type with
  | payment =>
    by_cases hp : (w.order o).payment = .trying
    · have hs : Task.isSettled ⟨o, .payment, message, first⟩ (w.order o) = false := by
        simp [Task.isSettled, hp]
      exact Or.inr ⟨.retryingPayment (w.idOf o), rfl, unfinished htime hs,
        (if_neg htime).trans (if_pos hp)⟩
    · have hs : Task.isSettled ⟨o, .payment, message, first⟩ (w.order o) = true := by
        simp [Task.isSettled, hp]
      exact Or.inl ⟨.queuedPaymentSettled (w.idOf o), rfl, .inl hs,
        (if_neg htime).trans (if_neg hp)⟩
  | messaging =>
    cases message with
    | none => exact Or.inl ⟨.messageTypeMissing (w.idOf o), rfl, .inl rfl, if_neg htime⟩
    | some m =>
      by_cases hn : (w.order o).needsMessage m = true
      · have hs : Task.isSettled ⟨o, .messaging, some m, first⟩ (w.order o) = false := by
          simp [Task.isSettled, hn]
        exact Or.inr ⟨.retryingMessage (w.idOf o) m, rfl, unfinished htime hs,
          (if_neg htime).trans (if_pos hn)⟩
      · have hs : Task.isSettled ⟨o, .messaging, some m, first⟩ (w.order o) = true := by
          simp [Task.isSettled, hn]
        exact Or.inl ⟨.queuedMessageNotNeeded (w.idOf o) m, rfl, .inl hs,
          (if_neg htime).trans (if_neg hn)⟩
  | employeeDb =>
    by_cases he : (w.order o).escalated = true
    · exact Or.inl ⟨.alreadyEscalated (w.idOf o), rfl, .inl he,
        (if_neg htime).trans (if_pos he)⟩
    · have hs : Task.isSettled ⟨o, .employeeDb, message, first⟩ (w.order o) = false := by
        simpa [Task.isSettled] using he
      exact Or.inr ⟨.retryingEmployee (w.idOf o), rfl, unfinished htime hs,
        (if_neg htime).trans (if_neg he)⟩

theorem visit_changes (c : CoordinatorRef) (t : Task) (w : World)
    (ht : w.collaborators.head? = some t) : (visit s c t w).Leaves (Changes s w) := by
  have hw : Changes s w (w.visited t) :=
    (changes_remark w (r := .visiting (w.idOf t.order) t) rfl).trans (.single (.visited _))
  have hh : (w.visited t).collaborators.head? = some (t.markFirstAttempt w.now) :=
    markHead_of_head w.collaborators w.now t ht
  obtain ⟨r, hr, hf, hv⟩ | ⟨r, hr, -, hv⟩ := visit_cases (s := s) c t w
  · rw [hv]
    exact hw.trans (.single (.dropped _ _ r hh rfl hf hr))
  · rw [hv]
    exact hw.trans (changes_remark _ hr)

theorem succeeded_changes (j : Job) (r : Receipt) (w : World)
    (hr : ∀ t, r = .head (some t) → w.collaborators.head? = some t) :
    (succeeded s j r w).Leaves (Changes s w) := by
  simp only [succeeded]
  split
  · exact changes_remark w rfl
  · exact (changes_remark w rfl).trans (changes_showNotice _ _ _)
  · exact changes_remark w rfl
  · exact changes_remark w rfl
  · exact changes_aside rfl rfl
  · next t _ => exact visit_changes _ t w (hr t rfl)
  · exact changes_aside rfl rfl
  · exact .refl

theorem skipped_changes (j : Job) (w : World) : (skipped j w).Leaves (Changes s w) := by
  simp only [skipped]
  cases j.work with
  | payment o => exact changes_remark w rfl
  | messaging o m => exact changes_remark w rfl
  | drain | shipping | escalation | add | dequeue => exact .refl

theorem settle_changes (j : Job) (n : UInt32) (v : Verdict) (w : World) (hu : w.Unlocked)
    (hv : ∀ t, v = .accepted (.head (some t)) → w.collaborators.head? = some t) :
    (settle s j n v w).Leaves (Changes s w) := by
  cases v with
  | skipped => exact skipped_changes j w
  | accepted r => exact succeeded_changes j r w fun t ht => hv t (by rw [ht])
  | refused f => exact failed_changes j n f w hu
  | panicked => exact .refl
  | interrupted r => exact .refl

theorem rejection_isDropping (work : Work) (f : Failure) (w : World) :
    (rejection work f w).isDropping = false := by
  cases work <;> simp only [rejection] <;> first | rfl | (split <;> rfl)

theorem attempt_changes (j : Job) (n : UInt32) (w : World) (hu : w.Unlocked) (hw : w.Whole s) :
    (attempt s j n w).Leaves (Changes s w) := by
  have hp : Changes s w (w.popFault j.work.service).2 := changes_popFault w _
  rw [attempt_eq s j n w hu]
  generalize w.popFault j.work.service = q at hp ⊢
  obtain ⟨fault, v⟩ := q
  cases fault with
  | some f =>
    have hr : Changes s v (v.remark (rejection j.work f v)) :=
      changes_remark v (rejection_isDropping j.work f v)
    have hwv : Changes s w (v.remark (rejection j.work f v)) := .trans hp hr
    have hf := failed_changes (s := s) j n f (v.remark (rejection j.work f v)) (hwv.unlocked hu)
    exact hf.mono fun u h => hwv.trans h
  | none =>
    have hc : Changes s w (checkAndCall s j w).1 := checkAndCall_changes j w hw
    have hs := settle_changes (s := s) j n _ _ (hu.checkAndCall s j) fun t ht =>
      head_of_accepted j w hw t ht
    exact hs.mono fun u h => hc.trans h

/-! ## All actions -/

theorem pay_changes (c : CoordinatorRef) (o : OrderRef) (w : World) (hu : w.Unlocked) :
    (pay s c o w).Leaves (Changes s w) := by
  simp only [pay]
  split
  · have hf : Changes s w (failPending o w).1 := changes_failPending w o
    rw [failPayment_eq s o w hu]
    generalize (failPending o w) = q at hf
    obtain ⟨v, changed⟩ := q
    cases changed <;> exact hf.trans (changes_remark v rfl)
  · exact spawn_changes _ w

theorem perform_changes (a : Action) (w : World) (hu : w.Unlocked) (hw : w.Whole s)
    (ha : a.isWhole = true) (hserve : ∀ count, a ≠ .serve count) :
    (perform s a w).Leaves (Changes s w) := by
  cases a with
  | place c o => exact changes_remark w rfl
  | pay c o => exact pay_changes c o w hu
  | tell c o m =>
    simp only [perform, tell]
    split
    · exact changes_remark w rfl
    · exact spawn_changes _ w
  | escalate c o =>
    simp only [perform, escalate]
    split
    · exact changes_remark w rfl
    · exact spawn_changes _ w
  | enqueue c t =>
    simp only [perform, enqueue]
    split
    · exact changes_remark w rfl
    · split
      · exact changes_remark w rfl
      · split
        · exact spawn_changes _ w
        · exact changes_remark w rfl
  | deferPayment c o =>
    simp only [perform, deferPayment]
    split <;> exact .refl
  | escalateTask c t f => exact changes_remark w rfl
  | drain c =>
    simp only [perform]
    split
    · exact spawn_changes _ w
    · exact .refl
  | dequeue c =>
    simp only [perform]
    split
    · exact spawn_changes _ w
    · exact .refl
  | settleDrain c =>
    simp only [perform, settleDrain]
    split
    · exact changes_remark w rfl
    · exact .refl
  | attempt j n => exact attempt_changes j n w hu hw
  | conclude j n r => cases ha
  | pause d =>
    have hs : Changes s w (w.record (.slept d)) := changes_record w rfl
    simp only [perform, pause]
    cases s.sleepsPass with
    | true => exact hs.trans (changes_advance _ (Int.natCast_nonneg _))
    | false => exact hs
  | serve count => exact absurd rfl (hserve count)
  | finish j =>
    have hf := settings_finished (s := s) j w
    exact changes_aside hf.1 hf.2
  | placed o => exact .refl

/-- The oldest pending job starts, if there is one. -/
theorem serve_cases (count : Nat) (w : World) :
    perform s (.serve count) w = .next w [] ∨
      ∃ n v todo, startAt? s 0 w = some (v, todo) ∧ count = n + 1 ∧
        perform s (.serve count) w = .next v (todo ++ [.serve n]) := by
  cases count with
  | zero => exact .inl rfl
  | succ n =>
    simp only [perform, serve]
    cases hs : startAt? s 0 w with
    | none => exact .inl rfl
    | some q => exact .inr ⟨n, q.1, q.2, rfl, rfl, rfl⟩

end Steps
end Fulfilment
