import Fulfilment.Proofs.Queue.Accounts

/-! A queue store that is not empty has a drain job that will look at it.

* `World.LooksOn`: no look at the queue was given up, and none made the queue store panic.
* `perform_drains`: then whatever was to look at the queue has another look come after it, or finds
  that nothing is counted.
* `Looped`: a thread that will look at the queue again is in the middle of a drain job, or is about
  to spawn one.
* `System.tasks_keep_loop`: so as long as there is a task in the store, a drain job waits or is
  under way. -/
namespace Fulfilment

set_option autoImplicit false

/-! ## Looks -/

/-- No look at the queue handed a failure over, and none made the queue store panic. -/
structure World.LooksOn (w : World) : Prop where
  kept : ∀ f, Event.remarked (.drainGivenUp f) ∉ w.journal
  calm : Event.panicked .peek ∉ w.journal

theorem World.LooksOn.before {w v : World} (h : v.LooksOn) (hj : w.journal <:+ v.journal) :
    w.LooksOn :=
  ⟨fun f hf => h.kept f (hj.subset hf), fun hp => h.calm (hj.subset hp)⟩

/-- A look at the queue is the last of its chain. -/
def Event.endsLoop : Event → Bool
  | .remarked (.drainGivenUp _) => true
  | .panicked .peek => true
  | _ => false

theorem World.looksOn_of_any {w : World} (h : w.journal.any Event.endsLoop = false) :
    w.LooksOn := by
  have hnone : ∀ e ∈ w.journal, e.endsLoop = false := by simpa using h
  exact ⟨fun f hf => (by cases hnone _ hf), fun hp => (by cases hnone _ hp)⟩

theorem concern_drains : Concern Action.drains := by
  refine ⟨fun _ => rfl, fun _ => rfl, fun _ => rfl, fun _ => rfl, fun j n m => ?_⟩
  obtain ⟨c, work⟩ := j
  cases work <;> rfl

theorem drains_settle (c : CoordinatorRef) (b : Action) :
    ∃ d ∈ [b, .settleDrain c], d.drains = true :=
  ⟨.settleDrain c, by simp, rfl⟩

section Looks
variable {s : Setup} {c : CoordinatorRef} {w : World}

theorem failed_drains (n : UInt32) (f : Failure) (w : World) :
    (failed s ⟨c, .drain⟩ n f w).Meets fun v todo =>
      v.LooksOn → ∃ b ∈ todo, b.drains = true := by
  simp only [failed]
  split
  · exact fun _ => ⟨.attempt ⟨c, .drain⟩ (n + 1), by simp, rfl⟩
  · exact fun hlook => absurd (List.mem_cons_self ..) (hlook.kept f)

theorem attempt_drains (n : UInt32) (hu : w.Unlocked) (hw : w.Whole s) :
    (attempt s ⟨c, .drain⟩ n w).Meets fun v todo =>
      v.LooksOn → ∃ b ∈ todo, b.drains = true := by
  have h := attempt_course (s := s) ⟨c, .drain⟩ n w hu hw
  generalize attempt s ⟨c, .drain⟩ n w = x at h
  cases h with
  | fault | refused | emptied => exact failed_drains n _ _
  | skipped => exact fun _ => ⟨.settleDrain c, by simp, rfl⟩
  | panicked => exact fun hlook => absurd (List.mem_cons_self ..) hlook.calm
  | accepted r v empty hn _ _ _ hr _ =>
    refine (succeeded_success c .drain r empty v hn hr).mono fun u todo hs _ => ?_
    cases hs with
    | visited | condemned => exact drains_settle c _

/-- Whatever looks at the queue has another look wait or come next, unless the store is found
empty. -/
theorem perform_drains {a : Action} (ha : a.drains = true) (hs : s.hasStore = true)
    (hu : w.Unlocked) (hw : w.Whole s) (ho : w.Open) (howner : ∀ d, a.owner? = some d → d = c)
    (hb : w.books.Balanced c) :
    (perform s a w).Meets fun v todo => v.LooksOn →
      w.collaborators.store = [] ∨
        w.waiting Action.drains < todo.countP Action.drains + v.waiting Action.drains := by
  -- A further look that is left to do is one more than those that wait.
  have left {v : World} {todo : List Action} (hp : w.pending <+: v.pending)
      (ht : ∃ b ∈ todo, b.drains = true) :
      w.waiting Action.drains < todo.countP Action.drains + v.waiting Action.drains := by
    have hpos : 0 < todo.countP Action.drains := List.countP_pos_iff.mpr ht
    have hmono := World.waiting_mono hp Action.drains
    omega
  cases a with
  | drain d =>
    obtain ⟨v, todo, hv, -, -, hload⟩ := spawn_load (s := s) w ⟨d, .drain⟩ ho
    have hone := hload Action.drains concern_drains
    have hdrains : (Action.attempt ⟨d, .drain⟩ 0).drains = true := rfl
    rw [if_pos hdrains] at hone
    simp only [perform, hs, if_true, hv]
    intro _
    right
    omega
  | settleDrain d =>
    obtain rfl := howner d rfl
    simp only [perform, settleDrain]
    split
    · next hzero =>
      refine fun _ => .inl (List.eq_nil_of_length_eq_zero ?_)
      rw [← hb.queuedItems, hzero]
    · exact fun _ => .inr (left (List.prefix_rfl) ⟨.drain d, by simp, rfl⟩)
  | attempt j n =>
    obtain ⟨d, work⟩ := j
    obtain rfl := drains_attempt ha
    have hdrains := attempt_drains (s := s) (c := d) n hu hw
    have hchanges := attempt_changes (s := s) ⟨d, .drain⟩ n w hu hw
    simp only [perform]
    generalize attempt s ⟨d, .drain⟩ n w = x at hdrains hchanges
    cases x with
    | next v todo => exact fun hlook => .inr (left hchanges.jobs (hdrains hlook))
    | panic v =>
      intro hlook
      obtain ⟨b, hb, -⟩ := hdrains hlook
      exact absurd hb List.not_mem_nil
    | stuck v => exact hchanges
  | _ => cases ha

/-- The first task in the store comes with a look at the queue. -/
theorem Effect.first_task {a : Action} {v : World} {todo : List Action} (h : Effect s w a v todo)
    (hw : w.collaborators.store = []) :
    v.collaborators.store = [] ∨ ∃ b ∈ todo, b.drains = true := by
  have same {b : Books} (hv : v.books = b) (hb : b.store = w.books.store) :
      v.collaborators.store = [] ∨ ∃ b ∈ todo, b.drains = true :=
    .inl (((congrArg Books.store hv).trans hb).trans hw)
  have none {t : Task} {rest : List Task} (hs : w.books.store = t :: rest) : False := by
    have hnil : w.books.store = [] := hw
    rw [hs] at hnil
    cases hnil
  cases h with
  | idle _ _ _ _ hv => exact same hv rfl
  | succeeded d work n _ _ hs =>
    cases hs with
    | added t => exact .inr ⟨.drain d, by simp, rfl⟩
    | visited _ _ _ _ hs | condemned _ _ _ _ _ hs | removed _ _ _ hs => exact (none hs).elim
    | _ => next hv => exact same hv rfl
  | failed d work n f _ _ hf hs => cases hs with | _ => next hv => exact same hv rfl
  | _ => next hv => exact same hv rfl

end Looks

/-! ## Threads -/

/-- Every look at the queue to come is that of a drain job under way. -/
def Held (c : CoordinatorRef) : List Action → Prop
  | [] => True
  | a :: rest => (a.drains = true → Action.finish ⟨c, .drain⟩ ∈ rest) ∧ Held c rest

/-- The same, unless a drain job is about to be spawned. -/
def Looped (c : CoordinatorRef) (agenda : List Action) : Prop :=
  Held c agenda ∨ ∃ rest, agenda = .drain c :: rest ∧ Held c rest

section Threads
variable {s : Setup} {c : CoordinatorRef} {a : Action} {todo rest agenda : List Action}

theorem Held.append (ht : ∀ b ∈ todo, b.drains = true → Action.finish ⟨c, .drain⟩ ∈ rest)
    (hr : Held c rest) : Held c (todo ++ rest) := by
  induction todo with
  | nil => exact hr
  | cons b todo ih =>
    obtain ⟨hb, ht⟩ := List.forall_mem_cons.mp ht
    exact ⟨fun hd => List.mem_append_right _ (hb hd), ih ht⟩

theorem Looped.tail (h : Looped c (a :: rest)) : Held c rest := by
  obtain ⟨-, h⟩ | ⟨_, he, h⟩ := h
  · exact h
  · cases he
    exact h

/-- Past its spawning, a look at the queue belongs to a drain job. -/
theorem Looped.finish (h : Looped c (a :: rest)) (ha : a.drains = true) (hne : a ≠ .drain c) :
    Action.finish ⟨c, .drain⟩ ∈ rest := by
  obtain ⟨h, -⟩ | ⟨_, he, -⟩ := h
  · exact h ha
  · cases he
    exact absurd rfl hne

theorem Held.started (j : Job) (hj : j.owner = c) (hr : Held c rest) :
    Held c (j.agenda ++ rest) := by
  subst hj
  refine And.intro (fun hd => ?_) (And.intro (fun hd => by cases hd) hr)
  rw [← drains_attempt hd]
  exact List.mem_cons_self ..

theorem Looped.of_quiet (ha : a.drains = false) : Looped c [a] :=
  .inl ⟨fun hd => (by rw [ha] at hd; cases hd), trivial⟩

/-- A look at the queue is left to do by a drain job, or right after a task was added. -/
theorem Effect.looped {w v : World} (h : Effect s w a v todo)
    (howner : ∀ d, a.owner? = some d → d = c) (hr : Held c rest)
    (hfinish : a.drains = true → a ≠ .drain c → Action.finish ⟨c, .drain⟩ ∈ rest) :
    Looped c (todo ++ rest) := by
  have quiet (ht : ∀ b ∈ todo, b.drains = false) : Looped c (todo ++ rest) := by
    refine .inl (.append (fun b hb hd => ?_) hr)
    rw [ht b hb] at hd
    cases hd
  have under (ha : a.drains = true) (hne : a ≠ .drain c) : Looped c (todo ++ rest) :=
    .inl (.append (fun _ _ _ => hfinish ha hne) hr)
  have nothing : ∀ b ∈ ([] : List Action), b.drains = false :=
    fun b hb => absurd hb List.not_mem_nil
  have one {b : Action} (hb : b.drains = false) : ∀ d ∈ [b], d.drains = false :=
    List.forall_mem_singleton.mpr hb
  have two {b b' : Action} (hb : b.drains = false) (hb' : b'.drains = false) :
      ∀ d ∈ [b, b'], d.drains = false :=
    List.forall_mem_cons.mpr ⟨hb, one hb'⟩
  cases h with
  | idle _ _ _ ht _ =>
    refine quiet fun b hb => ?_
    obtain ⟨n, rfl⟩ := ht b hb
    rfl
  | waiting | lost | passed | crashed => exact quiet nothing
  | started j _ hj _ => exact .inl (hr.started j (howner _ hj.owner))
  | placing | deferring => exact quiet (two rfl rfl)
  | expired | escalating => exact quiet (one rfl)
  | drainingOn d => exact under rfl (by simp)
  | again j n m d f _ hf hv =>
    by_cases hj : (Action.attempt j n).drains = true
    · exact under hj (by simp)
    · exact quiet (two rfl (by rw [concern_drains.attempt j m n]; simpa using hj))
  | unneeded j n _ hn hv =>
    by_cases hj : j.work = .drain
    · obtain ⟨d, work⟩ := j
      cases hj
      exact under rfl (by simp)
    · refine quiet ?_
      rw [if_neg hj]
      exact nothing
  | succeeded d work n _ _ hs =>
    cases hs with
    | shipped | paid => exact quiet (one rfl)
    | told | handed | removed => exact quiet nothing
    | added t _ hv =>
      obtain rfl := howner d rfl
      exact .inr ⟨rest, rfl, hr⟩
    | visited | condemned => exact under rfl (by simp)
  | failed d work n f _ _ hf hs =>
    cases hs with
    | turnedAway | declined | stillUnpaid | unattended | notAdded => exact quiet (one rfl)
    | unpaid | undelivered | notQueued => exact quiet (two rfl rfl)
    | notPlaced | declinedLate | givenUp | leftAlone | unseen => exact quiet nothing

end Threads

namespace System

/-! ## Systems -/

section Happenings
variable {s : Setup} {σ τ : System} {h : Happening} {c : CoordinatorRef}

theorem Solely.looped (hs : σ.Solely c) (hl : ∀ agenda ∈ σ.threads, Looped c agenda)
    (hm : Motion s σ τ h) : ∀ agenda ∈ τ.threads, Looped c agenda := by
  have set {i : Nat} {new : List Action} (ht : τ.threads = σ.threads.set i new)
      (hnew : Looped c new) : ∀ agenda ∈ τ.threads, Looped c agenda := by
    intro agenda ha
    rw [ht] at ha
    obtain ha | rfl := List.mem_or_eq_of_mem_set ha
    · exact hl agenda ha
    · exact hnew
  have append {new : List Action} (ht : τ.threads = σ.threads ++ [new]) (hnew : Looped c new) :
      ∀ agenda ∈ τ.threads, Looped c agenda := by
    rw [ht]
    exact List.forall_mem_append.mpr ⟨hl, List.forall_mem_singleton.mpr hnew⟩
  have waiting {k : Nat} {j : Job} (hj : σ.world.pending[k]? = some j) : j.owner = c :=
    hs (.attempt j 0) (mem_outstanding.mpr (.inr ⟨j, List.mem_of_getElem? hj, rfl⟩)) _ rfl
  cases hm with
  | acted i a rest v todo more ha =>
    have hi := hl _ (List.mem_of_getElem? ha.thread)
    have hout := outstanding_of_acts ha
    refine set ha.threads ?_
    obtain rfl | ⟨rfl, e, -, rfl⟩ := ha.more
    · exact ha.effect.looped (hs a hout) hi.tail hi.finish
    · have htail : Held c (e :: more) := hi.tail
      exact .inl htail.2
  | rested i old more hi hold hw ht =>
    have hi := hl _ (List.mem_of_getElem? hi)
    refine set ht ?_
    obtain ⟨rfl, rfl⟩ | ⟨count, rfl⟩ := hold
    · exact hi
    · exact .inl hi.tail
  | served i n rest j hj hi hb ht =>
    have hrest : Held c (.serve n :: rest) :=
      And.intro (fun hd => by cases hd) (hl _ (List.mem_of_getElem? hi)).tail
    exact set ht (.inl (hrest.started j (waiting hj)))
  | started k j hj hb ht =>
    have hj := Held.started j (waiting hj) (show Held c [] from trivial)
    rw [List.append_nil] at hj
    exact append ht (.inl hj)
  | asked q hq hw ht => exact append ht (.of_quiet (by cases q <;> rfl))
  | scripted m hm hb ht =>
    rw [ht]
    exact hl
  | ordered d customer item price x hx hb ht => exact append ht (.of_quiet rfl)

/-- Tasks in the store have a look at the queue to come. -/
def Watched (σ : System) : Prop :=
  σ.world.collaborators.store = [] ∨ 0 < σ.load Action.drains

theorem Watched.happen (hw : σ.Watched) (hσ : σ.Orderly s) (hstore : s.hasStore = true)
    (hopen : σ.world.Open) (hs : σ.Solely c) (hb : σ.world.books.Balanced c)
    (hτ : σ.happen? s h = some τ) (hlook : τ.world.LooksOn) : τ.Watched := by
  have moved (hstore : τ.world.collaborators.store = σ.world.collaborators.store)
      (hload : σ.load Action.drains ≤ τ.load Action.drains) : τ.Watched := by
    rw [Watched, hstore]
    exact hw.imp id fun hpos => Nat.lt_of_lt_of_le hpos hload
  cases hσ.motion hτ with
  | acted i a rest v todo more ha =>
    have hload := ha.load concern_drains
    have hstore' : τ.world.collaborators.store = v.collaborators.store :=
      congrArg Books.store ha.books
    have hwaiting : σ.world.waiting Action.drains ≤ v.waiting Action.drains := by
      obtain hv | ⟨j, -, hv⟩ := pending_of_effect ha.effect
      · exact Nat.le_of_eq (World.waiting_of_pending hv _).symm
      · exact World.waiting_mono (by rw [hv]; exact List.prefix_append ..) _
    have first (hempty : σ.world.collaborators.store = []) : τ.Watched := by
      rw [Watched, hstore']
      refine (ha.effect.first_task hempty).imp id fun hdrains => ?_
      have hpos : 0 < todo.countP Action.drains := List.countP_pos_iff.mpr hdrains
      by_cases hd : a.drains = true
      · have hmem := load_pos ha.thread hd
        rw [if_pos hd] at hload
        omega
      · rw [if_neg hd] at hload
        omega
    by_cases hd : a.drains = true
    · have hmeets := perform_drains (s := s) hd hstore hσ.unlocked hσ.replies hopen
        (hs a (outstanding_of_acts ha)) hb
      obtain hempty | hmore := ha.meets hmeets (hlook.before ha.journal)
      · exact first hempty
      · have hmem := load_pos ha.thread hd
        rw [if_pos hd] at hload
        right
        omega
    · obtain hempty | hpos := hw
      · exact first hempty
      · rw [if_neg hd] at hload
        right
        omega
  | rested i old more hi hold hw' ht =>
    exact moved (by rw [hw']) (Nat.le_of_eq (load_of_rest concern_drains hi hold hw' ht).symm)
  | served i n rest j hj hi hb' ht =>
    exact moved (congrArg Books.store hb')
      (Nat.le_of_eq (load_of_served concern_drains hj hi hb' ht).symm)
  | started k j hj hb' ht =>
    exact moved (congrArg Books.store hb')
      (Nat.le_of_eq (load_of_started concern_drains hj hb' ht).symm)
  | asked q hq hw' ht =>
    refine moved (by rw [hw']) ?_
    rw [load_of_new (by rw [hw']) ht]
    exact Nat.le_add_right ..
  | scripted m hm hb' ht =>
    refine moved (congrArg Books.store hb') (Nat.le_of_eq ?_)
    rw [load, load, ht, World.waiting_of_pending (World.pending_of_books hb')]
  | ordered d customer item price x hx hb' ht =>
    refine moved (congrArg Books.store hb') ?_
    rw [load_of_new (congrArg Books.pending hb') ht]
    exact Nat.le_add_right ..

theorem Idle.solely (hidle : σ.Idle) : σ.Solely c := by
  intro a ha
  rw [hidle.outstanding] at ha
  exact absurd ha List.not_mem_nil

theorem Idle.looped (hidle : σ.Idle) : ∀ agenda ∈ σ.threads, Looped c agenda := by
  intro agenda ha
  rw [hidle.2 agenda ha]
  exact .inl trivial

/-- A drain job of the coordinator waits, is under way, or is about to be spawned. -/
theorem Solely.drain_job (hs : σ.Solely c) (hl : ∀ agenda ∈ σ.threads, Looped c agenda)
    (hpos : 0 < σ.load Action.drains) :
    ⟨c, .drain⟩ ∈ σ.world.pending ∨ (∃ agenda ∈ σ.threads, .finish ⟨c, .drain⟩ ∈ agenda) ∨
      ∃ rest, .drain c :: rest ∈ σ.threads := by
  have held : ∀ agenda, Held c agenda → ∀ a ∈ agenda, a.drains = true →
      .finish ⟨c, .drain⟩ ∈ agenda := by
    intro agenda
    induction agenda with
    | nil => exact fun _ a ha => absurd ha List.not_mem_nil
    | cons b rest ih =>
      intro hb a ha hd
      obtain rfl | ha := List.mem_cons.mp ha
      · exact List.mem_cons_of_mem _ (hb.1 hd)
      · exact List.mem_cons_of_mem _ (ih hb.2 a ha hd)
  simp only [load, Nat.add_pos_iff_pos_or_pos, List.countP_pos_iff, World.waiting] at hpos
  obtain ⟨a, ha, hd⟩ | ⟨j, hj, hd⟩ := hpos
  · obtain ⟨agenda, hagenda, ha⟩ := List.mem_flatten.mp ha
    obtain h | ⟨rest, rfl, h⟩ := hl agenda hagenda
    · exact .inr (.inl ⟨agenda, hagenda, held agenda h a ha hd⟩)
    · exact .inr (.inr ⟨rest, hagenda⟩)
  · obtain ⟨d, work⟩ := j
    obtain rfl := drains_attempt hd
    have hwaits : .attempt ⟨d, .drain⟩ 0 ∈ σ.outstanding := mem_outstanding.mpr (.inr ⟨_, hj, rfl⟩)
    obtain rfl : d = c := hs _ hwaits d rfl
    exact .inl hj

end Happenings

/-! ## Histories -/

/-- The thread has ended, or it sleeps. -/
def resting : List Action → Bool
  | [] => true
  | .pause _ :: _ => true
  | .serve _ :: _ => true
  | _ => false

/-- In a history in which one coordinator alone uses a queue store that was unused at first, jobs
are not turned away, and so far no drain job has handed a failure over and no look has made the
store panic: a store that is not empty has a drain job that waits or is under way, or the task has
been added this moment and the job is the next thing to be spawned; while all threads rest a drain
job waits or sleeps; and once nothing is left to be done the store is empty and nothing is
counted. -/
theorem tasks_keep_loop (s : Setup) (c : CoordinatorRef) (σ₀ σ₁ : System)
    (happenings : List Happening) (hstore : s.hasStore = true) (h₀ : σ₀.Orderly s)
    (hidle : σ₀.Idle) (hopen : σ₀.world.Open) (hunused : σ₀.world.Unused c)
    (hwhole : ∀ h ∈ happenings, h.Whole s) (hof : ∀ h ∈ happenings, h.Of c)
    (h₁ : after? s happenings σ₀ = some σ₁)
    (hkept : ∀ f, Event.remarked (.drainGivenUp f) ∉ σ₁.world.journal)
    (hcalm : Event.panicked .peek ∉ σ₁.world.journal) :
    (σ₁.world.collaborators.store ≠ [] →
      ⟨c, .drain⟩ ∈ σ₁.world.pending ∨
      (∃ agenda ∈ σ₁.threads, .finish ⟨c, .drain⟩ ∈ agenda) ∨
      ∃ rest, .drain c :: rest ∈ σ₁.threads) ∧
    (σ₁.world.collaborators.store ≠ [] → (∀ agenda ∈ σ₁.threads, resting agenda = true) →
      ⟨c, .drain⟩ ∈ σ₁.world.pending ∨
      ∃ agenda ∈ σ₁.threads, .finish ⟨c, .drain⟩ ∈ agenda) ∧
    (σ₁.Idle → σ₁.world.collaborators.store = [] ∧ σ₁.world.queuedItems c = 0) := by
  -- What is on record at the end holds for every moment before, so the induction looks back.
  obtain ⟨ho, -, hs, hl, hb, hw⟩ : σ₁.Orderly s ∧ σ₁.world.Open ∧ σ₁.Solely c ∧
      (∀ agenda ∈ σ₁.threads, Looped c agenda) ∧ σ₁.world.books.Balanced c ∧
      (σ₁.world.LooksOn → σ₁.Watched) := by
    refine after?_induct (P := fun υ => υ.Orderly s ∧ υ.world.Open ∧ υ.Solely c ∧
      (∀ agenda ∈ υ.threads, Looped c agenda) ∧ υ.world.books.Balanced c ∧
      (υ.world.LooksOn → υ.Watched)) ?_ h₁
      ⟨h₀, hopen, hidle.solely, hidle.looped, hunused.balanced, fun _ => .inl hunused.store⟩
    rintro h hh υ ω hω ⟨ho, hopen, hs, hl, hb, hw⟩
    exact ⟨ho.happen (hwhole h hh) hω, ho.open_happen hω hopen,
      hs.passage (hof h hh) (ho.passage hω), hs.looped hl (ho.motion hω),
      balanced_passage hs (ho.passage hω) hb,
      fun hlook => (hw (hlook.before (happen_journal hω))).happen ho hstore hopen hs hb hω hlook⟩
  have hwatched : σ₁.Watched := hw ⟨hkept, hcalm⟩
  have hjob (hne : σ₁.world.collaborators.store ≠ []) :=
    hs.drain_job hl (hwatched.resolve_left hne)
  refine ⟨hjob, fun hne hrest => ?_, fun hidle₁ => ?_⟩
  · obtain hwait | hunder | ⟨rest, hnext⟩ := hjob hne
    · exact .inl hwait
    · exact .inr hunder
    · cases hrest _ hnext
  · have hempty : σ₁.world.collaborators.store = [] := by
      refine hwatched.resolve_right ?_
      rw [hidle₁.load]
      exact Nat.lt_irrefl 0
    exact ⟨hempty, by rw [hb.queuedItems, hempty]; rfl⟩

/-- The payment of an order is queued while its first attempt waits; the drain job has another one
spawned and sleeps. -/
def queuedAndAsleep : List Happening :=
  .order 0 ⟨"Jim", "ABCD"⟩ "book" 10 ::
    [.act 0, .act 0, .act 0, .act 0, .ask (.enqueue 0 (.payment 0)), .act 1, .start 1, .act 2,
      .act 2, .act 2, .start 1, .act 3, .act 3, .act 3].map .move

theorem queuedAndAsleep_keeps_loop :
    ∃ σ₁, after? {} queuedAndAsleep newShop = some σ₁ ∧
      σ₁.world.collaborators.store = [(Task.payment 0).markFirstAttempt 5] ∧
      (⟨0, .drain⟩ ∈ σ₁.world.pending ∨
        ∃ agenda ∈ σ₁.threads, .finish ⟨0, .drain⟩ ∈ agenda) := by
  refine ⟨_, rfl, rfl, ?_⟩
  have h := tasks_keep_loop {} 0 newShop _ queuedAndAsleep rfl (newShop_orderly {})
    ⟨rfl, by simp [newShop]⟩ ⟨rfl, rfl⟩ ⟨rfl, rfl, rfl, rfl, rfl⟩
    (by simp [queuedAndAsleep, Happening.Whole, Move.Whole])
    (by simp [queuedAndAsleep, Happening.Of, Request.owner]) rfl
    (World.looksOn_of_any rfl).kept (World.looksOn_of_any rfl).calm
  exact h.2.1 (by decide) (List.all_eq_true.mp rfl)

end System
end Fulfilment
