import Fulfilment.Proofs.Run
import Fulfilment.Proofs.Stage.Background
import Fulfilment.Proofs.Retry.Exact

/-! The attempts of a job are one use of a retry. A run makes them step by step, with the waits on
its agenda; a retry repeats one operation. Both fail, wait and stop alike.

* `failure?`: what the next attempt of a job fails with.
* `Run.tryAgain`: the next attempt as the operation of a retry, after the wait that is due.
* `Run.Reaches`: after these waits a run faces an attempt that is not repeated.
* `Run.follows_perform?`: where a run gets when the retry has made its use.
* `Run.reaches_last`: it gets there under every limit but the greatest. -/
namespace Fulfilment

set_option autoImplicit false

/-! ## Sleeps -/

def Event.slept? : Event → Option Span
  | .slept d => some d
  | _ => none

/-- The sleeps on record, the latest first. -/
def World.slept (w : World) : List Span := w.journal.filterMap Event.slept?

theorem World.slept_eq_background (w : World) :
    w.slept = w.background.filterMap Event.slept? := by
  unfold slept background
  rw [List.filterMap_filter]
  congr 1
  funext e
  cases e <;> rfl

theorem Edits.slept {w v : World} (h : Edits Event.isOfCall w v) : v.slept = w.slept := by
  rw [World.slept_eq_background, World.slept_eq_background, h.background]

/-! ## One attempt -/

section Attempt
variable {s : Setup} {j : Job} {w : World} {f : Failure}

/-- What the next attempt of a job fails with: the next scripted failure of its service, else the
refusal of its call. -/
def failure? (s : Setup) (j : Job) (w : World) : Option Failure :=
  match (w.popFault j.work.service).1, (checkAndCall s j w).2 with
  | some f, _ => some f
  | none, .refused f => some f
  | none, _ => none

theorem answer_draws (work : Work) (r : Reply) (w : World) :
    (answer work r w).1.draws = w.draws := by
  unfold answer
  split
  · rfl
  · split
    · rfl
    · exact fulfil_draws work r.empty w

theorem checkAndCall_draws (j : Job) (w : World) : (checkAndCall s j w).1.draws = w.draws := by
  have htaken (k : CallKind) :
      ((w.record (.called (callOf j.work w))).takeReply k).2.draws = w.draws := by
    obtain h | ⟨r, -, h⟩ := (w.record (.called (callOf j.work w))).takeReply_cases k
    · rw [h]
      rfl
    · rw [h]
      rfl
  unfold checkAndCall
  split
  · simp only
    split
    · exact htaken _
    · exact (answer_draws _ _ _).trans (htaken _)
  · rfl

/-- A failure of an attempt is met after edits that neither draw nor sleep. -/
theorem attempt_of_failure (hw : w.Unlocked) (hf : failure? s j w = some f) :
    ∃ v, (∀ n, attempt s j n w = failed s j n f v) ∧ Edits Event.isOfCall w v ∧
      v.draws = w.draws := by
  unfold failure? at hf
  cases hpop : (w.popFault j.work.service).1 with
  | some g =>
    rw [hpop] at hf
    cases hf
    refine ⟨(w.popFault j.work.service).2.remark (rejection j.work f (w.popFault j.work.service).2),
      fun n => ?_, ?_, rfl⟩
    · rw [attempt_eq s j n w hw, ← Prod.mk.eta (p := w.popFault j.work.service), hpop]
    · have hpopped : Edits Event.isOfCall w (w.popFault j.work.service).2 := edits_aside rfl rfl
      exact hpopped.trans (edits_record _ rfl)
  | none =>
    rw [hpop] at hf
    cases hcall : (checkAndCall s j w).2 with
    | refused g =>
      rw [hcall] at hf
      cases hf
      refine ⟨(checkAndCall s j w).1, fun n => ?_, checkAndCall_edits j w, checkAndCall_draws j w⟩
      rw [attempt_eq s j n w hw, ← Prod.mk.eta (p := w.popFault j.work.service), hpop]
      show settle s j n (checkAndCall s j w).2 (checkAndCall s j w).1 = _
      rw [hcall]
      rfl
    | skipped | accepted | panicked | interrupted =>
      rw [hcall] at hf
      cases hf

end Attempt

/-! ## Steps -/

namespace Run
variable {s : Setup} {j : Job} {n : UInt32} {w : World} {f : Failure}

/-- A run that is about to attempt the job, after `n` failed attempts. -/
abbrev facing (j : Job) (n : UInt32) (rest : List Action) (w : World) : Run :=
  { world := w, agenda := .attempt j n :: rest }

/-- The wait after a failure, with `n` failed attempts before it. -/
def backoff (s : Setup) (n : UInt32) (w : World) : Span :=
  Backoff.delay (n + 1) s.config.retry.maxDelay (w.draws.below Backoff.jitterBound).1

/-- A failure that is repeated leaves the wait and the next attempt to do. -/
theorem step_facing (rest : List Action) (hw : w.Unlocked) (hf : failure? s j w = some f)
    (hrepeats : Retry.repeats s.config.retry.retries (n + 1) f.isOutage = true) :
    ∃ v, step s (facing j n rest w) =
        { world := v, agenda := .pause (backoff s n w) :: .attempt j (n + 1) :: rest } ∧
      v.draws = (w.draws.below Backoff.jitterBound).2 ∧ v.slept = w.slept := by
  obtain ⟨u, hu, hedits, hdraws⟩ := attempt_of_failure hw hf
  have hfailed : attempt s j n w =
      .next u.drawJitter.2 [.pause (backoff s n u), .attempt j (n + 1)] := by
    rw [hu, failed, if_pos hrepeats]
    rfl
  have hbackoff : backoff s n u = backoff s n w := by rw [backoff, hdraws, backoff]
  refine ⟨u.drawJitter.2, ?_, ?_, hedits.slept⟩
  · rw [step_cons, perform, hfailed, hbackoff]
    rfl
  · rw [← hdraws]
    rfl

/-- A wait in which no other job runs. -/
theorem step_pause (rest : List Action) (hquiet : s.dispatch = .deferred → s.sleepRuns = 0)
    (d : Span) (w : World) :
    ∃ v, step s { world := w, agenda := .pause d :: rest } = { world := v, agenda := rest } ∧
      v.draws = w.draws ∧ v.slept = d :: w.slept := by
  have hserve : ¬ (s.dispatch = .deferred ∧ 0 < s.sleepRuns) := by
    rintro ⟨hdeferred, hruns⟩
    exact absurd (hquiet hdeferred) hruns.ne'
  refine ⟨if s.sleepsPass then (w.record (.slept d)).advance d else w.record (.slept d), ?_, ?_, ?_⟩
  · rw [step_cons, perform, pause, if_neg hserve]
    rfl
  · split <;> rfl
  · split <;> rfl

/-! ## The operation of the retry -/

/-- After the wait that is due, if there is one. -/
def awake (s : Setup) (r : Run) : Run :=
  match r.agenda with
  | .pause _ :: _ => r.step s
  | _ => r

/-- The next attempt of the job, after the wait that is due. -/
def tryAgain (s : Setup) (j : Job) (r : Run) : Option Failure × Run :=
  (failure? s j (r.awake s).world, (r.awake s).step s)

/-- A failure that is repeated: the attempt and the wait after it, and the operation that finds
this wait due. -/
theorem step_step_facing (rest : List Action) (hquiet : s.dispatch = .deferred → s.sleepRuns = 0)
    (hw : w.Unlocked) (hf : failure? s j w = some f)
    (hrepeats : Retry.repeats s.config.retry.retries (n + 1) f.isOutage = true) :
    ∃ v, step s (step s (facing j n rest w)) = facing j (n + 1) rest v ∧
      tryAgain s j (step s (facing j n rest w)) = tryAgain s j (facing j (n + 1) rest v) ∧
      v.draws = (w.draws.below Backoff.jitterBound).2 ∧ v.slept = backoff s n w :: w.slept := by
  obtain ⟨u, hu, hdraws, hslept⟩ := step_facing rest hw hf hrepeats
  obtain ⟨v, hv, hvdraws, hvslept⟩ :=
    step_pause (.attempt j (n + 1) :: rest) hquiet (backoff s n w) u
  have hawake : (step s (facing j n rest w)).awake s = facing j (n + 1) rest v := by
    rw [hu]
    exact hv
  refine ⟨v, ?_, ?_, hvdraws.trans hdraws, ?_⟩
  · rw [hu, hv]
  · rw [tryAgain, hawake]
    rfl
  · rw [hvslept, hslept]

end Run

/-- The retry repeats as jobs are repeated under this setup. -/
structure Retry.Suits (a : Retry) (s : Setup) : Prop where
  limit : a.limit = s.config.retry.retries
  maxDelay : a.maxDelay = s.config.retry.maxDelay
  predicates : a.predicates = []

/-- A new retry for a job. -/
def Setup.retry (s : Setup) : Retry :=
  { limit := s.config.retry.retries, maxDelay := s.config.retry.maxDelay }

theorem Setup.suits_retry (s : Setup) : s.retry.Suits s := ⟨rfl, rfl, rfl⟩

namespace Retry
variable {s : Setup} {a : Retry}

theorem Suits.record (h : a.Suits s) (f : Failure) : (a.record f).Suits s :=
  ⟨h.limit, h.maxDelay, h.predicates⟩

/-- Retry and run ask the same question after a failure. -/
theorem Suits.repeats (h : a.Suits s) (f : Failure) :
    Retry.repeats a.limit (a.record f).attempts (a.accepts f) =
      Retry.repeats s.config.retry.retries (a.attempts + 1) f.isOutage := by
  have haccepts : a.accepts f = f.isRetryable := by
    rw [accepts, h.predicates]
    rfl
  rw [haccepts, f.isRetryable_eq_isOutage, h.limit]
  rfl

/-- All that counts of a state is what the operation makes of it. -/
theorem perform?_congr {σ : Type} {operation : σ → Option Failure × σ} {t u : σ}
    (h : operation t = operation u) (fuel : Nat) (r : Retry) (draws : Draws) (report : Report) :
    perform? operation fuel r draws t report = perform? operation fuel r draws u report := by
  cases fuel with
  | zero => rfl
  | succ fuel => rw [perform?, perform?, h]

end Retry

/-! ## The loop -/

namespace Run
variable {s : Setup} {j : Job} {rest : List Action} {n : UInt32} {w v : World}

/-- A run that faces an attempt in the world `w` faces one that is not repeated in the world `v`,
with these waits in between. -/
structure Reaches (s : Setup) (j : Job) (rest : List Action) (n : UInt32) (w : World)
    (pauses : List Span) (v : World) : Prop where
  /-- Each failure that is repeated takes two steps, the attempt and the wait. -/
  steps : (step s)^[2 * pauses.length] (facing j n rest w) =
    facing j (n + .ofNat pauses.length) rest v
  slept : v.slept = pauses.reverse ++ w.slept
  last : ∀ f, failure? s j v = some f →
    ∃ u, attempt s j (n + .ofNat pauses.length) v = handOver s j f u ∧ Edits Event.isOfCall v u

theorem Reaches.here (hw : w.Unlocked) (hstop : ∀ f, failure? s j w = some f →
    Retry.repeats s.config.retry.retries (n + 1) f.isOutage = false) :
    Reaches s j rest n w [] w := by
  have hcount : n + .ofNat ([] : List Span).length = n := UInt32.add_zero n
  refine ⟨?_, rfl, ?_⟩
  · rw [hcount]
    rfl
  · intro f hf
    obtain ⟨u, hu, hedits, -⟩ := attempt_of_failure hw hf
    refine ⟨u, ?_, hedits⟩
    rw [hcount, hu, failed, hstop f hf, if_neg Bool.false_ne_true]

theorem Reaches.later {u : World} {d : Span} {pauses : List Span}
    (hu : step s (step s (facing j n rest w)) = facing j (n + 1) rest u)
    (hd : u.slept = d :: w.slept) (h : Reaches s j rest (n + 1) u pauses v) :
    Reaches s j rest n w (d :: pauses) v := by
  have hcount : n + .ofNat (d :: pauses).length = n + 1 + .ofNat pauses.length := by
    rw [List.length_cons, Nat.add_comm, UInt32.ofNat_add, ← UInt32.add_assoc]
    rfl
  refine ⟨?_, ?_, ?_⟩
  · rw [hcount, List.length_cons, Nat.mul_succ, Function.iterate_succ_apply,
      Function.iterate_succ_apply, hu, h.steps]
  · rw [h.slept, hd, List.reverse_cons, List.append_assoc]
    rfl
  · rw [hcount]
    exact h.last

/-- Where the run makes its last attempt, the retry invokes its operation for the last time. -/
theorem perform?_of_stop {fuel : Nat} {a : Retry} {draws : Draws} {report : Retry.Report}
    (ha : a.Suits s) (hstop : ∀ f, failure? s j w = some f →
      Retry.repeats s.config.retry.retries (a.attempts + 1) f.isOutage = false)
    (hreport : report.handled = none) :
    ∃ a', Retry.perform? (tryAgain s j) (fuel + 1) a draws (facing j a.attempts rest w) report =
      some (a', draws, step s (facing j a.attempts rest w),
        ⟨report.invocations + 1, report.sleeps, failure? s j w⟩) := by
  have hoperation : tryAgain s j (facing j a.attempts rest w) =
      (failure? s j w, step s (facing j a.attempts rest w)) := rfl
  cases hf : failure? s j w with
  | none =>
    rw [hf] at hoperation
    refine ⟨a, ?_⟩
    rw [Retry.perform?_success fuel _ report (congrArg Prod.fst hoperation), hoperation,
      Retry.Report.invoked, hreport]
  | some f =>
    rw [hf] at hoperation
    refine ⟨a.record f, ?_⟩
    rw [Retry.perform?_failure fuel _ report (congrArg Prod.fst hoperation), ha.repeats f,
      hstop f hf, if_neg Bool.false_ne_true, hoperation]

/-- When the retry has made its use, a run that faced the first of these attempts has made the
last one: both have slept as often and as long, and what the retry reports as handed over is what
the run hands over. -/
theorem follows_perform? {fuel : Nat} {a a' : Retry} {draws' : Draws} {r' : Run}
    {report report' : Retry.Report} (h : (facing j a.attempts rest w).Orderly s)
    (hquiet : s.dispatch = .deferred → s.sleepRuns = 0) (ha : a.Suits s)
    (hp : Retry.perform? (tryAgain s j) fuel a w.draws (facing j a.attempts rest w) report =
      some (a', draws', r', report')) (hreport : report.handled = none) :
    ∃ pauses v, Reaches s j rest a.attempts w pauses v ∧
      r' = (step s)^[2 * pauses.length + 1] (facing j a.attempts rest w) ∧ draws' = v.draws ∧
      report'.sleeps = report.sleeps ++ pauses ∧
      report'.invocations = report.invocations + pauses.length + 1 ∧
      report'.handled = failure? s j v := by
  -- Two steps of the run, an attempt and the wait after it, go with one round of the retry.
  induction fuel generalizing a w report with
  | zero => cases hp
  | succ fuel ih =>
    by_cases hstop : ∀ f, failure? s j w = some f →
        Retry.repeats s.config.retry.retries (a.attempts + 1) f.isOutage = false
    · obtain ⟨a'', hlast⟩ := perform?_of_stop ha hstop hreport
      rw [hlast] at hp
      cases hp
      exact ⟨[], w, .here h.unlocked hstop, rfl, rfl, (List.append_nil _).symm, rfl, rfl⟩
    · push Not at hstop
      obtain ⟨f, hf, hgoes⟩ := hstop
      have hrepeats : Retry.repeats s.config.retry.retries (a.attempts + 1) f.isOutage = true :=
        Bool.eq_true_of_not_eq_false hgoes
      have hoperation : tryAgain s j (facing j a.attempts rest w) =
          (some f, step s (facing j a.attempts rest w)) := by
        rw [← hf]
        rfl
      obtain ⟨u, hu, hagain, hdraws, hslept⟩ := step_step_facing rest hquiet h.unlocked hf hrepeats
      rw [Retry.perform?_failure fuel _ report (congrArg Prod.fst hoperation), hoperation,
        ha.repeats f, hrepeats, if_pos rfl, Retry.perform?_congr hagain, ← hdraws,
        ha.maxDelay] at hp
      have hnext : (facing j (a.record f).attempts rest u).Orderly s := hu ▸ h.step.2.step.2
      obtain ⟨pauses, v, hreaches, hr', hv, hsleeps, hinvocations, hhandled⟩ :=
        ih hnext (ha.record f) hp hreport
      refine ⟨backoff s a.attempts w :: pauses, v, hreaches.later hu hslept, ?_, hv, ?_, ?_,
        hhandled⟩
      · rw [List.length_cons, Nat.mul_succ, Nat.add_right_comm, Function.iterate_succ_apply,
          Function.iterate_succ_apply, hu, hr']
        rfl
      · rw [hsleeps, List.append_assoc]
        rfl
      · have hone : report.invocations + 1 + pauses.length + 1 =
            report.invocations + (pauses.length + 1) + 1 := by omega
        exact hinvocations.trans hone

/-- Under every limit but the greatest a run that faces the first attempt of a job comes to the
last one, after at most as many waits as the limit allows, each as long as its number and its draw
demand. -/
theorem reaches_last (h : (facing j 0 rest w).Orderly s)
    (hquiet : s.dispatch = .deferred → s.sleepRuns = 0)
    (hlimit : s.config.retry.retries.toNat + 1 < UInt32.size) :
    ∃ k ≤ s.config.retry.retries.toNat, ∃ v,
      Reaches s j rest 0 w ((List.range k).map (Retry.pause s.retry w.draws)) v := by
  obtain ⟨k, hle, hk, hfew⟩ :=
    Retry.exists_ends_of_lt (tryAgain s j) (facing j 0 rest w) (r := s.retry) rfl hlimit
  have hfirst : ∀ i < k, ¬ Retry.Ends (tryAgain s j) (facing j 0 rest w) s.retry i := by
    intro i hi hends
    exact absurd (hk.2 hends) (Nat.not_le_of_lt hi)
  have hperform := Retry.perform?_of_ends hfirst hk.1 rfl hfew w.draws (k + 1)
    (Nat.lt_succ_self k) {} rfl
  obtain ⟨pauses, v, hreaches, -, -, hsleeps, -⟩ :=
    follows_perform? h hquiet s.suits_retry hperform rfl
  have hpauses : (List.range k).map (Retry.pause s.retry w.draws) = pauses := hsleeps
  refine ⟨k, hle, v, ?_⟩
  rw [hpauses]
  exact hreaches

end Run
end Fulfilment
