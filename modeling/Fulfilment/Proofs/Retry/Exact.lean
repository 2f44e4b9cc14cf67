import Mathlib.Logic.Function.Iterate
import Mathlib.Order.Bounds.Basic
import Mathlib.Data.Nat.Find
import Fulfilment.Retry

/-! What one use of a retry does, whatever uses came before it.

* `Retry.answer`: what the operation would answer if it were invoked over and over.
* `Retry.Ends`: the answers after which nothing is repeated.
* `perform?_of_ends`: a use goes on to the first answer that ends it.
* `Retry.Concluded`: the handler is called once for a last answer that is a failure, else never.
* `Retry.Used`: the whole effect of a use, given its last invocation.
* `Retry.Reached`: the retries that uses leave; their counter counts their failures.
* `Retry.use_exact`: every use ends, with this effect, while the counter can count. -/
namespace Fulfilment.Retry

set_option autoImplicit false

variable {σ κ : Type}

/-! ## Answers -/

section Answers
variable (operation : σ → Option Failure × σ) (s : σ)

/-- The state when the operation was invoked `k` times. -/
def stateAfter (k : Nat) : σ := (fun t => (operation t).2)^[k] s

/-- Answer number `k`, the first being number 0. -/
def answer (k : Nat) : Option Failure := (operation (stateAfter operation s k)).1

/-- The failures among the first `n` answers. -/
def failuresIn (n : Nat) : List Failure := (List.range n).filterMap (answer operation s)

/-- Nothing is repeated after answer number `k`: it is a success, a failure that is not to be
repeated, or with those before it one failure more than are to be repeated. -/
def Ends (r : Retry) (k : Nat) : Prop :=
  answer operation s k = none ∨
    (∃ f, answer operation s k = some f ∧ r.accepts f = false) ∨
    r.limit.toNat < r.errors.length + (k + 1)

theorem stateAfter_succ (k : Nat) :
    stateAfter operation s (k + 1) = stateAfter operation (operation s).2 k :=
  Function.iterate_succ_apply _ k s

theorem answer_succ (k : Nat) :
    answer operation s (k + 1) = answer operation (operation s).2 k := by
  unfold answer
  rw [stateAfter_succ]

theorem failuresIn_succ (n : Nat) :
    failuresIn operation s (n + 1) =
      (operation s).1.toList ++ failuresIn operation (operation s).2 n := by
  have hzero : answer operation s 0 = (operation s).1 := rfl
  have hnext : answer operation s ∘ Nat.succ = answer operation (operation s).2 :=
    funext (answer_succ operation s)
  unfold failuresIn
  rw [List.range_succ_eq_map, List.filterMap_cons, hzero, List.filterMap_map, hnext]
  cases (operation s).1 with
  | none => rfl
  | some f => rfl

theorem length_failuresIn_le (n : Nat) : (failuresIn operation s n).length ≤ n := by
  have h := List.length_filterMap_le (answer operation s) (List.range n)
  rwa [List.length_range] at h

end Answers

/-! ## Waits -/

def drawsAfter (draws : Draws) (k : Nat) : Draws :=
  (fun d => (d.below Backoff.jitterBound).2)^[k] draws

/-- The jitter of wait number `k`, the first being number 0. -/
def jitter (draws : Draws) (k : Nat) : Nat :=
  ((drawsAfter draws k).below Backoff.jitterBound).1

/-- The wait after failure number `k` of a use. -/
def pause (r : Retry) (draws : Draws) (k : Nat) : Span :=
  Backoff.delay (.ofNat (r.errors.length + (k + 1))) r.maxDelay (jitter draws k)

theorem drawsAfter_succ (draws : Draws) (k : Nat) :
    drawsAfter draws (k + 1) = drawsAfter (draws.below Backoff.jitterBound).2 k :=
  Function.iterate_succ_apply _ k draws

theorem jitter_lt (draws : Draws) (k : Nat) : jitter draws k < Backoff.jitterBound :=
  Nat.mod_lt _ (by decide)

theorem length_errors_record (r : Retry) (f : Failure) :
    (r.record f).errors.length = r.errors.length + 1 := by
  show (r.errors ++ [f]).length = _
  rw [List.length_append, List.length_singleton]

theorem pause_succ (r : Retry) (f : Failure) (draws : Draws) (k : Nat) :
    pause (r.record f) (draws.below Backoff.jitterBound).2 k = pause r draws (k + 1) := by
  have hlength : (r.record f).errors.length + (k + 1) = r.errors.length + (k + 1 + 1) := by
    rw [length_errors_record]
    omega
  unfold pause jitter
  rw [hlength, drawsAfter_succ]
  rfl

/-! ## The loop -/

/-- The retry when further failures have been recorded. -/
def recorded (r : Retry) (failures : List Failure) : Retry :=
  { r with
    attempts := .ofNat (r.errors.length + failures.length), errors := r.errors ++ failures }

/-- The counter has counted the failures, up to its width. -/
def Counted (r : Retry) : Prop := r.attempts = .ofNat r.errors.length

theorem Counted.recorded_nil {r : Retry} (h : r.Counted) : r.recorded [] = r := by
  unfold recorded
  rw [List.append_nil, List.length_nil, Nat.add_zero, ← h]

theorem recorded_counted (r : Retry) (failures : List Failure) : (r.recorded failures).Counted := by
  unfold Counted recorded
  rw [List.length_append]

theorem Counted.record_eq {r : Retry} (h : r.Counted) (f : Failure) :
    r.record f = r.recorded [f] := by
  unfold Retry.record recorded
  rw [h, List.length_singleton, UInt32.ofNat_add]
  rfl

theorem Counted.record {r : Retry} (h : r.Counted) (f : Failure) : (r.record f).Counted := by
  rw [h.record_eq]
  exact recorded_counted r [f]

theorem recorded_record (r : Retry) (f : Failure) (failures : List Failure) :
    (r.record f).recorded failures = r.recorded (f :: failures) := by
  have hlength : (r.record f).errors.length + failures.length =
      r.errors.length + (f :: failures).length := by
    rw [length_errors_record, List.length_cons]
    omega
  have happend : (r.record f).errors ++ failures = r.errors ++ f :: failures :=
    List.append_assoc r.errors [f] failures
  unfold recorded
  rw [hlength, happend]
  rfl

theorem Counted.toNat {r : Retry} (h : r.Counted) (few : r.errors.length < UInt32.size) :
    r.attempts.toNat = r.errors.length := by
  rw [h, UInt32.toNat_ofNat']
  exact Nat.mod_eq_of_lt few

section Loop
variable {operation : σ → Option Failure × σ} {r : Retry} {s : σ} {f : Failure}

theorem ends_record (f : Failure) (k : Nat) :
    Ends operation (operation s).2 (r.record f) k ↔ Ends operation s r (k + 1) := by
  unfold Ends
  rw [answer_succ, length_errors_record, Nat.add_right_comm r.errors.length 1 (k + 1)]
  exact Iff.rfl

/-- The test of the loop is the one of `Ends`, as long as the counter has not started again. -/
theorem repeats_eq_false_iff (h : r.Counted) (few : r.errors.length + 1 < UInt32.size)
    (hs : (operation s).1 = some f) :
    repeats r.limit (r.record f).attempts (r.accepts f) = false ↔ Ends operation s r 0 := by
  have hcount : (r.record f).attempts.toNat = r.errors.length + 1 := by
    rw [← length_errors_record r f] at few ⊢
    exact (h.record f).toNat few
  have hanswer : answer operation s 0 = some f := hs
  unfold repeats Ends
  rw [hanswer, Nat.zero_add, ← hcount]
  simp only [Bool.and_eq_false_iff, Bool.not_eq_false', decide_eq_true_eq, UInt32.lt_iff_toNat_lt,
    reduceCtorEq, false_or, Option.some.injEq, exists_eq_left']

theorem perform?_success (fuel : Nat) (draws : Draws) (report : Report)
    (hs : (operation s).1 = none) :
    perform? operation (fuel + 1) r draws s report =
      some (r, draws, (operation s).2, report.invoked) := by
  unfold perform?
  split
  · next t h => rw [h]
  · next g t h => rw [h] at hs; cases hs

theorem perform?_failure (fuel : Nat) (draws : Draws) (report : Report)
    (hs : (operation s).1 = some f) :
    perform? operation (fuel + 1) r draws s report =
      if repeats r.limit (r.record f).attempts (r.accepts f) then
        perform? operation fuel (r.record f) (draws.below Backoff.jitterBound).2 (operation s).2
          ⟨report.invocations + 1, report.sleeps ++ [Backoff.delay (r.record f).attempts r.maxDelay
            (draws.below Backoff.jitterBound).1], report.handled⟩
      else some (r.record f, draws, (operation s).2,
        ⟨report.invocations + 1, report.sleeps, some f⟩) := by
  rw [perform?]
  split
  · next t h => rw [h] at hs; cases hs
  · next g t h =>
    rw [h] at hs ⊢
    cases hs
    rfl

/-- A use goes on to the first answer that ends it. -/
theorem perform?_of_ends {k : Nat} (first : ∀ j < k, ¬ Ends operation s r j)
    (last : Ends operation s r k) (hc : r.Counted)
    (few : r.errors.length + (failuresIn operation s (k + 1)).length < UInt32.size)
    (draws : Draws) (fuel : Nat) (hfuel : k < fuel) (report : Report)
    (hreport : report.handled = none) :
    perform? operation fuel r draws s report =
      some (r.recorded (failuresIn operation s (k + 1)), drawsAfter draws k,
        stateAfter operation s (k + 1),
        { invocations := report.invocations + (k + 1)
          sleeps := report.sleeps ++ (List.range k).map (pause r draws)
          handled := answer operation s k }) := by
  -- The induction is on the invocations that are left; the failure of each goes into the retry.
  induction k generalizing r s draws fuel report with
  | zero =>
    obtain ⟨fuel, rfl⟩ := Nat.exists_eq_add_of_lt hfuel
    rw [Nat.zero_add, List.range_zero, List.map_nil, List.append_nil]
    cases hs : (operation s).1 with
    | none =>
      have hnone : answer operation s 0 = none := hs
      have hfailures : failuresIn operation s 1 = [] := by rw [failuresIn_succ, hs]; rfl
      rw [perform?_success fuel draws report hs, hfailures, hc.recorded_nil, hnone, ← hreport]
      rfl
    | some f =>
      have hsome : answer operation s 0 = some f := hs
      have hfailures : failuresIn operation s 1 = [f] := by rw [failuresIn_succ, hs]; rfl
      rw [hfailures, List.length_singleton] at few
      have hstop := (repeats_eq_false_iff hc few hs).mpr last
      rw [perform?_failure fuel draws report hs, hstop, if_neg Bool.false_ne_true,
        hc.record_eq, hfailures, hsome]
      rfl
  | succ k ih =>
    obtain ⟨fuel, rfl⟩ := Nat.exists_eq_add_of_lt hfuel
    have hgoes := first 0 (Nat.succ_pos k)
    obtain ⟨f, hs⟩ : ∃ f, (operation s).1 = some f :=
      Option.ne_none_iff_exists'.mp fun hnone => hgoes (.inl hnone)
    have hfailures : failuresIn operation s (k + 1 + 1) =
        f :: failuresIn operation (operation s).2 (k + 1) := by
      rw [failuresIn_succ, hs]
      rfl
    rw [hfailures, List.length_cons] at few
    have hone : r.errors.length + 1 < UInt32.size := lt_of_le_of_lt (by omega) few
    have hrepeats : repeats r.limit (r.record f).attempts (r.accepts f) = true :=
      Bool.eq_true_of_not_eq_false fun hstop => hgoes ((repeats_eq_false_iff hc hone hs).mp hstop)
    have hfirst : ∀ j < k, ¬ Ends operation (operation s).2 (r.record f) j := by
      intro j hj hends
      exact first (j + 1) (Nat.succ_lt_succ hj) ((ends_record f j).mp hends)
    have hfew : (r.record f).errors.length + (failuresIn operation (operation s).2 (k + 1)).length <
        UInt32.size := by
      have hlength := length_errors_record r f
      omega
    have hcount : (r.record f).attempts = .ofNat (r.errors.length + (0 + 1)) := by
      rw [hc.record f, length_errors_record]
    have hsleeps : (List.range (k + 1)).map (pause r draws) =
        pause r draws 0 ::
          (List.range k).map (pause (r.record f) (draws.below Backoff.jitterBound).2) := by
      have hpauses : pause r draws ∘ Nat.succ =
          pause (r.record f) (draws.below Backoff.jitterBound).2 := by
        funext j
        rw [Function.comp_apply, Nat.succ_eq_add_one, ← pause_succ r f]
      rw [List.range_succ_eq_map, List.map_cons, List.map_map, hpauses]
    have hnext := fun waited => ih hfirst ((ends_record f k).mpr last) (hc.record f) hfew
      (draws.below Backoff.jitterBound).2 (k + 1 + fuel) (by omega)
      ⟨report.invocations + 1, waited, report.handled⟩ hreport
    rw [perform?_failure _ draws report hs, if_pos hrepeats, hnext, hfailures, recorded_record,
      ← drawsAfter_succ, ← stateAfter_succ, ← answer_succ, hsleeps, hcount, List.append_assoc]
    congr 5
    exact Nat.add_right_comm report.invocations 1 (k + 1)

/-- Answers that end a use come in the end: there is a limit. -/
theorem exists_ends (operation : σ → Option Failure × σ) (s : σ) (r : Retry) :
    ∃ k ≤ r.limit.toNat, IsLeast {j | Ends operation s r j} k := by
  classical
  have hlimit : Ends operation s r r.limit.toNat := .inr (.inr (by omega))
  have h : ∃ j, Ends operation s r j := ⟨_, hlimit⟩
  exact ⟨Nat.find h, Nat.find_min' h hlimit, Nat.find_spec h, fun j hj => Nat.find_min' h hj⟩

/-- Under every limit but the greatest they come to a new retry before its counter is full: there is
one failure for each invocation at most. -/
theorem exists_ends_of_lt (operation : σ → Option Failure × σ) (s : σ) {r : Retry}
    (hnew : r.errors = []) (hless : r.limit.toNat + 1 < UInt32.size) :
    ∃ k ≤ r.limit.toNat, IsLeast {j | Ends operation s r j} k ∧
      r.errors.length + (failuresIn operation s (k + 1)).length < UInt32.size := by
  obtain ⟨k, hle, hk⟩ := exists_ends operation s r
  refine ⟨k, hle, hk, ?_⟩
  have hfailures := length_failuresIn_le operation s (k + 1)
  rw [hnew, List.length_nil]
  omega

end Loop

/-! ## Uses -/

section Uses
variable {operation : σ → Option Failure × σ} {handler : κ → Failure → σ → σ} {context : κ}
  {r : Retry} {draws : Draws} {s : σ} {k : Nat}

/-- What is left of the last state: after a failure what the handler makes of it, called once and
with the context and this failure; after a success the state as it was. -/
def Concluded (handler : κ → Failure → σ → σ) (context : κ) (last : σ) : Option Failure → σ → Prop
  | none, s' => s' = last
  | some f, s' => s' = handler context f last

theorem concluded_handOver (handler : κ → Failure → σ → σ) (context : κ) (last : σ)
    (a : Option Failure) : Concluded handler context last a (handOver handler context a last) := by
  cases a with
  | none => rfl
  | some f => rfl

/-- All that a use of `r` does when answer number `k` is the one that ends it. -/
structure Used (operation : σ → Option Failure × σ) (handler : κ → Failure → σ → σ) (context : κ)
    (r : Retry) (draws : Draws) (s : σ) (k : Nat) (r' : Retry) (s' : σ) (report : Report) : Prop where
  settings : r' = { r with attempts := r'.attempts, errors := r'.errors }
  errors : r'.errors = r.errors ++ failuresIn operation s (k + 1)
  counter : r.attempts.toNat = r.errors.length
  attempts : r'.attempts.toNat = r.attempts.toNat + (failuresIn operation s (k + 1)).length
  invocations : report.invocations = k + 1
  sleeps : report.sleeps = (List.range k).map (pause r draws)
  /-- The numbers of the failures that are waited after fit the counter. -/
  numbered : r.errors.length + k < UInt32.size
  jittered : ∀ j < k, jitter draws j < Backoff.jitterBound
  handled : report.handled = answer operation s k
  state : Concluded handler context (stateAfter operation s (k + 1)) (answer operation s k) s'

theorem performFor?_of_ends (handler : κ → Failure → σ → σ) (context : κ) (draws : Draws)
    (hk : IsLeast {j | Ends operation s r j} k) (hc : r.Counted)
    (few : r.errors.length + (failuresIn operation s (k + 1)).length < UInt32.size) :
    ∃ r' s' report,
      (∀ fuel, k < fuel → r.performFor? operation handler context fuel draws s =
        some (r', drawsAfter draws k, s', report)) ∧
      Used operation handler context r draws s k r' s' report := by
  have hfirst : ∀ j < k, ¬ Ends operation s r j := fun j hj hends =>
    absurd (hk.2 hends) (Nat.not_le_of_lt hj)
  refine ⟨r.recorded (failuresIn operation s (k + 1)),
    handOver handler context (answer operation s k) (stateAfter operation s (k + 1)),
    ⟨k + 1, (List.range k).map (pause r draws), answer operation s k⟩, ?_, ?_⟩
  · intro fuel hfuel
    unfold performFor?
    rw [perform?_of_ends hfirst hk.1 hc few draws fuel hfuel {} rfl, Nat.zero_add, List.nil_append]
  · have hcounter := hc.toNat (lt_of_le_of_lt (Nat.le_add_right _ _) few)
    have hlength : (r.recorded (failuresIn operation s (k + 1))).errors.length =
        r.errors.length + (failuresIn operation s (k + 1)).length := List.length_append
    have hattempts := (recorded_counted r (failuresIn operation s (k + 1))).toNat (hlength ▸ few)
    rw [hlength, ← hcounter] at hattempts
    have hnumbered : r.errors.length + k < UInt32.size := by
      cases k with
      | zero => exact lt_of_le_of_lt (Nat.le_add_right _ _) few
      | succ j =>
        have hgoes : ¬ r.limit.toNat < r.errors.length + (j + 1) := fun h =>
          hfirst j (Nat.lt_succ_self j) (.inr (.inr h))
        exact lt_of_le_of_lt (Nat.le_of_not_lt hgoes) r.limit.toNat_lt_size
    exact {
      settings := rfl
      errors := rfl
      counter := hcounter
      attempts := hattempts
      invocations := rfl
      sleeps := rfl
      numbered := hnumbered
      jittered := fun j _ => jitter_lt draws j
      handled := rfl
      state := concluded_handOver handler context _ _ }

end Uses

/-! ## Scripted failures -/

/-- The operation takes the first of the failures that are left, and fails with it; anything else
it does leaves them alone. -/
structure Pops (operation : σ → Option Failure × σ) (left : σ → Faults) : Prop where
  fails : ∀ s f, (left s).pop.1 = some f → (operation s).1 = some f
  leaves : ∀ s, left (operation s).2 = (left s).pop.2

section Pops
variable {operation : σ → Option Failure × σ} {left : σ → Faults}

theorem Pops.left_stateAfter (h : Pops operation left) (s : σ) (n : Nat) :
    left (stateAfter operation s n) = (left s).drop n := by
  induction n generalizing s with
  | zero => rfl
  | succ n ih =>
    rw [stateAfter_succ, ih, h.leaves]
    cases left s with
    | nil => exact List.drop_nil
    | cons f rest => rfl

theorem Pops.take_prefix (h : Pops operation left) (s : σ) (n : Nat) :
    (left s).take n <+: failuresIn operation s n := by
  induction n generalizing s with
  | zero => exact List.nil_prefix
  | succ n ih =>
    have hrest := ih (operation s).2
    rw [h.leaves] at hrest
    rw [failuresIn_succ]
    cases hs : left s with
    | nil => exact List.nil_prefix
    | cons f rest =>
      rw [hs] at hrest
      rw [h.fails s f (by rw [hs]; rfl)]
      exact (List.prefix_append_right_inj [f]).mpr hrest

/-- Nor does the handler take any. -/
theorem Concluded.left_eq {handler : κ → Failure → σ → σ} {context : κ} {last s' : σ}
    {a : Option Failure} (h : Concluded handler context last a s')
    (hhandler : ∀ c f t, left (handler c f t) = left t) : left s' = left last := by
  cases a with
  | none =>
    have hs : s' = last := h
    rw [hs]
  | some f =>
    have hs : s' = handler context f last := h
    rw [hs, hhandler]

end Pops

/-! ## Repeated use -/

/-- A retry that is new or was used before, each time with any operation and in any state. -/
inductive Reached : Retry → Prop
  | new (limit : UInt32) (maxDelay : Span) (predicates : List (Failure → Bool)) :
      Reached { limit, maxDelay, predicates }
  | used {σ κ : Type} {r r' : Retry} {operation : σ → Option Failure × σ}
      {handler : κ → Failure → σ → σ} {context : κ} {fuel : Nat} {draws draws' : Draws} {s s' : σ}
      {report : Report} (before : Reached r)
      (use : r.performFor? operation handler context fuel draws s =
        some (r', draws', s', report)) : Reached r'

theorem perform?_counted {operation : σ → Option Failure × σ} {fuel : Nat} {r r' : Retry}
    {draws draws' : Draws} {s s' : σ} {report report' : Report} (h : r.Counted)
    (hp : perform? operation fuel r draws s report = some (r', draws', s', report')) :
    r'.Counted := by
  induction fuel generalizing r draws s report with
  | zero => cases hp
  | succ fuel ih =>
    cases hs : (operation s).1 with
    | none =>
      rw [perform?_success fuel draws report hs] at hp
      cases hp
      exact h
    | some f =>
      rw [perform?_failure fuel draws report hs] at hp
      split at hp
      · exact ih (h.record f) hp
      · cases hp
        exact h.record f

theorem Reached.counted {r : Retry} (h : Reached r) : r.Counted := by
  induction h with
  | new limit maxDelay predicates => rfl
  | used before use ih =>
    unfold performFor? at use
    split at use
    · cases use
    · next hp =>
      cases use
      exact perform?_counted ih hp

/-- A use ends with the first answer that ends it, and does exactly what that answer and those
before it demand, as long as the counter can count all failures. Scripted failures
are taken from the front, one by each invocation. -/
theorem use_exact {r : Retry} (h : Reached r) (operation : σ → Option Failure × σ)
    (handler : κ → Failure → σ → σ) (context : κ) (draws : Draws) (s : σ) :
    ∃ k, IsLeast {j | Ends operation s r j} k ∧
      (r.errors.length + (failuresIn operation s (k + 1)).length < UInt32.size →
        ∃ r' s' report,
          (∀ fuel, k < fuel → r.performFor? operation handler context fuel draws s =
            some (r', drawsAfter draws k, s', report)) ∧
          Used operation handler context r draws s k r' s' report ∧
          ∀ left : σ → Faults, Pops operation left →
            (∀ c f t, left (handler c f t) = left t) →
            (left s).take (k + 1) <+: failuresIn operation s (k + 1) ∧
            left s' = (left s).drop (k + 1)) := by
  obtain ⟨k, -, hk⟩ := exists_ends operation s r
  refine ⟨k, hk, fun few => ?_⟩
  obtain ⟨r', s', report, hperform, hused⟩ :=
    performFor?_of_ends handler context draws hk h.counted few
  refine ⟨r', s', report, hperform, hused, fun left hpops hhandler => ?_⟩
  refine ⟨hpops.take_prefix s (k + 1), ?_⟩
  rw [hused.state.left_eq hhandler, hpops.left_stateAfter]

/-- Faults that are left, and what a handler was called with. -/
abbrev Noted := Faults × List (String × Failure)

def Noted.pop (x : Noted) : Option Failure × Noted := (x.1.pop.1, x.1.pop.2, x.2)

def Noted.note (context : String) (f : Failure) (x : Noted) : Noted := (x.1, x.2 ++ [(context, f)])

/-- A failure that is not repeated was handed over; in a second use another one is repeated once,
and the one after it goes to the handler in its turn. The last of the faults is not touched. -/
theorem second_use_exact :
    ∃ r : Retry, Reached r ∧ r.errors = [.itemUnavailable] ∧ ∃ r' draws' report,
      r.performFor? Noted.pop Noted.note "second" 2 {}
        ([.databaseUnavailable, .shippingNotPossible, .paymentDetailsError],
          [("first", .itemUnavailable)]) =
        some (r', draws', ([.paymentDetailsError],
          [("first", .itemUnavailable), ("second", .shippingNotPossible)]), report) ∧
      r'.errors = [.itemUnavailable, .databaseUnavailable, .shippingNotPossible] ∧
      report.invocations = 2 ∧ report.sleeps = [Span.ofMillis 5] ∧
      report.handled = some .shippingNotPossible := by
  have huse : performFor? Noted.pop Noted.note "first" 1
      { limit := 3, maxDelay := Span.ofMillis 5 } {} ([.itemUnavailable], []) =
        some (⟨3, Span.ofMillis 5, [], 1, [.itemUnavailable]⟩, {}, ([], [("first", .itemUnavailable)]),
          ⟨1, [], some .itemUnavailable⟩) := rfl
  have hreached : Reached ⟨3, Span.ofMillis 5, [], 1, [.itemUnavailable]⟩ :=
    .used (.new 3 (Span.ofMillis 5) []) huse
  have hpops : Pops Noted.pop Prod.fst := ⟨fun _ _ h => h, fun _ => rfl⟩
  obtain ⟨k, hk, h⟩ := use_exact hreached Noted.pop Noted.note "second" {}
    ([.databaseUnavailable, .shippingNotPossible, .paymentDetailsError],
      [("first", .itemUnavailable)])
  obtain rfl : k = 1 := by
    have hone : k ≤ 1 := hk.2 (.inr (.inl ⟨.shippingNotPossible, rfl, rfl⟩))
    have hzero : k ≠ 0 := by
      rintro rfl
      obtain hnone | ⟨f, hf, haccepts⟩ | hlimit := hk.1
      · cases hnone
      · cases hf
        cases haccepts
      · exact absurd hlimit (by decide)
    omega
  obtain ⟨r', s', report, hperform, hused, hleft⟩ := h (by decide)
  have hfaults : s'.1 = [.paymentDetailsError] := (hleft Prod.fst hpops fun _ _ _ => rfl).2
  have hnotes : s'.2 = [("first", .itemUnavailable), ("second", .shippingNotPossible)] :=
    congrArg Prod.snd hused.state
  have hsleeps : report.sleeps = [Span.ofMillis 5] := by
    rw [hused.sleeps]
    decide +kernel
  obtain rfl : s' = (_, _) := Prod.ext hfaults hnotes
  exact ⟨_, hreached, rfl, r', _, report, hperform 2 (by decide), hused.errors, hused.invocations,
    hsleeps, hused.handled⟩

end Fulfilment.Retry
