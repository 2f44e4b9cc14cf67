import Mathlib.Algebra.Group.Nat.Defs
import Fulfilment.Proofs.Retry.Bound

/-! How long a retry waits.

* `Backoff.delay_eq`: saturating words do not show; a delay is the exact one, capped.
* `Retry.Steady`: each wait lies in the second that its number stands for, and none is shorter than
  one before it.
* `paced_of_lt`, `Paced.lt`: the waits of new retries are steady under every limit but the
  greatest. -/
namespace Fulfilment

set_option autoImplicit false

/-! ## One delay -/

namespace Backoff

/-- Two to the number of the attempt in seconds and the jitter, in milliseconds without a bound. -/
def exactMillis (attempt jitter : Nat) : Nat := 2 ^ attempt * 1000 + jitter

theorem millis_eq (attempt : UInt32) (jitter : Nat) :
    millis attempt jitter = min (exactMillis attempt.toNat jitter) (2 ^ 64 - 1) := by
  have hword : wordMax = 2 ^ 64 - 1 := rfl
  unfold millis factor exactMillis unitMillis
  rw [hword]
  split
  case isTrue h =>
    rw [Nat.pow_eq]
    omega
  case isFalse h =>
    have hpow : 2 ^ 64 ≤ 2 ^ attempt.toNat := Nat.pow_le_pow_right (by decide) (Nat.le_of_not_lt h)
    omega

theorem ofMillis_min (a b : Nat) :
    Span.ofMillis (min a b) = min (Span.ofMillis a) (Span.ofMillis b) :=
  Nat.mul_min_mul_right a b 1000000 |>.symm

/-- A delay is the exact one, capped by the largest word and by the longest wait. -/
theorem delay_eq (attempt : UInt32) (maxDelay : Span) (jitter : Nat) :
    delay attempt maxDelay jitter =
      min (min (Span.ofMillis (exactMillis attempt.toNat jitter)) (Span.ofMillis (2 ^ 64 - 1)))
        maxDelay := by
  rw [delay, millis_eq, ofMillis_min]

/-- Under a longest wait that fits a word of milliseconds it is the only cap. -/
theorem delay_ofMillis (attempt : UInt32) (jitter : Nat) {m : Nat} (hm : m < 2 ^ 64) :
    delay attempt (Span.ofMillis m) jitter =
      min (Span.ofMillis (exactMillis attempt.toNat jitter)) (Span.ofMillis m) := by
  have hword : Span.ofMillis m ≤ Span.ofMillis (2 ^ 64 - 1) :=
    Nat.mul_le_mul_right 1000000 (Nat.le_pred_of_lt hm)
  rw [delay_eq, Nat.min_assoc, Nat.min_eq_right hword]

/-- The wait after failure number `k` with this jitter, computed without a word. -/
def capped (maxDelay : Span) (k jitter : Nat) : Span :=
  min (min (Span.ofMillis (exactMillis k jitter)) (Span.ofMillis (2 ^ 64 - 1))) maxDelay

theorem capped_mono {maxDelay : Span} {k k' jitter jitter' : Nat}
    (h : exactMillis k jitter ≤ exactMillis k' jitter') :
    capped maxDelay k jitter ≤ capped maxDelay k' jitter' :=
  inf_le_inf_right _ (inf_le_inf_right _ (Nat.mul_le_mul_right 1000000 h))

/-- A further failure outweighs every jitter. -/
theorem exactMillis_le_of_lt {k k' jitter jitter' : Nat} (hk : k < k') (hj : jitter < 1000) :
    exactMillis k jitter ≤ exactMillis k' jitter' := by
  have hpow : 2 ^ (k + 1) ≤ 2 ^ k' := Nat.pow_le_pow_right (by decide) hk
  have hone : 1 ≤ 2 ^ k := Nat.one_le_two_pow
  unfold exactMillis
  rw [Nat.pow_succ] at hpow
  omega

end Backoff

/-! ## The waits of one use -/

namespace Retry

variable {σ κ : Type}

/-- Wait number `k` is two to the power `k` seconds and less than a second of jitter, capped; no
wait is shorter than one before it. -/
structure Steady (maxDelay : Span) (sleeps : List Span) : Prop where
  bounds : ∀ i (h : i < sleeps.length),
    Backoff.capped maxDelay (i + 1) 0 ≤ sleeps[i] ∧ sleeps[i] ≤ Backoff.capped maxDelay (i + 1) 999
  sorted : sleeps.Pairwise (· ≤ ·)

/-- Every use of a new retry with this limit ends, and its waits are steady. -/
def Paced (limit : UInt32) : Prop :=
  ∀ {σ κ : Type} (operation : σ → Option Failure × σ) (handler : κ → Failure → σ → σ) (context : κ)
    (maxDelay : Span) (predicates : List (Failure → Bool)) (draws : Draws) (s : σ),
    ∃ k r' draws' s' report,
      (∀ fuel, k < fuel →
        performFor? operation handler context fuel { limit, maxDelay, predicates } draws s =
          some (r', draws', s', report)) ∧
      report.sleeps.length = k ∧ Steady maxDelay report.sleeps

/-- Below the width of the counter the number of the failure is its count. -/
theorem pause_eq {r : Retry} (hr : r.errors = []) (draws : Draws) {k : Nat}
    (hk : k + 1 < UInt32.size) :
    pause r draws k = Backoff.capped r.maxDelay (k + 1) (jitter draws k) := by
  have hcount : (UInt32.ofNat (k + 1)).toNat = k + 1 := UInt32.toNat_ofNat_of_lt' hk
  rw [pause, hr, List.length_nil, Nat.zero_add, Backoff.delay_eq, hcount, Backoff.capped]

theorem steady_pauses {r : Retry} (hr : r.errors = []) (draws : Draws) {n : Nat}
    (hn : n < UInt32.size) : Steady r.maxDelay ((List.range n).map (pause r draws)) := by
  have hjitter (k : Nat) : jitter draws k < 1000 := jitter_lt draws k
  constructor
  · intro i hi
    rw [List.length_map, List.length_range] at hi
    rw [List.getElem_map, List.getElem_range, pause_eq hr draws (by omega)]
    have := hjitter i
    exact ⟨Backoff.capped_mono (by unfold Backoff.exactMillis; omega),
      Backoff.capped_mono (by unfold Backoff.exactMillis; omega)⟩
  · rw [List.pairwise_map]
    refine List.Pairwise.imp_of_mem (fun {i j} hi hj hij => ?_) List.pairwise_lt_range
    rw [List.mem_range] at hi hj
    rw [pause_eq hr draws (by omega), pause_eq hr draws (by omega)]
    exact Backoff.capped_mono (Backoff.exactMillis_le_of_lt (Nat.succ_lt_succ hij) (hjitter i))

/-! ## The counter starts again -/

/-- Fails as often as the state says. -/
def countdown (f : Failure) : Nat → Option Failure × Nat
  | 0 => (none, 0)
  | n + 1 => (some f, n)

/-- Under the greatest limit every failure of a countdown is waited after. -/
theorem perform?_countdown {r : Retry} (hc : r.Counted)
    (hlimit : r.limit.toNat + 1 = UInt32.size) {f : Failure} (hf : r.accepts f = true)
    (n fuel : Nat) (hfuel : n < fuel) (draws : Draws) (report : Report) :
    ∃ r' draws' s' report',
      perform? (countdown f) fuel r draws n report = some (r', draws', s', report') ∧
      report'.sleeps = report.sleeps ++ (List.range n).map (pause r draws) := by
  induction n generalizing r fuel draws report with
  | zero =>
    obtain ⟨fuel, rfl⟩ := Nat.exists_eq_add_of_lt hfuel
    rw [List.range_zero, List.map_nil, List.append_nil]
    exact ⟨_, _, _, _, perform?_success _ draws report rfl, rfl⟩
  | succ n ih =>
    obtain ⟨fuel, rfl⟩ := Nat.exists_eq_add_of_lt hfuel
    have hfails : (countdown f (n + 1)).1 = some f := rfl
    have hrepeats : repeats r.limit (r.record f).attempts (r.accepts f) = true := by
      rw [hf]
      exact repeats_of_greatest hlimit _
    have hcount : (r.record f).attempts = .ofNat (r.errors.length + (0 + 1)) := by
      rw [hc.record f, length_errors_record]
    have hpauses : pause r draws ∘ Nat.succ =
        pause (r.record f) (draws.below Backoff.jitterBound).2 := by
      funext j
      rw [Function.comp_apply, Nat.succ_eq_add_one, ← pause_succ r f]
    rw [perform?_failure _ draws report hfails, if_pos hrepeats]
    obtain ⟨r', draws', s', report', hrun, hsleeps⟩ := ih (hc.record f) hlimit hf
      (n + 1 + fuel) (by omega) (draws.below Backoff.jitterBound).2
      ⟨report.invocations + 1, report.sleeps ++ [Backoff.delay (r.record f).attempts r.maxDelay
        (draws.below Backoff.jitterBound).1], report.handled⟩
    refine ⟨r', draws', s', report', hrun, ?_⟩
    rw [hsleeps, List.range_succ_eq_map, List.map_cons, List.map_map, hpauses, hcount,
      List.append_assoc]
    rfl

/-- The wait for which the counter is zero again is shorter than the first one. -/
theorem not_sorted_pauses {r : Retry} (hr : r.errors = []) (draws : Draws)
    (hmax : Span.ofMillis 2000 ≤ r.maxDelay) {n : Nat} (hn : UInt32.size ≤ n) :
    ¬ ((List.range n).map (pause r draws)).Pairwise (· ≤ ·) := by
  intro hsorted
  obtain ⟨i, hi⟩ : ∃ i, i + 1 = UInt32.size := ⟨UInt32.size - 1, rfl⟩
  have hfirst : Span.ofMillis 2000 ≤ pause r draws 0 := by
    rw [pause_eq hr draws (by decide)]
    refine Nat.le_min.mpr ⟨Nat.le_min.mpr ⟨Nat.mul_le_mul_right 1000000 ?_, by decide⟩, hmax⟩
    exact Nat.le_add_right _ _
  have hlast : pause r draws i < Span.ofMillis 2000 := by
    have hzero : UInt32.ofNat (i + 1) = 0 := by rw [hi]; rfl
    have hjitter : jitter draws i < 1000 := jitter_lt draws i
    rw [pause, hr, List.length_nil, Nat.zero_add, hzero, Backoff.delay_eq]
    refine Nat.lt_of_le_of_lt (Nat.le_trans (Nat.min_le_left _ _) (Nat.min_le_left _ _)) ?_
    refine Nat.mul_lt_mul_of_pos_right ?_ (by decide)
    show 2 ^ 0 * 1000 + jitter draws i < 2000
    omega
  have hle : pause r draws 0 ≤ pause r draws i := by
    have hlength : ((List.range n).map (pause r draws)).length = n := by
      rw [List.length_map, List.length_range]
    have hpair := List.pairwise_iff_getElem.mp hsorted 0 i (by omega) (by omega) ?_
    · rwa [List.getElem_map, List.getElem_map, List.getElem_range, List.getElem_range] at hpair
    · have hsize : 1 < UInt32.size := by decide
      omega
  exact absurd (Nat.le_trans hfirst hle) (Nat.not_le_of_lt hlast)

/-- Under the greatest limit there is a use that ends and whose waits shrink. -/
theorem exists_unsorted {limit : UInt32} (hlimit : limit.toNat + 1 = UInt32.size)
    {maxDelay : Span} (hmax : Span.ofMillis 2000 ≤ maxDelay) (draws : Draws) :
    ∃ failures, ∀ fuel, failures < fuel → ∃ r' draws' s' report,
      performFor? (countdown .databaseUnavailable) (fun (_ : Unit) _ s => s) () fuel
        { limit, maxDelay } draws failures = some (r', draws', s', report) ∧
      ¬ report.sleeps.Pairwise (· ≤ ·) := by
  refine ⟨UInt32.size, fun fuel hfuel => ?_⟩
  obtain ⟨r', draws', s', report, hrun, hsleeps⟩ :=
    perform?_countdown (r := { limit, maxDelay }) rfl hlimit (f := .databaseUnavailable) rfl
      UInt32.size fuel hfuel draws {}
  have hunsorted : ¬ report.sleeps.Pairwise (· ≤ ·) := by
    have hnone : ({} : Report).sleeps = [] := rfl
    rw [hsleeps, hnone, List.nil_append]
    exact not_sorted_pauses (r := { limit, maxDelay }) rfl draws hmax (Nat.le_refl _)
  unfold performFor?
  rw [hrun]
  exact ⟨r', draws', _, report, rfl, hunsorted⟩

theorem paced_of_lt {limit : UInt32} (hless : limit.toNat + 1 < UInt32.size) : Paced limit := by
  intro σ κ operation handler context maxDelay predicates draws s
  obtain ⟨k, hle, hk, hfew⟩ :=
    exists_ends_of_lt operation s (r := { limit, maxDelay, predicates }) rfl hless
  change k ≤ limit.toNat at hle
  obtain ⟨r', s', report, hperform, hused⟩ := performFor?_of_ends handler context draws hk rfl hfew
  refine ⟨k, r', drawsAfter draws k, s', report, hperform, ?_, ?_⟩
  · rw [hused.sleeps, List.length_map, List.length_range]
  · rw [hused.sleeps]
    exact steady_pauses (r := { limit, maxDelay, predicates }) rfl draws (by omega)

theorem Paced.lt {limit : UInt32} (h : Paced limit) : limit.toNat + 1 < UInt32.size := by
  have hsize := limit.toNat_lt_size
  by_contra hless
  have hgreatest : limit.toNat + 1 = UInt32.size := by omega
  obtain ⟨failures, hrun⟩ := exists_unsorted hgreatest (Nat.le_refl _) {}
  obtain ⟨k, r', draws', s', report, huse, -, hsteady⟩ :=
    h (countdown .databaseUnavailable) (fun (_ : Unit) _ s => s) () (Span.ofMillis 2000) [] {}
      failures
  obtain ⟨r'', draws'', s'', report', huse', hunsorted⟩ := hrun (max k failures + 1) (by omega)
  rw [huse (max k failures + 1) (by omega)] at huse'
  cases huse'
  exact hunsorted hsteady.sorted

/-- A delay is exact up to its caps, for every attempt, jitter and longest wait. The waits of new
retries are steady under every limit but the greatest. -/
theorem delay_exact_and_paced_iff (limit attempt : UInt32) (jitter : Nat) (maxDelay : Span) :
    (Backoff.delay attempt maxDelay jitter =
      min (min (Span.ofMillis (2 ^ attempt.toNat * 1000 + jitter)) (Span.ofMillis (2 ^ 64 - 1)))
        maxDelay) ∧
    (∀ m < 2 ^ 64, Backoff.delay attempt (Span.ofMillis m) jitter =
      min (Span.ofMillis (2 ^ attempt.toNat * 1000 + jitter)) (Span.ofMillis m)) ∧
    (Paced limit ↔ limit.toNat + 1 < UInt32.size) :=
  ⟨Backoff.delay_eq attempt maxDelay jitter,
    fun _ hm => Backoff.delay_ofMillis attempt jitter hm, Paced.lt, paced_of_lt⟩

theorem delay_of_sixth_attempt :
    30000 < 2 ^ 64 ∧ Backoff.delay 6 (Span.ofMillis 30000) 999 = Span.ofMillis 30000 :=
  ⟨by decide, ((delay_exact_and_paced_iff 3 6 999 (Span.ofMillis 30000)).2.1 30000
    (by decide)).trans (by decide)⟩

/-- The greatest limit can be configured, and then waits can shrink: after 2 ^ 32 failures the
counter is at zero again. -/
theorem configured_unsorted :
    ∃ c, Config.ofSettings (fun name =>
        if name = Setting.numRetries.name then some "4294967295" else none) = .ok c ∧
      ∃ failures, ∀ fuel, failures < fuel → ∃ r' draws' s' report,
        performFor? (countdown .databaseUnavailable) (fun (_ : Unit) _ s => s) () fuel
          { limit := c.retry.retries, maxDelay := c.retry.maxDelay } {} failures =
            some (r', draws', s', report) ∧
        ¬ report.sleeps.Pairwise (· ≤ ·) :=
  ⟨{ retry := ⟨4294967295, ({} : Config).retry.maxDelay⟩ }, by decide,
    exists_unsorted (by decide) (by decide) {}⟩

end Retry
end Fulfilment
