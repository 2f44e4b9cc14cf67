import Fulfilment.Proofs.Retry.Exact
import Fulfilment.Config.Settings

/-! How often a new retry invokes its operation.

* `Retry.Bounded`: one invocation more than the limit at most, and no failure is lost from the count.
* `perform?_of_greatest`: under the greatest limit a failure that is repeated is repeated forever.
* `bounded_iff`: that limit is the only one without the bound. -/
namespace Fulfilment.Retry

set_option autoImplicit false

variable {σ κ : Type}

/-- Every use of a new retry with this limit ends after at most one invocation more than the limit,
with its counter at the number of its failures; the handler is called once for a last answer that
is a failure, else never. -/
def Bounded (limit : UInt32) : Prop :=
  ∀ {σ κ : Type} (operation : σ → Option Failure × σ) (handler : κ → Failure → σ → σ) (context : κ)
    (maxDelay : Span) (predicates : List (Failure → Bool)) (draws : Draws) (s : σ),
    ∃ k ≤ limit.toNat, ∃ r' draws' s' report,
      (∀ fuel, k < fuel →
        performFor? operation handler context fuel { limit, maxDelay, predicates } draws s =
          some (r', draws', s', report)) ∧
      Concluded handler context (stateAfter operation s (k + 1)) (answer operation s k) s' ∧
      report.invocations = k + 1 ∧ report.handled = answer operation s k ∧
      r'.attempts.toNat = r'.errors.length

/-- No 32-bit counter passes the greatest limit. -/
theorem repeats_of_greatest {limit : UInt32} (hlimit : limit.toNat + 1 = UInt32.size)
    (attempts : UInt32) : repeats limit attempts true = true := by
  have hless : ¬ limit < attempts := by
    intro hlt
    have hsize := attempts.toNat_lt_size
    rw [UInt32.lt_iff_toNat_lt] at hlt
    omega
  unfold repeats
  rw [decide_eq_false hless]
  rfl

theorem perform?_of_greatest {operation : σ → Option Failure × σ} {r : Retry}
    (hlimit : r.limit.toNat + 1 = UInt32.size) {f : Failure} (hf : r.accepts f = true)
    (hfails : ∀ s, (operation s).1 = some f) (fuel : Nat) (draws : Draws) (s : σ)
    (report : Report) : perform? operation fuel r draws s report = none := by
  induction fuel generalizing r draws s report with
  | zero => rfl
  | succ fuel ih =>
    have hrepeats : repeats r.limit (r.record f).attempts (r.accepts f) = true := by
      rw [hf]
      exact repeats_of_greatest hlimit _
    rw [perform?_failure fuel draws report (hfails s), if_pos hrepeats]
    exact ih (r := r.record f) hlimit hf _ _ _

theorem performFor?_of_greatest {operation : σ → Option Failure × σ} {r : Retry}
    (handler : κ → Failure → σ → σ) (context : κ) (hlimit : r.limit.toNat + 1 = UInt32.size)
    {f : Failure} (hf : r.accepts f = true) (hfails : ∀ s, (operation s).1 = some f) (fuel : Nat)
    (draws : Draws) (s : σ) :
    r.performFor? operation handler context fuel draws s = none := by
  unfold performFor?
  rw [perform?_of_greatest hlimit hf hfails]

/-- The loop is bounded under every limit but the greatest. -/
theorem bounded_iff (limit : UInt32) : Bounded limit ↔ limit.toNat + 1 < UInt32.size := by
  have hsize := limit.toNat_lt_size
  constructor
  · intro h
    by_contra hgreatest
    have hlimit : limit.toNat + 1 = UInt32.size := by omega
    obtain ⟨k, -, r', draws', s', report, hperform, -⟩ :=
      h (fun _ : Unit => (some .databaseUnavailable, ())) (fun (_ : Unit) _ t => t) () 0 [] {} ()
    have hsome := hperform (k + 1) (Nat.lt_succ_self k)
    rw [performFor?_of_greatest _ _ hlimit (f := .databaseUnavailable) rfl fun _ => rfl] at hsome
    cases hsome
  · intro hless σ κ operation handler context maxDelay predicates draws s
    obtain ⟨k, hle, hk, hfew⟩ :=
      exists_ends_of_lt operation s (r := { limit, maxDelay, predicates }) rfl hless
    obtain ⟨r', s', report, hperform, hused⟩ :=
      performFor?_of_ends handler context draws hk rfl hfew
    refine ⟨k, hle, r', drawsAfter draws k, s', report, hperform, hused.state, hused.invocations,
      hused.handled, ?_⟩
    rw [hused.attempts, hused.errors, hused.counter, List.length_append]

/-- The greatest limit can be configured, and then an operation that always fails is repeated
forever. -/
theorem configured_unbounded :
    ∃ c, Config.ofSettings (fun name =>
        if name = Setting.numRetries.name then some "4294967295" else none) = .ok c ∧
      ∀ fuel draws,
        performFor? (fun _ : Unit => (some .databaseUnavailable, ())) (fun (_ : Unit) _ t => t) ()
          fuel { limit := c.retry.retries, maxDelay := c.retry.maxDelay } draws () = none := by
  refine ⟨{ retry := ⟨4294967295, ({} : Config).retry.maxDelay⟩ }, by decide, fun fuel draws => ?_⟩
  exact performFor?_of_greatest _ _ (by decide) (f := .databaseUnavailable) rfl (fun _ => rfl) _ _ _

end Fulfilment.Retry
