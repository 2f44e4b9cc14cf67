import Mathlib.Data.List.Nodup
import Fulfilment.Config.Coding
import Fulfilment.Proofs.Config.Lookup
import Fulfilment.Proofs.Json.RoundTrip

/-! Which configuration is read back from a stored one.

* `Span.stored`, `Config.stored`: durations cut to whole milliseconds that fit 64 bits.
* `Config.ofJson?_toJson`: what is decoded from the encoding of a configuration.
* `Config.expressible_of_ofJson?`: what is decoded at all has no other durations.
* `Config.coding_exact`: which configurations come back as they were, on values and on texts. -/
namespace Fulfilment

set_option autoImplicit false

/-! ## Fields of a record -/

namespace Json

variable {fields : List (String × Json)} {limit n : Nat} {v : Json}

/-- The fields of an object whose names differ are found by their names. -/
theorem field?_of_mem (h : (fields.map (·.1)).Nodup) {f : String × Json} (hf : f ∈ fields) :
    (Json.object fields).field? f.1 = some f.2 := by
  obtain ⟨before, after, rfl⟩ := List.append_of_mem hf
  show (before ++ f :: after).reverse.lookup f.1 = some f.2
  rw [List.lookup_eq_some_iff]
  refine ⟨after.reverse, before.reverse, by simp, ?_⟩
  intro p hp
  have hname : p.1 ∈ after.map (·.1) := List.mem_map_of_mem (List.mem_reverse.mp hp)
  have hafter : f.1 ∉ after.map (·.1) := by
    rw [List.map_append, List.map_cons] at h
    exact (List.nodup_cons.mp h.of_append_right).1
  have hne : f.1 ≠ p.1 := by
    intro he
    exact hafter (he ▸ hname)
  simpa using hne

theorem members?_object (h : (fields.map (·.1)).Nodup) (optional : Nat) :
    (Json.object fields).members? (fields.map (·.1)) optional =
      some (fields.map fun f => some f.2) := by
  show some ((fields.map (·.1)).map fun name => (Json.object fields).field? name) = _
  rw [List.map_map]
  congr 1
  exact List.map_congr_left fun f hf => field?_of_mem h hf

theorem natBelow?_ofNat (h : n < limit) : (Json.ofNat n).natBelow? limit = some n := by
  have hnat : (Json.ofNat n).nat? = some n := rfl
  unfold natBelow?
  rw [hnat]
  simp [h]

theorem lt_of_natBelow? (h : v.natBelow? limit = some n) : n < limit := by
  unfold natBelow? at h
  rw [Option.filter_eq_some_iff] at h
  exact of_decide_eq_true h.2

theorem Exact.ofNat (h : n < UInt64.size) : Exact (.ofNat n) := by
  refine Exact.integer n ⟨?_, ?_⟩
  · omega
  · have hsize : UInt64.size = 2 ^ 64 := rfl
    omega

end Json

/-! ## Durations -/

namespace Span

/-- Cut to whole milliseconds, and to the largest count of them that fits 64 bits. -/
def stored (d : Span) : Span := min (d / 1000000 * 1000000) ((2 ^ 64 - 1) * 1000000)

variable {d : Span}

theorem ofMillis_wholeMillis (d : Span) : ofMillis (wholeMillis d) = stored d := by
  have hcut (n : Nat) : min (n / 1000000) (2 ^ 64 - 1) * 1000000 =
      min (n / 1000000 * 1000000) ((2 ^ 64 - 1) * 1000000) := by omega
  exact hcut d

theorem wholeMillis_lt (d : Span) : wholeMillis d < UInt64.size := by
  have hcut (n : Nat) : min n (2 ^ 64 - 1) < 2 ^ 64 := by omega
  exact hcut (d / 1000000)

theorem wholeMillis_ofMillis {ms : Nat} (h : ms < 2 ^ 64) : wholeMillis (ofMillis ms) = ms := by
  rw [wholeMillis, ofMillis, Nat.mul_div_cancel _ (by decide)]
  exact Nat.min_eq_left (Nat.le_pred_of_lt h)

theorem inMillis_stored (d : Span) : Config.InMillis (stored d) :=
  ⟨wholeMillis d, wholeMillis_lt d, (ofMillis_wholeMillis d).symm⟩

theorem stored_eq_self_iff : stored d = d ↔ Config.InMillis d := by
  constructor
  · intro h
    exact h ▸ inMillis_stored d
  · rintro ⟨ms, hms, rfl⟩
    rw [← ofMillis_wholeMillis, wholeMillis_ofMillis hms]

theorem wholeMillis_stored (d : Span) : wholeMillis (stored d) = wholeMillis d := by
  rw [← ofMillis_wholeMillis, wholeMillis_ofMillis (wholeMillis_lt d)]

theorem toJson_stored (d : Span) : toJson (stored d) = toJson d := by
  rw [toJson, wholeMillis_stored, toJson]

theorem ofJson?_toJson (d : Span) : ofJson? (toJson d) = some (stored d) := by
  unfold ofJson? toJson
  rw [Json.natBelow?_ofNat (wholeMillis_lt d), Option.map_some, ofMillis_wholeMillis]

theorem inMillis_of_ofJson? {v : Json} (h : ofJson? v = some d) : Config.InMillis d := by
  obtain ⟨ms, hms, rfl⟩ := Option.map_eq_some_iff.mp h
  exact ⟨ms, Json.lt_of_natBelow? hms, rfl⟩

theorem exact_toJson (d : Span) : (toJson d).Exact := .ofNat (wholeMillis_lt d)

end Span

/-! ## The parts of a configuration -/

namespace RetryParams

/-- With the cap on a wait as it is stored. -/
def stored (r : RetryParams) : RetryParams := { r with maxDelay := Span.stored r.maxDelay }

theorem ofJson?_toJson (r : RetryParams) : ofJson? r.toJson = some r.stored := by
  have hmembers : r.toJson.members? ["num_of_retries", "max_retry_delay_ms"] 0 =
      some [some (.ofNat r.retries.toNat), some (Span.toJson r.maxDelay)] :=
    Json.members?_object (by simp) 0
  have hretries : (Json.ofNat r.retries.toNat).natBelow? UInt32.size = some r.retries.toNat :=
    Json.natBelow?_ofNat r.retries.toNat_lt_size
  unfold ofJson?
  simp [hmembers, hretries, Span.ofJson?_toJson, stored]

theorem toJson_stored (r : RetryParams) : r.stored.toJson = r.toJson := by
  unfold toJson stored
  rw [Span.toJson_stored]

theorem inMillis_of_ofJson? {v : Json} {r : RetryParams} (h : ofJson? v = some r) :
    Config.InMillis r.maxDelay := by
  obtain ⟨members, -, h⟩ := Option.bind_eq_some_iff.mp h
  split at h
  case h_1 =>
    obtain ⟨retries, -, h⟩ := Option.bind_eq_some_iff.mp h
    obtain ⟨maxDelay, hmaxDelay, h⟩ := Option.bind_eq_some_iff.mp h
    cases h
    exact Span.inMillis_of_ofJson? hmaxDelay
  case h_2 => cases h

theorem exact_toJson (r : RetryParams) : r.toJson.Exact := by
  have hretries : (Json.ofNat r.retries.toNat).Exact :=
    .ofNat (Nat.lt_trans r.retries.toNat_lt_size (by decide))
  refine Json.Exact.object _ ?_
  simp [hretries, Span.exact_toJson]

end RetryParams

namespace TimeLimits

/-- Every budget as it is stored. -/
def stored (l : TimeLimits) : TimeLimits :=
  ⟨Span.stored l.queue, Span.stored l.queueTask, Span.stored l.payment, Span.stored l.message,
    Span.stored l.employee⟩

/-- Every budget is a whole number of milliseconds that fits 64 bits. -/
def InMillis (l : TimeLimits) : Prop :=
  ∀ d ∈ [l.queue, l.queueTask, l.payment, l.message, l.employee], Config.InMillis d

theorem ofJson?_toJson (l : TimeLimits) : ofJson? l.toJson = some l.stored := by
  have hmembers : l.toJson.members? ["queue_time_ms", "queue_task_time_ms", "payment_time_ms",
      "message_time_ms", "employee_time_ms"] 0 = some [some (Span.toJson l.queue),
        some (Span.toJson l.queueTask), some (Span.toJson l.payment), some (Span.toJson l.message),
        some (Span.toJson l.employee)] :=
    Json.members?_object (by simp) 0
  unfold ofJson?
  simp [hmembers, Span.ofJson?_toJson, stored]

theorem toJson_stored (l : TimeLimits) : l.stored.toJson = l.toJson := by
  unfold toJson stored
  simp only [Span.toJson_stored]

theorem inMillis_of_ofJson? {v : Json} {l : TimeLimits} (h : ofJson? v = some l) : l.InMillis := by
  obtain ⟨members, -, h⟩ := Option.bind_eq_some_iff.mp h
  split at h
  case h_1 =>
    obtain ⟨queue, hqueue, h⟩ := Option.bind_eq_some_iff.mp h
    obtain ⟨queueTask, hqueueTask, h⟩ := Option.bind_eq_some_iff.mp h
    obtain ⟨payment, hpayment, h⟩ := Option.bind_eq_some_iff.mp h
    obtain ⟨message, hmessage, h⟩ := Option.bind_eq_some_iff.mp h
    obtain ⟨employee, hemployee, h⟩ := Option.bind_eq_some_iff.mp h
    cases h
    simp [InMillis, Span.inMillis_of_ofJson? hqueue, Span.inMillis_of_ofJson? hqueueTask,
      Span.inMillis_of_ofJson? hpayment, Span.inMillis_of_ofJson? hmessage,
      Span.inMillis_of_ofJson? hemployee]
  case h_2 => cases h

theorem exact_toJson (l : TimeLimits) : l.toJson.Exact := by
  refine Json.Exact.object _ ?_
  simp [Span.exact_toJson]

end TimeLimits

namespace Consistency

theorem ofJson?_toJson (c : Consistency) : ofJson? c.toJson = some c := by
  cases c with
  | relaxed => rfl
  | serialized => rfl

end Consistency

/-! ## Whole configurations -/

namespace Config

/-- With every duration as it is stored. -/
def stored (c : Config) : Config := { c with retry := c.retry.stored, limits := c.limits.stored }

theorem ofJson?_toJson (c : Config) : ofJson? c.toJson = some c.stored := by
  have hmembers : c.toJson.members? ["retry", "limits", "consistency"] 1 =
      some [some c.retry.toJson, some c.limits.toJson, some c.consistency.toJson] :=
    Json.members?_object (by simp) 1
  unfold ofJson?
  simp [hmembers, RetryParams.ofJson?_toJson, TimeLimits.ofJson?_toJson, Consistency.ofJson?_toJson,
    stored]

theorem exact_toJson (c : Config) : c.toJson.Exact := by
  have hmode : c.consistency.toJson.Exact := .text _
  refine Json.Exact.object _ ?_
  simp [c.retry.exact_toJson, c.limits.exact_toJson, hmode]

theorem stored_eq_self_iff {c : Config} : c.stored = c ↔ c.Expressible := by
  obtain ⟨⟨retries, maxDelay⟩, ⟨queue, queueTask, payment, message, employee⟩, mode⟩ := c
  simp only [stored, RetryParams.stored, TimeLimits.stored, Config.mk.injEq, RetryParams.mk.injEq,
    TimeLimits.mk.injEq, true_and, and_true, Span.stored_eq_self_iff]
  constructor
  · rintro ⟨hmaxDelay, hqueue, hqueueTask, hpayment, hmessage, hemployee⟩
    exact ⟨hmaxDelay, hqueue, hqueueTask, hpayment, hmessage, hemployee⟩
  · intro h
    exact ⟨h.maxDelay, h.queue, h.queueTask, h.payment, h.message, h.employee⟩

theorem expressible_of_ofJson? {v : Json} {c : Config} (h : ofJson? v = some c) :
    c.Expressible := by
  obtain ⟨members, -, h⟩ := Option.bind_eq_some_iff.mp h
  split at h
  case h_1 =>
    obtain ⟨retry, hretry, h⟩ := Option.bind_eq_some_iff.mp h
    obtain ⟨limits, hlimits, h⟩ := Option.bind_eq_some_iff.mp h
    have hparts : c.retry = retry ∧ c.limits = limits := by
      split at h
      case h_1 =>
        cases h
        exact ⟨rfl, rfl⟩
      case h_2 =>
        obtain ⟨mode, -, h⟩ := Option.bind_eq_some_iff.mp h
        cases h
        exact ⟨rfl, rfl⟩
    obtain ⟨rfl, rfl⟩ := hparts
    have hspans := TimeLimits.inMillis_of_ofJson? hlimits
    simp only [TimeLimits.InMillis, List.forall_mem_cons] at hspans
    obtain ⟨hqueue, hqueueTask, hpayment, hmessage, hemployee, -⟩ := hspans
    exact ⟨RetryParams.inMillis_of_ofJson? hretry, hqueue, hqueueTask, hpayment, hmessage, hemployee⟩
  case h_2 => cases h

theorem inMillis_of_gives {lookup : String → Option String} {s : Setting} {default d : Span}
    (hdefault : InMillis default) (h : Setting.Gives lookup s Setting.Millis default d) :
    InMillis d := by
  unfold Setting.Gives at h
  split at h
  case h_1 => exact h ▸ hdefault
  case h_2 =>
    obtain ⟨ms, ⟨_, _, _, hms⟩, rfl⟩ := h
    exact ⟨ms, hms, rfl⟩

theorem inMillis_ofSecs {s : Nat} (h : s * 1000 < 2 ^ 64) : InMillis (Span.ofSecs s) := by
  refine ⟨s * 1000, h, ?_⟩
  rw [Span.ofSecs, Span.ofMillis, Nat.mul_assoc]

theorem Follows.expressible {lookup : String → Option String} {c : Config} (h : c.Follows lookup) :
    c.Expressible where
  maxDelay := inMillis_of_gives (inMillis_ofSecs (by decide)) h.maxDelay
  queue := inMillis_of_gives (inMillis_ofSecs (by decide)) h.queue
  queueTask := inMillis_of_gives (inMillis_ofSecs (by decide)) h.queueTask
  payment := inMillis_of_gives (inMillis_ofSecs (by decide)) h.payment
  message := inMillis_of_gives (inMillis_ofSecs (by decide)) h.message
  employee := inMillis_of_gives (inMillis_ofSecs (by decide)) h.employee

theorem toJson_stored (c : Config) : c.stored.toJson = c.toJson := by
  unfold toJson stored
  rw [c.retry.toJson_stored, c.limits.toJson_stored]

/-- Storing a configuration cuts its durations and keeps all else, so exactly the expressible ones
come back as they were, among them all that settings give and all that are decoded; storing what
was read back gives the same text. -/
theorem coding_exact :
    (∀ c : Config, ofJson? c.toJson = some c.stored ∧
      (Json.read? c.toJson.write).bind ofJson? = some c.stored) ∧
    (∀ c : Config, ofJson? c.toJson = some c ↔ c.Expressible) ∧
    (∀ lookup c, ofSettings lookup = .ok c → ofJson? c.toJson = some c) ∧
    (∀ v c, ofJson? v = some c → ofJson? c.toJson = some c) ∧
    ∀ c d : Config, ofJson? c.toJson = some d → d.toJson.write = c.toJson.write := by
  have hback (c : Config) : ofJson? c.toJson = some c ↔ c.Expressible := by
    rw [ofJson?_toJson, Option.some.injEq, stored_eq_self_iff]
  refine ⟨?_, hback, ?_, ?_, ?_⟩
  · intro c
    have htext : Json.read? c.toJson.write = some c.toJson := c.exact_toJson.read?_write
    exact ⟨c.ofJson?_toJson, by rw [htext, Option.bind_some, ofJson?_toJson]⟩
  · intro lookup c hc
    exact (hback c).mpr (ofSettings_eq_ok_iff.mp hc).expressible
  · intro v c hc
    exact (hback c).mpr (expressible_of_ofJson? hc)
  · intro c d hd
    rw [ofJson?_toJson, Option.some.injEq] at hd
    rw [← hd, toJson_stored]

/-- With a wait of a millisecond and a bit, the longest budget there is and one below a
millisecond. -/
def uneven : Config where
  retry := ⟨7, 1999999⟩
  limits := ⟨Span.ofSecs (UInt64.size - 1) + 999999999, 999999, Span.ofMillis 5, Span.ofSecs 1,
    Span.ofMillis Span.maxMillis⟩
  consistency := .serialized

/-- Retries and limits as arrays, without a mode. -/
def brief : Json :=
  .array [.array [.ofNat 7, .ofNat 1],
    .array [.ofNat 5, .ofNat 4, .ofNat 3, .ofNat 2, .ofNat Span.maxMillis]]

theorem coding_uneven :
    let cut : Config :=
      ⟨⟨7, Span.ofMillis 1⟩, ⟨Span.ofMillis Span.maxMillis, 0, Span.ofMillis 5, Span.ofSecs 1,
        Span.ofMillis Span.maxMillis⟩, .serialized⟩
    let plain : Config :=
      ⟨⟨7, Span.ofMillis 1⟩, ⟨Span.ofMillis 5, Span.ofMillis 4, Span.ofMillis 3, Span.ofMillis 2,
        Span.ofMillis Span.maxMillis⟩, .relaxed⟩
    let hurried (name : String) : Option String :=
      if name = Setting.paymentTime.name then some " +0250" else none
    let hasty : Config := { limits := { payment := Span.ofMillis 250 } }
    (Json.read? uneven.toJson.write).bind ofJson? = some cut ∧ ¬ uneven.Expressible ∧
      (ofSettings hurried = .ok hasty ∧ ofJson? hasty.toJson = some hasty) ∧
      (ofJson? brief = some plain ∧ ofJson? plain.toJson = some plain) ∧
      cut.toJson.write = uneven.toJson.write := by
  intro cut plain hurried hasty
  have hcut : uneven.stored = cut := by decide +kernel
  have hread : ofJson? uneven.toJson = some cut := hcut ▸ (coding_exact.1 uneven).1
  have hhasty : ofSettings hurried = .ok hasty := rfl
  have hbrief : ofJson? brief = some plain := rfl
  refine ⟨hcut ▸ (coding_exact.1 uneven).2, ?_, ⟨hhasty, coding_exact.2.2.1 _ _ hhasty⟩,
    ⟨hbrief, coding_exact.2.2.2.1 _ _ hbrief⟩, coding_exact.2.2.2.2 _ _ hread⟩
  intro h
  have hsame : some cut = some uneven := hread.symm.trans ((coding_exact.2.1 uneven).mpr h)
  exact absurd (Option.some.inj hsame) (by decide)

end Config
end Fulfilment
