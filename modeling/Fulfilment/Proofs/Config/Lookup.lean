import Mathlib.Algebra.Group.Nat.Defs
import Fulfilment.Proofs.Text.Numeral
import Fulfilment.Config.Settings

/-! Which texts of the settings make a configuration, and which one.

* `Setting.Valid`: the texts that a setting may have.
* `Config.Follows`: every field has the value of its own setting, or the default.
* `Setting.FirstInvalid`: the setting whose text is reported.
* `Config.written`: a configuration as texts of the settings. -/
namespace Fulfilment

set_option autoImplicit false

/-! ## The texts of one setting -/

namespace Setting

/-- Blanks around a whole number below the limit. -/
def Number (limit : Nat) (text : String) (n : Nat) : Prop :=
  ∃ core, Text.Trims text.toList core ∧ Text.Numeral.Denotes core n ∧ n < limit

def Count (text : String) (count : UInt32) : Prop := Number (2 ^ 32) text count.toNat

def Millis (text : String) (d : Span) : Prop :=
  ∃ ms, Number (2 ^ 64) text ms ∧ d = Span.ofMillis ms

end Setting

def Consistency.spellings : Consistency → List String
  | .relaxed => ["relaxed"]
  | .serialized => ["serialized", "serialised"]

/-- Blanks around a spelling of the mode in any case. -/
def Consistency.Named (text : String) (mode : Consistency) : Prop :=
  ∃ core, Text.Trims text.toList core ∧
    ∃ spelling ∈ mode.spellings, Text.InAnyCase core spelling.toList

namespace Setting

def Valid (s : Setting) (text : String) : Prop :=
  match s with
  | .numRetries => ∃ n, Number (2 ^ 32) text n
  | .consistency => ∃ mode, Consistency.Named text mode
  | _ => ∃ n, Number (2 ^ 64) text n

theorem readNat_eq_ok_iff {s : Setting} {limit n : Nat} {text : String} :
    readNat s limit text = .ok n ↔ Number limit text n := by
  have hcore : Number limit text n ↔
      Text.Numeral.readList limit (Text.trimList text.toList) = .ok n := by
    rw [Text.Numeral.readList_eq_ok_iff]
    constructor
    · rintro ⟨core, hcore, hn⟩
      rwa [Text.trimList_eq_of_trims hcore]
    · exact fun hn => ⟨_, Text.trims_trimList _, hn⟩
  rw [hcore, readNat]
  split
  case h_1 h => rw [h, Except.ok.injEq, Except.ok.injEq]
  case h_2 h => simp [h]

theorem readNat_eq_error {s : Setting} {limit : Nat} {text : String} {f : Fault}
    (h : readNat s limit text = .error f) : f.setting = s ∧ f.value = text := by
  unfold readNat at h
  split at h
  case h_1 => cases h
  case h_2 =>
    cases h
    exact ⟨rfl, rfl⟩

/-- Reading a text of the setting gives what it means, or a fault with the setting and the text. -/
structure Reads {α : Type} (s : Setting) (read : String → Except Fault α)
    (Means : String → α → Prop) : Prop where
  ok_iff : ∀ text v, read text = .ok v ↔ Means text v
  valid_iff : ∀ text, s.Valid text ↔ ∃ v, Means text v
  error : ∀ text f, read text = .error f → f.setting = s ∧ f.value = text

theorem map_eq_ok_iff {ε α β : Type} {x : Except ε α} {f : α → β} {b : β} :
    x.map f = .ok b ↔ ∃ a, x = .ok a ∧ f a = b := by
  cases x with
  | ok a => simp [Except.map]
  | error e => simp [Except.map]

theorem map_eq_error_iff {ε α β : Type} {x : Except ε α} {f : α → β} {e : ε} :
    x.map f = .error e ↔ x = .error e := by
  cases x with
  | ok a => simp [Except.map]
  | error e => simp [Except.map]

theorem toNat_count {limit n : Nat} {text : String} (h : Number limit text n)
    (hlimit : limit ≤ 2 ^ 32) : (UInt32.ofNat n).toNat = n := by
  obtain ⟨_, _, _, hlt⟩ := h
  exact UInt32.toNat_ofNat_of_lt' (Nat.lt_of_lt_of_le hlt hlimit)

theorem reads_count : Reads .numRetries (readCount .numRetries) Count where
  ok_iff text count := by
    rw [readCount, map_eq_ok_iff, Count]
    constructor
    · rintro ⟨n, hn, rfl⟩
      rw [readNat_eq_ok_iff] at hn
      rwa [toNat_count hn (Nat.le_refl _)]
    · exact fun h => ⟨count.toNat, readNat_eq_ok_iff.mpr h, UInt32.ofNat_toNat⟩
  valid_iff text :=
    ⟨fun ⟨n, hn⟩ => ⟨.ofNat n, by rwa [Count, toNat_count hn (Nat.le_refl _)]⟩,
      fun ⟨count, h⟩ => ⟨count.toNat, h⟩⟩
  error _ _ h := readNat_eq_error (map_eq_error_iff.mp h)

theorem reads_millis {s : Setting} (hs : ∀ text, s.Valid text = ∃ n, Number (2 ^ 64) text n) :
    Reads s (readMillis s) Millis where
  ok_iff text d := by
    rw [readMillis, map_eq_ok_iff, Millis]
    exact exists_congr fun ms => and_congr readNat_eq_ok_iff eq_comm
  valid_iff text := by
    rw [hs]
    exact ⟨fun ⟨ms, h⟩ => ⟨_, ms, h, rfl⟩, fun ⟨_, ms, h, _⟩ => ⟨ms, h⟩⟩
  error _ _ h := readNat_eq_error (map_eq_error_iff.mp h)

end Setting

namespace Consistency

/-- The small form of what trimming leaves. -/
theorem named_iff {text : String} {mode : Consistency} : Named text mode ↔
    String.ofList ((Text.trimList text.toList).map Char.toLower) ∈ mode.spellings := by
  have hsmall : ∀ spelling ∈ mode.spellings, ∀ l ∈ spelling.toList, l.isLower = true := by
    cases mode <;> simp [spellings]
  constructor
  · rintro ⟨core, hcore, spelling, hspelling, hcase⟩
    rw [Text.trimList_eq_of_trims hcore,
      (Text.map_toLower_eq_iff (hsmall spelling hspelling)).mpr hcase, String.ofList_toList]
    exact hspelling
  · intro h
    refine ⟨_, Text.trims_trimList _, _, h, ?_⟩
    rw [← Text.map_toLower_eq_iff (hsmall _ h), String.toList_ofList]

theorem reads_mode : Setting.Reads .consistency read Named where
  ok_iff text mode := by
    rw [named_iff]
    simp only [read]
    generalize String.ofList ((Text.trimList text.toList).map Char.toLower) = word
    cases mode with
    | relaxed => simp only [spellings, List.mem_singleton]; grind
    | serialized => simp only [spellings, List.mem_cons, List.not_mem_nil, or_false]; grind
  valid_iff _ := Iff.rfl
  error text f h := by
    unfold read at h
    simp only at h
    split at h
    case isTrue => cases h
    case isFalse =>
      split at h
      case isTrue => cases h
      case isFalse =>
        cases h
        exact ⟨rfl, rfl⟩

end Consistency

/-! ## All settings, one after the other -/

namespace Setting

/-- The value is what the text of the setting means, the default if the setting has none. -/
def Gives {α : Type} (lookup : String → Option String) (s : Setting) (Means : String → α → Prop)
    (default value : α) : Prop :=
  match lookup s.name with
  | none => value = default
  | some text => Means text value

/-- The text of the setting is valid, if there is one. -/
def Readable (lookup : String → Option String) (s : Setting) : Prop :=
  ∀ text, lookup s.name = some text → s.Valid text

/-- The text of the setting is not valid, and those of all settings before it are. -/
def FirstInvalid (lookup : String → Option String) (s : Setting) (text : String) : Prop :=
  lookup s.name = some text ∧ ¬ s.Valid text ∧
    ∃ before after, all = before ++ s :: after ∧ ∀ t ∈ before, Readable lookup t

variable {α β : Type} {lookup : String → Option String} {s : Setting}
  {read : String → Except Fault α} {Means : String → α → Prop} {current : α}

theorem override_eq_ok_iff (h : Reads s read Means) {value : α} :
    Config.override lookup s read current = .ok value ↔ Gives lookup s Means current value := by
  unfold Config.override Gives
  cases lookup s.name with
  | none => simp [eq_comm]
  | some text => exact h.ok_iff text value

theorem readable_of_gives (h : Reads s read Means) {value : α}
    (hgives : Gives lookup s Means current value) : Readable lookup s := by
  intro text htext
  rw [Gives, htext] at hgives
  exact (h.valid_iff text).mpr ⟨value, hgives⟩

theorem override_eq_error (h : Reads s read Means) {f : Fault}
    (hf : Config.override lookup s read current = .error f) :
    f.setting = s ∧ lookup s.name = some f.value ∧ ¬ s.Valid f.value := by
  unfold Config.override at hf
  split at hf
  case h_1 => cases hf
  case h_2 text htext =>
    obtain ⟨hsetting, hvalue⟩ := h.error text f hf
    refine ⟨hsetting, hvalue.symm ▸ htext, fun hvalid => ?_⟩
    obtain ⟨value, hmeans⟩ := (h.valid_iff text).mp (hvalue ▸ hvalid)
    rw [(h.ok_iff text value).mpr hmeans] at hf
    cases hf

theorem bind_eq_ok_iff {ε : Type} {x : Except ε α} {next : α → Except ε β} {b : β} :
    x >>= next = .ok b ↔ ∃ a, x = .ok a ∧ next a = .ok b := by
  cases x with
  | ok a => simp [bind, Except.bind]
  | error e => simp [bind, Except.bind]

/-- Once the texts of the settings before are read, every fault is that of the first invalid
text. -/
def Reports (lookup : String → Option String) (before : List Setting) (x : Except Fault β) : Prop :=
  (∀ t ∈ before, Readable lookup t) → ∀ f, x = .error f → FirstInvalid lookup f.setting f.value

theorem Reports.pure (before : List Setting) (b : β) :
    Reports lookup before (Pure.pure b) :=
  fun _ _ h => nomatch h

/-- One more setting is read. -/
theorem Reports.bind {before after : List Setting} (h : Reads s read Means)
    (hall : all = before ++ s :: after) {next : α → Except Fault β}
    (hnext : ∀ a, Reports lookup (before ++ [s]) (next a)) :
    Reports lookup before (Config.override lookup s read current >>= next) := by
  intro hbefore f hf
  cases hread : Config.override lookup s read current with
  | ok a =>
    rw [hread] at hf
    have hs : Readable lookup s := readable_of_gives h ((override_eq_ok_iff h).mp hread)
    refine hnext a (fun t ht => ?_) f hf
    rcases List.mem_append.mp ht with ht | ht
    · exact hbefore t ht
    · exact List.mem_singleton.mp ht ▸ hs
  | error e =>
    rw [hread] at hf
    cases hf
    obtain ⟨rfl, htext, hinvalid⟩ := override_eq_error h hread
    exact ⟨htext, hinvalid, before, after, hall, hbefore⟩

theorem FirstInvalid.not_readable {text : String} (h : FirstInvalid lookup s text) :
    ¬ Readable lookup s :=
  fun hs => h.2.1 (hs text h.1)

theorem FirstInvalid.eq_of_append {t : Setting} {middle after after' : List Setting}
    (h : ¬ Readable lookup s) (hsplit : s :: after = middle ++ t :: after')
    (hmiddle : ∀ u ∈ middle, Readable lookup u) : s = t := by
  cases middle with
  | nil => exact (List.cons.inj hsplit).1
  | cons u middle =>
    rw [List.cons_append] at hsplit
    exact absurd ((List.cons.inj hsplit).1 ▸ hmiddle u List.mem_cons_self) h

/-- There is one first setting. -/
theorem FirstInvalid.unique {t : Setting} {text text' : String} (h : FirstInvalid lookup s text)
    (h' : FirstInvalid lookup t text') : s = t ∧ text = text' := by
  have hst : s = t := by
    obtain ⟨before, after, hall, hbefore⟩ := h.2.2
    obtain ⟨before', after', hall', hbefore'⟩ := h'.2.2
    rcases List.append_eq_append_iff.mp (hall.symm.trans hall') with
      ⟨middle, rfl, hsplit⟩ | ⟨middle, rfl, hsplit⟩
    · exact eq_of_append h.not_readable hsplit fun u hu =>
        hbefore' u (List.mem_append_right before hu)
    · exact (eq_of_append h'.not_readable hsplit fun u hu =>
        hbefore u (List.mem_append_right before' hu)).symm
  subst hst
  exact ⟨rfl, Option.some.inj (h.1.symm.trans h'.1)⟩

end Setting

namespace Config

/-- Every field has the value of its own setting, or the default. -/
structure Follows (lookup : String → Option String) (c : Config) : Prop where
  retries : Setting.Gives lookup .numRetries Setting.Count 3 c.retry.retries
  maxDelay : Setting.Gives lookup .maxRetryDelay Setting.Millis (.ofSecs 30) c.retry.maxDelay
  queue : Setting.Gives lookup .queueTime Setting.Millis (.ofSecs 240) c.limits.queue
  queueTask : Setting.Gives lookup .queueTaskTime Setting.Millis (.ofSecs 60) c.limits.queueTask
  payment : Setting.Gives lookup .paymentTime Setting.Millis (.ofSecs 120) c.limits.payment
  message : Setting.Gives lookup .messageTime Setting.Millis (.ofSecs 150) c.limits.message
  employee : Setting.Gives lookup .employeeTime Setting.Millis (.ofSecs 240) c.limits.employee
  consistency : Setting.Gives lookup .consistency Consistency.Named .relaxed c.consistency

open Setting in
theorem ofSettings_eq_ok_iff {lookup : String → Option String} {c : Config} :
    ofSettings lookup = .ok c ↔ c.Follows lookup := by
  simp only [ofSettings, bind_eq_ok_iff, override_eq_ok_iff reads_count,
    override_eq_ok_iff Consistency.reads_mode]
  have hmillis {s : Setting} (hs : ∀ text, s.Valid text = ∃ n, Number (2 ^ 64) text n)
      {current d : Span} : override lookup s (readMillis s) current = .ok d ↔
        Gives lookup s Millis current d := override_eq_ok_iff (reads_millis hs)
  constructor
  · rintro ⟨retries, hretries, maxDelay, hmaxDelay, queue, hqueue, queueTask, hqueueTask, payment,
      hpayment, message, hmessage, employee, hemployee, mode, hmode, hconfig⟩
    cases hconfig
    exact ⟨hretries, (hmillis fun _ => rfl).mp hmaxDelay, (hmillis fun _ => rfl).mp hqueue,
      (hmillis fun _ => rfl).mp hqueueTask, (hmillis fun _ => rfl).mp hpayment,
      (hmillis fun _ => rfl).mp hmessage, (hmillis fun _ => rfl).mp hemployee, hmode⟩
  · intro h
    exact ⟨_, h.retries, _, (hmillis fun _ => rfl).mpr h.maxDelay, _,
      (hmillis fun _ => rfl).mpr h.queue, _, (hmillis fun _ => rfl).mpr h.queueTask, _,
      (hmillis fun _ => rfl).mpr h.payment, _, (hmillis fun _ => rfl).mpr h.message, _,
      (hmillis fun _ => rfl).mpr h.employee, _, h.consistency, rfl⟩

open Setting in
theorem reports_ofSettings (lookup : String → Option String) :
    Reports lookup [] (ofSettings lookup) := by
  refine Reports.bind reads_count rfl fun _ => ?_
  refine Reports.bind (reads_millis (s := .maxRetryDelay) fun _ => rfl) rfl fun _ => ?_
  refine Reports.bind (reads_millis (s := .queueTime) fun _ => rfl) rfl fun _ => ?_
  refine Reports.bind (reads_millis (s := .queueTaskTime) fun _ => rfl) rfl fun _ => ?_
  refine Reports.bind (reads_millis (s := .paymentTime) fun _ => rfl) rfl fun _ => ?_
  refine Reports.bind (reads_millis (s := .messageTime) fun _ => rfl) rfl fun _ => ?_
  refine Reports.bind (reads_millis (s := .employeeTime) fun _ => rfl) rfl fun _ => ?_
  refine Reports.bind Consistency.reads_mode rfl fun _ => ?_
  exact Reports.pure _ _

/-- A configuration is read if and only if every text is valid. -/
theorem ofSettings_isOk_iff {lookup : String → Option String} :
    (∃ c, ofSettings lookup = .ok c) ↔ ∀ s, Setting.Readable lookup s := by
  constructor
  · rintro ⟨c, hc⟩ s
    have h := ofSettings_eq_ok_iff.mp hc
    have hmillis {s : Setting} (hs : ∀ text, s.Valid text = ∃ n, Setting.Number (2 ^ 64) text n)
        {current d : Span} (hd : Setting.Gives lookup s Setting.Millis current d) :
        Setting.Readable lookup s := Setting.readable_of_gives (Setting.reads_millis hs) hd
    cases s with
    | numRetries => exact Setting.readable_of_gives Setting.reads_count h.retries
    | maxRetryDelay => exact hmillis (fun _ => rfl) h.maxDelay
    | queueTime => exact hmillis (fun _ => rfl) h.queue
    | queueTaskTime => exact hmillis (fun _ => rfl) h.queueTask
    | paymentTime => exact hmillis (fun _ => rfl) h.payment
    | messageTime => exact hmillis (fun _ => rfl) h.message
    | employeeTime => exact hmillis (fun _ => rfl) h.employee
    | consistency => exact Setting.readable_of_gives Consistency.reads_mode h.consistency
  · intro h
    cases hread : ofSettings lookup with
    | ok c => exact ⟨c, rfl⟩
    | error f =>
      have hfirst := reports_ofSettings lookup (fun t ht => nomatch ht) f hread
      exact absurd (h f.setting) hfirst.not_readable

/-- The fault has the first setting whose text is not valid, and that text. -/
theorem ofSettings_eq_error_iff {lookup : String → Option String} {s : Setting} {text : String} :
    (∃ reason, ofSettings lookup = .error ⟨s, text, reason⟩) ↔
      Setting.FirstInvalid lookup s text := by
  constructor
  · rintro ⟨reason, h⟩
    exact reports_ofSettings lookup (fun t ht => nomatch ht) _ h
  · intro h
    cases hread : ofSettings lookup with
    | ok c => exact absurd (ofSettings_isOk_iff.mp ⟨c, hread⟩ s) h.not_readable
    | error f =>
      have hfirst := reports_ofSettings lookup (fun t ht => nomatch ht) f hread
      obtain ⟨rfl, rfl⟩ := h.unique hfirst
      exact ⟨f.reason, rfl⟩

/-! ## Writing a configuration out -/

/-- The value of a setting in the configuration as a text, numbers in decimal. -/
def textOf (c : Config) : Setting → String
  | .numRetries => toString c.retry.retries.toNat
  | .maxRetryDelay => toString (Span.wholeMillis c.retry.maxDelay)
  | .queueTime => toString (Span.wholeMillis c.limits.queue)
  | .queueTaskTime => toString (Span.wholeMillis c.limits.queueTask)
  | .paymentTime => toString (Span.wholeMillis c.limits.payment)
  | .messageTime => toString (Span.wholeMillis c.limits.message)
  | .employeeTime => toString (Span.wholeMillis c.limits.employee)
  | .consistency => c.consistency.name

/-- The configuration as texts of its settings, by their names. -/
def written (c : Config) (name : String) : Option String :=
  (Setting.all.find? fun s => s.name == name).map c.textOf

def InMillis (d : Span) : Prop := ∃ ms < 2 ^ 64, d = Span.ofMillis ms

/-- Every duration is a whole number of milliseconds that fits 64 bits. -/
structure Expressible (c : Config) : Prop where
  maxDelay : InMillis c.retry.maxDelay
  queue : InMillis c.limits.queue
  queueTask : InMillis c.limits.queueTask
  payment : InMillis c.limits.payment
  message : InMillis c.limits.message
  employee : InMillis c.limits.employee

theorem written_name (c : Config) (s : Setting) : c.written s.name = some (c.textOf s) := by
  cases s <;> rfl

theorem isBlank_of_isDigit {c : Char} (h : c.isDigit = true) : Text.isBlank c = false := by
  have hrange : 48 ≤ c.toNat ∧ c.toNat ≤ 57 := by
    simpa [Char.isDigit, UInt32.le_iff_toNat_le] using h
  simp [Text.isBlank]
  omega

theorem number_toString {limit n : Nat} (h : n < limit) : Setting.Number limit (toString n) n := by
  have hdigits : (toString n).toList = Nat.toDigits 10 n := by
    rw [Nat.toString_eq_repr, Nat.repr_eq_ofList_toDigits, String.toList_ofList]
  have hblank : ∀ c ∈ Nat.toDigits 10 n, Text.isBlank c = false := fun c hc =>
    isBlank_of_isDigit (Nat.isDigit_of_mem_toDigits (by decide) (by decide) hc)
  refine ⟨_, ?_, Text.Numeral.denotes_toDigits n, h⟩
  rw [hdigits, ← Text.trimList_eq_iff]
  exact Text.trimList_eq_self hblank

theorem millis_toString {d : Span} (h : InMillis d) :
    Setting.Millis (toString (Span.wholeMillis d)) d := by
  obtain ⟨ms, hms, rfl⟩ := h
  have hwhole : Span.wholeMillis (Span.ofMillis ms) = ms := by
    rw [Span.wholeMillis, Span.ofMillis, Nat.mul_div_cancel _ (by decide)]
    exact Nat.min_eq_left (Nat.le_pred_of_lt hms)
  rw [hwhole]
  exact ⟨ms, number_toString hms, rfl⟩

theorem named_name (mode : Consistency) : Consistency.Named mode.name mode := by
  rw [Consistency.named_iff]
  cases mode <;> decide

theorem gives_written {α : Type} {c : Config} {s : Setting} {Means : String → α → Prop}
    {default value : α} (h : Means (c.textOf s) value) :
    Setting.Gives c.written s Means default value := by
  rw [Setting.Gives, written_name]
  exact h

theorem follows_written {c : Config} (h : c.Expressible) : c.Follows c.written where
  retries := gives_written (number_toString c.retry.retries.toNat_lt_size)
  maxDelay := gives_written (millis_toString h.maxDelay)
  queue := gives_written (millis_toString h.queue)
  queueTask := gives_written (millis_toString h.queueTask)
  payment := gives_written (millis_toString h.payment)
  message := gives_written (millis_toString h.message)
  employee := gives_written (millis_toString h.employee)
  consistency := gives_written (named_name c.consistency)

/-- Reading settings is exact: what is read follows the texts, it is read exactly if all of them
are valid, otherwise the first invalid one is reported as it is, and what is written out is read
back. -/
theorem ofSettings_exact :
    (∀ lookup : String → Option String,
      (∀ c, ofSettings lookup = .ok c ↔ c.Follows lookup) ∧
      ((∃ c, ofSettings lookup = .ok c) ↔ ∀ s, Setting.Readable lookup s) ∧
      ∀ s text, (∃ reason, ofSettings lookup = .error ⟨s, text, reason⟩) ↔
        Setting.FirstInvalid lookup s text) ∧
    ∀ c : Config, c.Expressible → ofSettings c.written = .ok c :=
  ⟨fun _ => ⟨fun _ => ofSettings_eq_ok_iff, ofSettings_isOk_iff,
      fun _ _ => ofSettings_eq_error_iff⟩,
    fun _ h => ofSettings_eq_ok_iff.mpr (follows_written h)⟩

theorem ofSettings_written_default : Expressible {} ∧ ofSettings (written {}) = .ok {} := by
  have hexpressible : Expressible {} :=
    ⟨⟨30000, by decide, rfl⟩, ⟨240000, by decide, rfl⟩, ⟨60000, by decide, rfl⟩,
      ⟨120000, by decide, rfl⟩, ⟨150000, by decide, rfl⟩, ⟨240000, by decide, rfl⟩⟩
  exact ⟨hexpressible, ofSettings_exact.2 {} hexpressible⟩

end Config
end Fulfilment
