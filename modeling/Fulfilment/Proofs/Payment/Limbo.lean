import Fulfilment.Proofs.Payment.Turn

/-! Whether a shipped order can end up with its payment pending and nobody informed, when messages
and the employee handle never fail.

* `System.firstDeferral?`: the world in which the order's payment is put off for the first time.
* `Undecided`: what holds until then; `Lost` and `Alerted`: what holds ever after, if the time for
  the payment was over by then and if it was not.
* `System.limbo_iff`: at rest, a shipped order is in limbo exactly if its payment was put off for
  the first time when its time was over, or never because the payment service panicked.
* `System.expired_retry_in_limbo`: so it is when the time passes during a backoff. -/
namespace Fulfilment

set_option autoImplicit false

/-! ## Loud actions -/

def Action.isLoud (a : Action) : Bool := !a.isQuiet

theorem matter_loud : Matter Action.isLoud := by
  refine ⟨fun a ha => ?_, fun j n m => ?_⟩
  · simp [Action.isLoud, ha]
  · obtain ⟨c, work⟩ := j
    cases work <;> rfl

theorem loud_of_side (side : Side) {o : OrderRef} (a : Action)
    (h : decide (a.side? = some (side, o)) = true) : a.isLoud = true := by
  have hs : a.side? = some (side, o) := of_decide_eq_true h
  by_cases ha : a.isQuiet = true
  · rw [side?_of_quiet ha] at hs
    cases hs
  · simp [Action.isLoud, ha]

theorem countP_split {α : Type} {p q : α → Bool} (h : ∀ a, p a = true → q a = true) (l : List α) :
    l.countP q = l.countP p + l.countP fun a => q a && !p a := by
  induction l with
  | nil => rfl
  | cons a l ih =>
    have ha := h a
    simp only [List.countP_cons, ih]
    cases hp : p a with
    | true =>
      simp only [ha hp, Bool.not_true, Bool.and_false, if_true, Bool.false_eq_true, if_false]
      omega
    | false => simp only [Bool.not_false, Bool.and_true, Bool.false_eq_true, if_false]; omega

namespace System

section Loads
variable {σ : System} {p q : Action → Bool}

theorem load_split (h : ∀ a, p a = true → q a = true) :
    σ.load q = σ.load p + σ.load fun a => q a && !p a := by
  have ht := countP_split h σ.threads.flatten
  have hw := countP_split (fun j => h (.attempt j 0)) σ.world.pending
  simp only [load, World.waiting]
  omega

/-- If there are as many of the wider kind as of the narrower, they are the same. -/
theorem load_all {i : Nat} {a : Action} {rest : List Action} (h : ∀ a, p a = true → q a = true)
    (he : σ.load q = σ.load p) (hi : σ.threads[i]? = some (a :: rest)) (ha : q a = true) :
    p a = true := by
  have hs := load_split (σ := σ) h
  by_cases hp : p a = true
  · exact hp
  · have hpos := load_pos (p := fun a => q a && !p a) hi (by simp [ha, hp])
    omega

theorem load_disjoint {r : Action → Bool} (hp : ∀ a, p a = true → q a = true)
    (hr : ∀ a, r a = true → q a = true ∧ p a = false) (he : σ.load q = σ.load p) :
    σ.load r = 0 := by
  have hs := load_split (σ := σ) hp
  have hmono := load_mono (σ := σ) (p := r) (q := fun a => q a && !p a) fun a ha => by
    simp [hr a ha]
  omega

end Loads

/-! ## Before the payment is put off -/

/-- Until the payment of an order is put off for the first time, just one action is not quiet, and
it is the placement or the payment; or the order was turned away by shipping; or the payment is
settled; or the payment service has panicked. -/
inductive Undecided (o : OrderRef) (σ : System) : Prop
  | placing (hn : σ.load Action.isLoud = 1) (hl : σ.load (Action.ships o) = 1)
      (hst : σ.world.standing o = (.trying, false, false, false))
  | paying (hn : σ.load Action.isLoud = 1) (hl : σ.load (Action.pays o) = 1)
      (hp : (σ.world.order o).payment = .trying) (hi : σ.world.informed o = false)
      (hc : σ.world.crashed o = false)
  | turnedAway (hn : σ.load Action.isLoud = σ.load (Action.informs o))
      (hs : σ.world.shipped o = false)
  | settled (hn : σ.load Action.isLoud = 0) (hp : (σ.world.order o).payment ≠ .trying)
      (hc : σ.world.crashed o = false)
  | crashed (hn : σ.load Action.isLoud = 0) (hp : (σ.world.order o).payment = .trying)
      (hi : σ.world.informed o = false) (hc : σ.world.crashed o = true)

/-- The payment is pending, nobody is informed, and nothing more will be done. -/
structure Lost (o : OrderRef) (σ : System) : Prop where
  nothing : σ.load Action.isLoud = 0
  payment : (σ.world.order o).payment = .trying
  informed : σ.world.informed o = false

/-- The order is marked as escalated, or about to be. -/
def Alerted (o : OrderRef) (σ : System) : Prop :=
  (σ.world.order o).escalated = true ∨ 0 < σ.load (Action.informs o)

/-- What the moves keep throughout. -/
structure Tended (s : Setup) (o : OrderRef) (σ : System) : Prop where
  calm : σ.Calm s
  exists_order : o < σ.world.orders.length
  parks : σ.world.Parks o

section Steps
variable {s : Setup} {o : OrderRef} {σ τ : System} {m : Move}

theorem Tended.move (h : σ.Tended s o) (hm : m.Benign s) (hτ : σ.move? s m = some τ) :
    τ.Tended s o := by
  have he := (h.calm.orderly.move hm.whole hτ).1
  have hlen := he.preserves (P := fun u => o < u.orders.length) h.calm.orderly.clock
    (fun _ _ _ hc hu => by rw [hc.length]; exact hu) (fun _ _ _ _ hu => hu) h.exists_order
  exact ⟨h.calm.move hm hτ, hlen.2, he.parks h.calm.orderly.clock h.parks⟩

theorem Undecided.rests (h : Undecided o σ) (hr : Rests σ τ) : Undecided o τ := by
  have hst := hr.1 o
  obtain ⟨hpay, hinf, hship, hcrash⟩ := World.standing_parts hst
  have hload (p : Action → Bool) (hp : Matter p) := hr.2 p hp
  cases h with
  | placing hn hl hs =>
    exact .placing (by rw [hload _ matter_loud, hn]) (by rw [hload _ (matter_ships o), hl])
      (by rw [hst, hs])
  | paying hn hl hp hi hc =>
    exact .paying (by rw [hload _ matter_loud, hn]) (by rw [hload _ (matter_pays o), hl])
      (by rw [hpay, hp]) (by rw [hinf, hi]) (by rw [hcrash, hc])
  | turnedAway hn hs =>
    exact .turnedAway (by rw [hload _ matter_loud, hload _ (matter_informs o), hn])
      (by rw [hship, hs])
  | settled hn hp hc =>
    exact .settled (by rw [hload _ matter_loud, hn]) (by rw [hpay]; exact hp) (by rw [hcrash, hc])
  | crashed hn hp hi hc =>
    exact .crashed (by rw [hload _ matter_loud, hn]) (by rw [hpay, hp]) (by rw [hinf, hi])
      (by rw [hcrash, hc])

theorem Lost.rests (h : Lost o σ) (hr : Rests σ τ) : Lost o τ := by
  obtain ⟨hpay, hinf, -, -⟩ := World.standing_parts (hr.1 o)
  exact ⟨by rw [hr.2 _ matter_loud, h.nothing], by rw [hpay, h.payment], by rw [hinf, h.informed]⟩

/-- Where nothing loud is left, only quiet things happen. -/
theorem rests_of_nothing (h : σ.Calm s) (hn : σ.load Action.isLoud = 0) (hm : m.Benign s)
    (hτ : σ.move? s m = some τ) :
    Rests σ τ ∧ ∀ a, σ.performed? m = some a → a.isQuiet = true := by
  obtain hr | ⟨a, ha⟩ := h.quiet_or_loud hm hτ
  · exact hr
  · obtain ⟨i, rest, r, hi, -, -⟩ := ha.step
    have hpos := load_pos (p := Action.isLoud) hi (by simp [Action.isLoud, ha.loud])
    omega

theorem Lost.move (ht : σ.Tended s o) (h : Lost o σ) (hm : m.Benign s)
    (hτ : σ.move? s m = some τ) : Lost o τ :=
  h.rests (rests_of_nothing ht.calm h.nothing hm hτ).1

theorem Alerted.move (ht : σ.Tended s o) (h : Alerted o σ) (hm : m.Benign s)
    (hτ : σ.move? s m = some τ)
    (htime : σ.world.budgetExceeded o s.config.limits.employee = false) : Alerted o τ := by
  have he := (ht.calm.orderly.move hm.whole hτ).1
  obtain hesc | hpos := h
  · exact .inl ((he.later ht.calm.orderly.clock o).escalated hesc)
  obtain ⟨hr, -⟩ | ⟨a, ha⟩ := ht.calm.quiet_or_loud hm hτ
  · exact .inr (by rw [hr.2 _ (matter_informs o)]; exact hpos)
  obtain ⟨v, todo, hx, hset, -, hturn, hkeep⟩ := ha.outcome
  by_cases hinf : a.informs o = true
  · obtain ⟨v', todo', hp, hi⟩ := perform_informs (s := s) hinf ht.calm.orderly.unlocked
      ht.calm.orderly.replies ht.calm.isOpen ht.calm.parks ht.exists_order
    rw [hp] at hx
    obtain hx | ⟨hx, -⟩ := hx
    · cases hx
      cases hi with
      | again b hb hy _ =>
        have hl := (hturn _ hy).spends (matter_informs o) hinf
          (List.forall_mem_singleton.mpr hb)
        exact .inr (by rw [Nat.succ.inj hl]; exact hpos)
      | late hlate _ _ =>
        rw [htime] at hlate
        cases hlate
      | escalated _ hesc _ =>
        have horders : τ.world.orders = v.orders := congrArg (·.1) hset
        have ho : τ.world.order o = v.order o := by rw [World.order, World.order, horders]
        exact .inl (by rw [ho]; exact hesc)
    · cases hx
  · have hl := hkeep _ (matter_informs o)
    simp only [hinf, Bool.false_eq_true, if_false] at hl
    exact .inr (by omega)

theorem pays_of_defers {a : Action} (h : a.defers o = true) : a.pays o = true := by
  cases a with
  | deferPayment c p =>
    have hp : p = o := by simpa [Action.defers] using h
    simp [Action.pays, Action.side?, hp]
  | _ => cases h

/-- The one thing that is not quiet is the placement. -/
theorem placing_move (ht : σ.Tended s o) {a : Action} (ha : ActsLoudly s σ τ m a)
    (hn : σ.load Action.isLoud = 1) (hl : σ.load (Action.ships o) = 1)
    (hst : σ.world.standing o = (.trying, false, false, false)) :
    a.ships o = true ∧ Undecided o τ := by
  obtain ⟨i, rest, r, hi, -, -⟩ := ha.step
  have hships : a.ships o = true :=
    load_all (loud_of_side .shipping) (hn.trans hl.symm) hi (by simp [Action.isLoud, ha.loud])
  have hloud := loud_of_side .shipping a hships
  have others (side : Side) (hne : side ≠ .shipping) :
      σ.load (fun b => decide (b.side? = some (side, o))) = 0 :=
    load_disjoint (loud_of_side .shipping)
      (fun b hb => ⟨loud_of_side side b hb, side_unique hb hne⟩) (hn.trans hl.symm)
  refine ⟨hships, ?_⟩
  obtain ⟨v, todo, hx, hset, -, hturn, -⟩ := ha.outcome
  obtain ⟨v', todo', hx', hship⟩ := perform_ships (s := s) hships ht.calm.orderly.unlocked
    ht.calm.orderly.replies
  obtain ⟨rfl, rfl⟩ := hx.unique hx'
  have hτ := World.standing_of_settings hset o
  obtain ⟨hτp, hτi, hτs, hτc⟩ := World.standing_parts hτ
  have hst' := hst
  simp only [World.standing, Prod.mk.injEq] at hst'
  obtain ⟨hp, hi, hs, hc⟩ := hst'
  cases hship with
  | again b hb hy hsame =>
    have hbloud := loud_of_side .shipping b hb
    have h₁ := (hturn _ hy).spends matter_loud hloud (List.forall_mem_singleton.mpr hbloud)
    have h₂ := (hturn _ hy).spends (matter_ships o) hships (List.forall_mem_singleton.mpr hb)
    rw [hn] at h₁
    rw [hl] at h₂
    exact .placing (Nat.succ.inj h₁) (Nat.succ.inj h₂) (by rw [hτ, hsame, hst])
  | accepted c hy hvp hvi hvc =>
    have hpay : (Action.pay c o).pays o = true := decide_eq_true rfl
    have hbloud := loud_of_side .payment _ hpay
    have h₁ := (hturn _ hy).spends matter_loud hloud (List.forall_mem_singleton.mpr hbloud)
    have h₂ := (hturn _ hy).gains (matter_pays o) (side_unique hships (by decide))
      (List.forall_mem_singleton.mpr hpay)
    have hzero : σ.load (Action.pays o) = 0 := others .payment (by decide)
    rw [hn] at h₁
    rw [hzero] at h₂
    exact .paying (Nat.succ.inj h₁) h₂ (by rw [hτp, hvp, hp]) (by rw [hτi, hvi, hi])
      (by rw [hτc, hvc, hc])
  | turnedAway l hinf hy hsame =>
    have h₁ := (hturn _ hy).spends matter_loud hloud fun b hb =>
      loud_of_side .employee b (hinf b hb)
    have h₂ := (hturn _ hy).gains (matter_informs o) (side_unique hships (by decide)) hinf
    have hzero : σ.load (Action.informs o) = 0 := others .employee (by decide)
    obtain ⟨-, -, hvs, -⟩ := World.standing_parts hsame
    exact .turnedAway (by omega) (by rw [hτs, hvs, hs])

/-- The one thing that is not quiet is the payment. -/
theorem paying_move (ht : σ.Tended s o) {a : Action} (ha : ActsLoudly s σ τ m a)
    (hn : σ.load Action.isLoud = 1) (hl : σ.load (Action.pays o) = 1)
    (hp : (σ.world.order o).payment = .trying) (hi : σ.world.informed o = false)
    (hc : σ.world.crashed o = false) (hd : a.defers o = false) : Undecided o τ := by
  obtain ⟨i, rest, r, hidx, -, -⟩ := ha.step
  have hpays : a.pays o = true :=
    load_all (loud_of_side .payment) (hn.trans hl.symm) hidx (by simp [Action.isLoud, ha.loud])
  have hloud := loud_of_side .payment a hpays
  obtain ⟨v, todo, hx, hset, -, hturn, -⟩ := ha.outcome
  obtain ⟨v', todo', hx', hpay⟩ := perform_pays (s := s) hpays hd ht.calm.orderly.unlocked
    ht.calm.orderly.replies ht.calm.isOpen ht.exists_order hp
  obtain ⟨rfl, rfl⟩ := hx.unique hx'
  obtain ⟨hτp, hτi, -, hτc⟩ := World.standing_parts (World.standing_of_settings hset o)
  cases hpay with
  | again b hb hy hsame =>
    have hbloud := loud_of_side .payment b hb
    have h₁ := (hturn _ hy).spends matter_loud hloud (List.forall_mem_singleton.mpr hbloud)
    have h₂ := (hturn _ hy).spends (matter_pays o) hpays (List.forall_mem_singleton.mpr hb)
    obtain ⟨hvp, hvi, -, hvc⟩ := World.standing_parts hsame
    rw [hn] at h₁
    rw [hl] at h₂
    exact .paying (Nat.succ.inj h₁) (Nat.succ.inj h₂) (by rw [hτp, hvp, hp])
      (by rw [hτi, hvi, hi]) (by rw [hτc, hvc, hc])
  | settled p hy hvp hne hvc =>
    have h₁ := (hturn _ hy).spends matter_loud hloud (List.forall_mem_nil _)
    rw [hn] at h₁
    exact .settled (Nat.succ.inj h₁) (by rw [hτp, hvp]; exact hne) (by rw [hτc, hvc, hc])
  | crashed hy hvp hvi hvc =>
    have h₁ := (hturn _ hy).spends matter_loud hloud (List.forall_mem_nil _)
    rw [hn] at h₁
    exact .crashed (Nat.succ.inj h₁) (by rw [hτp, hvp, hp]) (by rw [hτi, hvi, hi])
      (by rw [hτc, hvc])

/-- Where the payment is put off for the first time, its time decides. -/
theorem defers_move {a : Action} (ha : ActsLoudly s σ τ m a) (hd : a.defers o = true)
    (hn : σ.load Action.isLoud = 1) (hp : (σ.world.order o).payment = .trying)
    (hi : σ.world.informed o = false) :
    if σ.world.budgetExceeded o s.config.limits.payment = true then Lost o τ else Alerted o τ := by
  cases a with
  | deferPayment c p =>
    have hpo : p = o := by simpa [Action.defers] using hd
    subst hpo
    obtain ⟨v, todo, hx, hset, -, hturn, -⟩ := ha.outcome
    obtain ⟨rfl, rfl⟩ := hx.unique (.inl (perform_defers c hp))
    obtain ⟨hτp, hτi, -, -⟩ := World.standing_parts (World.standing_of_settings hset p)
    have hy := hturn _ (yields_self rfl)
    have hpays := pays_of_defers hd
    split
    · next hlate =>
      rw [if_pos hlate] at hy
      have h₁ := hy.spends matter_loud (loud_of_side .payment _ hpays) (List.forall_mem_nil _)
      rw [hn] at h₁
      exact ⟨Nat.succ.inj h₁, by rw [hτp, hp], by rw [hτi, hi]⟩
    · next hlate =>
      have h₂ := hy _ (matter_informs p)
      have hescalate : (Action.escalate c p).informs p = true := decide_eq_true rfl
      rw [if_neg hlate] at h₂
      simp only [List.countP_cons, List.countP_nil, hescalate,
        show (Action.deferPayment c p).informs p = false from side_unique hpays (by decide),
        Bool.false_eq_true, if_false, if_true] at h₂
      exact .inr (by omega)
  | _ => cases hd

/-- The order was turned away, and all that is left is to inform an employee. -/
theorem turnedAway_move (ht : σ.Tended s o) {a : Action} (ha : ActsLoudly s σ τ m a)
    (hinforms : a.informs o = true) (hn : σ.load Action.isLoud = σ.load (Action.informs o))
    (hs : σ.world.shipped o = false) : Undecided o τ := by
  obtain ⟨v, todo, hx, hset, -, hturn, -⟩ := ha.outcome
  obtain ⟨v', todo', hx', hinform⟩ := perform_informs (s := s) hinforms ht.calm.orderly.unlocked
    ht.calm.orderly.replies ht.calm.isOpen ht.calm.parks ht.exists_order
  obtain ⟨rfl, rfl⟩ := hx.unique (.inl hx')
  obtain ⟨-, -, hτs, -⟩ := World.standing_parts (World.standing_of_settings hset o)
  have hloud := loud_of_side .employee a hinforms
  have ends (hy : Yields σ.world v' todo' []) (hvs : v'.shipped o = σ.world.shipped o) :
      Undecided o τ := by
    have h₁ := (hturn _ hy).spends matter_loud hloud (List.forall_mem_nil _)
    have h₂ := (hturn _ hy).spends (matter_informs o) hinforms (List.forall_mem_nil _)
    exact .turnedAway (by omega) (by rw [hτs, hvs, hs])
  cases hinform with
  | again b hb hy hvs =>
    have hbloud := loud_of_side .employee b hb
    have h₁ := (hturn _ hy).spends matter_loud hloud (List.forall_mem_singleton.mpr hbloud)
    have h₂ := (hturn _ hy).spends (matter_informs o) hinforms (List.forall_mem_singleton.mpr hb)
    exact .turnedAway (by omega) (by rw [hτs, hvs, hs])
  | late _ hy hvs => exact ends hy hvs
  | escalated hy _ hvs => exact ends hy hvs

theorem not_defers_of_quiet {a : Action} (h : a.isQuiet = true) : a.defers o = false := by
  cases a with
  | deferPayment c p => cases h
  | _ => rfl

/-- A move leaves the matter undecided, unless it puts the payment off. -/
theorem Undecided.move (ht : σ.Tended s o) (h : Undecided o σ) (hm : m.Benign s)
    (hτ : σ.move? s m = some τ) :
    if (σ.performed? m).any (Action.defers o) = true then
      if σ.world.budgetExceeded o s.config.limits.payment = true then Lost o τ else Alerted o τ
    else Undecided o τ := by
  obtain ⟨hr, hquiet⟩ | ⟨a, ha⟩ := ht.calm.quiet_or_loud hm hτ
  · have hany : ¬ (σ.performed? m).any (Action.defers o) = true := by
      cases hp : σ.performed? m with
      | none => simp
      | some a => simp [not_defers_of_quiet (hquiet a hp)]
    rw [if_neg hany]
    exact h.rests hr
  have hany : (σ.performed? m).any (Action.defers o) = a.defers o := by
    rw [ha.performed]
    rfl
  rw [hany]
  obtain ⟨i, rest, r, hi, -, -⟩ := ha.step
  have hpos := load_pos (p := Action.isLoud) hi (by simp [Action.isLoud, ha.loud])
  cases h with
  | placing hn hl hst =>
    obtain ⟨hships, hu⟩ := placing_move ht ha hn hl hst
    have hd : ¬ a.defers o = true := fun hd => by
      have hnot : a.pays o = false := side_unique hships (by decide)
      rw [pays_of_defers hd] at hnot
      cases hnot
    rw [if_neg hd]
    exact hu
  | paying hn hl hp hinf hc =>
    by_cases hd : a.defers o = true
    · rw [if_pos hd]
      exact defers_move ha hd hn hp hinf
    · rw [if_neg hd]
      exact paying_move ht ha hn hl hp hinf hc (by simpa using hd)
  | turnedAway hn hs =>
    have hinforms : a.informs o = true :=
      load_all (loud_of_side .employee) hn hi (by simp [Action.isLoud, ha.loud])
    have hd : ¬ a.defers o = true := fun hd => by
      have hnot : a.pays o = false := side_unique hinforms (by decide)
      rw [pays_of_defers hd] at hnot
      cases hnot
    rw [if_neg hd]
    exact turnedAway_move ht ha hinforms hn hs
  | settled hn _ _ => omega
  | crashed hn _ _ _ => omega

end Steps

/-! ## Whole runs -/

/-- The world in which the payment of the order is put off for the first time. -/
def firstDeferral? (s : Setup) (o : OrderRef) : List Move → System → Option World
  | [], _ => none
  | m :: moves, σ =>
    if (σ.performed? m).any (Action.defers o) then some σ.world
    else (σ.move? s m).bind (firstDeferral? s o moves)

/-- Where a run gets to whose payment was first put off in this world, if it was. -/
def Ends (s : Setup) (o : OrderRef) (τ : System) : Option World → Prop
  | none => Undecided o τ
  | some w =>
    if w.budgetExceeded o s.config.limits.payment = true then Lost o τ else Alerted o τ

section Runs
variable {s : Setup} {o : OrderRef} {σ τ : System} {moves : List Move}

theorem Tended.play (h : σ.Tended s o) (hm : ∀ m ∈ moves, m.Benign s)
    (hτ : play? s moves σ = some τ) : τ.Tended s o :=
  play?_induct (fun m hmem _ _ hstep hυ => hυ.move (hm m hmem) hstep) hτ h

theorem Lost.play (ht : σ.Tended s o) (h : Lost o σ) (hm : ∀ m ∈ moves, m.Benign s)
    (hτ : play? s moves σ = some τ) : Lost o τ := by
  have hboth : τ.Tended s o ∧ Lost o τ := by
    refine play?_induct (P := fun υ => υ.Tended s o ∧ Lost o υ) ?_ hτ ⟨ht, h⟩
    intro m hmem υ ω hω hυ
    exact ⟨hυ.1.move (hm m hmem) hω, hυ.2.move hυ.1 (hm m hmem) hω⟩
  exact hboth.2

/-- An order in time at the end of a run was in time at its start. -/
theorem Tended.in_time (ht : σ.Tended s o) (hm : ∀ m ∈ moves, m.Benign s)
    (hτ : play? s moves σ = some τ) {b : Span} (htime : τ.world.budgetExceeded o b = false) :
    σ.world.budgetExceeded o b = false := by
  have he := (ht.calm.orderly.play (fun m hmem => (hm m hmem).whole) hτ).1
  cases hb : σ.world.budgetExceeded o b with
  | false => rfl
  | true =>
    rw [he.budgetExceeded ht.calm.orderly.clock o b hb] at htime
    cases htime

theorem Alerted.play (ht : σ.Tended s o) (h : Alerted o σ) (hm : ∀ m ∈ moves, m.Benign s)
    (hτ : play? s moves σ = some τ)
    (htime : τ.world.budgetExceeded o s.config.limits.employee = false) : Alerted o τ := by
  induction moves generalizing σ with
  | nil =>
    cases hτ
    exact h
  | cons m moves ih =>
    have hnow := ht.in_time hm hτ htime
    simp only [play?, Option.bind_eq_some_iff] at hτ
    obtain ⟨υ, hυ, hτ⟩ := hτ
    have hfirst := hm m (List.mem_cons_self ..)
    exact ih (ht.move hfirst hυ) (h.move ht hfirst hυ hnow)
      (fun n hn => hm n (List.mem_cons_of_mem _ hn)) hτ

theorem Undecided.play (ht : σ.Tended s o) (h : Undecided o σ) (hm : ∀ m ∈ moves, m.Benign s)
    (hτ : play? s moves σ = some τ)
    (htime : τ.world.budgetExceeded o s.config.limits.employee = false) :
    Ends s o τ (firstDeferral? s o moves σ) := by
  induction moves generalizing σ with
  | nil =>
    cases hτ
    exact h
  | cons m moves ih =>
    simp only [play?, Option.bind_eq_some_iff] at hτ
    obtain ⟨υ, hυ, hτ⟩ := hτ
    have hfirst := hm m (List.mem_cons_self ..)
    have hrest : ∀ n ∈ moves, n.Benign s := fun n hn => hm n (List.mem_cons_of_mem _ hn)
    have htυ := ht.move hfirst hυ
    have hstep := h.move ht hfirst hυ
    simp only [firstDeferral?]
    by_cases hd : (σ.performed? m).any (Action.defers o) = true
    · rw [if_pos hd] at hstep ⊢
      simp only [Ends]
      split
      · next hlate =>
        rw [if_pos hlate] at hstep
        exact hstep.play htυ hrest hτ
      · next hlate =>
        rw [if_neg hlate] at hstep
        exact hstep.play htυ hrest hτ htime
    · rw [if_neg hd] at hstep ⊢
      rw [hυ, Option.bind_some]
      exact ih htυ hstep hrest hτ

/-- The order is about to be placed, on the only thread there is; messaging and the employee handle
have no failure scripted. -/
structure Placing (s : Setup) (c : CoordinatorRef) (o : OrderRef) (σ : System) : Prop where
  calm : σ.Calm s
  threads : σ.threads = [[.place c o]]
  pending : σ.world.pending = []
  exists_order : o < σ.world.orders.length
  parks : σ.world.Parks o
  standing : σ.world.standing o = (.trying, false, false, false)

/-- The payment is pending and no employee has the order. -/
def InLimbo (o : OrderRef) (σ : System) : Prop :=
  (σ.world.order o).payment = .trying ∧ σ.world.informed o = false

theorem Placing.undecided {c : CoordinatorRef} (h : σ.Placing s c o) : Undecided o σ := by
  have hload (p : Action → Bool) (hp : p (.place c o) = true) : σ.load p = 1 := by
    simp only [load, World.waiting, h.threads, h.pending, List.flatten_cons, List.flatten_nil,
      List.append_nil, List.countP_cons, List.countP_nil, hp, if_true]
  have hships : (Action.place c o).ships o = true := decide_eq_true rfl
  exact .placing (hload _ (loud_of_side .shipping _ hships)) (hload _ hships) h.standing

theorem Undecided.at_rest (h : Undecided o τ) (hidle : τ.Idle)
    (hshipped : τ.world.shipped o = true) : τ.InLimbo o ↔ τ.world.crashed o = true := by
  cases h with
  | placing hn _ _ =>
    rw [hidle.load] at hn
    cases hn
  | paying hn _ _ _ _ =>
    rw [hidle.load] at hn
    cases hn
  | turnedAway _ hs =>
    rw [hs] at hshipped
    cases hshipped
  | settled _ hp hc =>
    rw [hc]
    exact ⟨fun h => absurd h.1 hp, fun h => by cases h⟩
  | crashed _ hp hi hc => exact ⟨fun _ => hc, fun _ => ⟨hp, hi⟩⟩

theorem Alerted.at_rest (ht : τ.Tended s o) (h : Alerted o τ) (hidle : τ.Idle) :
    ¬ τ.InLimbo o := by
  rintro ⟨-, hi⟩
  obtain hesc | hpos := h
  · rw [ht.parks hesc] at hi
    cases hi
  · rw [hidle.load] at hpos
    cases hpos

/-- At the end of a run in which messages and the employee handle never fail, while an employee
could still be informed, a shipped order is in limbo exactly if the time for its payment was over
when the payment was put off for the first time, or if it never was put off and the payment service
panicked. -/
theorem limbo_iff (s : Setup) (c : CoordinatorRef) (o : OrderRef) (σ τ : System)
    (moves : List Move) (h : σ.Placing s c o) (hm : ∀ m ∈ moves, m.Benign s)
    (hrun : play? s moves σ = some τ)
    (htime : τ.world.budgetExceeded o s.config.limits.employee = false) (hidle : τ.Idle)
    (hshipped : τ.world.shipped o = true) :
    τ.InLimbo o ↔ match firstDeferral? s o moves σ with
      | some w => w.budgetExceeded o s.config.limits.payment = true
      | none => τ.world.crashed o = true := by
  have ht : σ.Tended s o := ⟨h.calm, h.exists_order, h.parks⟩
  have hends := h.undecided.play ht hm hrun htime
  cases hd : firstDeferral? s o moves σ with
  | none =>
    rw [hd] at hends
    exact Undecided.at_rest hends hidle hshipped
  | some w =>
    rw [hd] at hends
    simp only [Ends] at hends
    by_cases hlate : w.budgetExceeded o s.config.limits.payment = true
    · rw [if_pos hlate] at hends
      exact ⟨fun _ => hlate, fun _ => ⟨hends.payment, hends.informed⟩⟩
    · rw [if_neg hlate] at hends
      have hnot := hends.at_rest (ht.play hm hrun) hidle
      exact ⟨fun hl => absurd hl hnot, fun hl => absurd hl hlate⟩

end Runs

/-- An order about to be placed, whose payment will fail twice. -/
def failingPayments : System :=
  { world :=
      { clock := 0
        orders := [{ id := ⟨"A1"⟩, customer := ⟨"Jim", "ABCD"⟩, item := "book", price := 10,
                     createdAt := 0 }]
        faults := { payment := [.databaseUnavailable, .databaseUnavailable] } }
    threads := [[.place 0 0]] }

/-- One retry, and the payment due in a second. -/
def oneSecond : Setup :=
  { config := { retry := { retries := 1 }, limits := { payment := Span.ofSecs 1 } } }

/-- One retry, the usual times, and no queue. -/
def oneRetry : Setup :=
  { config := { retry := { retries := 1 } }
    hasStore := false }

theorem failingPayments_placing (s : Setup) : failingPayments.Placing s 0 0 := by
  have horderly : failingPayments.Orderly s :=
    ⟨by decide, .of_forall (by decide), by simp [World.Whole, failingPayments],
      by simp [failingPayments, bracketed]⟩
  have hanswers (sv : Service) (k : CallKind) (hsv : sv ≠ .payment) :
      failingPayments.world.Answers sv k := by
    refine ⟨?_, by simp [failingPayments]⟩
    cases sv <;> first | rfl | exact absurd rfl hsv
  have hparks : failingPayments.world.Parks 0 := fun h => by cases h
  exact ⟨⟨horderly, ⟨rfl, rfl⟩, hanswers _ _ (by decide), hanswers _ _ (by decide)⟩, rfl, rfl,
    by decide, hparks, rfl⟩

/-- The order is shipped, the payment is attempted, waits for its retry, is attempted again and is
put off. -/
def putOff : List Move :=
  [.act 0, .act 0, .act 0, .act 0, .start 0, .act 1, .act 1, .act 1, .act 1, .act 1]

/-- The escalation and the message to the customer run to their ends. -/
def thenInform : List Move :=
  [.act 1, .act 1, .act 1, .start 0, .act 2, .act 2, .start 0, .act 3, .act 3]

theorem deferral_in_time_informs :
    ∃ τ, play? oneRetry (putOff ++ thenInform) failingPayments = some τ ∧ τ.Idle ∧
      τ.world.shipped 0 = true ∧ ¬ τ.InLimbo 0 := by
  refine ⟨_, rfl, ⟨rfl, by decide⟩, rfl, ?_⟩
  have h := limbo_iff oneRetry 0 0 failingPayments _ (putOff ++ thenInform)
    (failingPayments_placing oneRetry) (by simp [putOff, thenInform, Move.Benign]) rfl rfl
    ⟨rfl, by decide⟩ rfl
  intro hlimbo
  have hlate := h.mp hlimbo
  cases hlate

/-- The time for the payment passes before its retry: it stays pending, and nobody hears of it. -/
theorem expired_retry_in_limbo :
    ∃ τ, play? oneSecond (putOff ++ [.act 1, .start 0, .act 2, .act 2]) failingPayments = some τ ∧
      τ.Idle ∧ τ.world.shipped 0 = true ∧
      τ.world.budgetExceeded 0 oneSecond.config.limits.employee = false ∧
      τ.world.budgetExceeded 0 oneSecond.config.limits.message = false ∧
      τ.world.budgetExceeded 0 oneSecond.config.limits.queue = false ∧
      (τ.world.order 0).payment = .trying ∧ τ.world.informed 0 = false :=
  ⟨_, rfl, ⟨rfl, by decide⟩, rfl, rfl, rfl, rfl, rfl, rfl⟩

end System
end Fulfilment
