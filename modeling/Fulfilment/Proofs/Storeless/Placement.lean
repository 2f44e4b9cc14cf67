import Fulfilment.Proofs.Inline.Convergence
import Fulfilment.Proofs.Inline.Stake
import Fulfilment.Proofs.Retry.Bound
import Fulfilment.Proofs.Storeless.Docket

/-! A placement without a queue store, jobs running on the spot and all in time, does what the
docket of the order foretells.

* `World.docket`: the docket of an order in a world.
* `Run.At`: the run comes to a docket with something left to do.
* `At.asked`: a service is asked until it has nothing against it or a failure is handed over.
* `At.referred`, `At.told`, `At.paid`, `At.placed`: the stages, each one as on the docket. -/
namespace Fulfilment

set_option autoImplicit false

/-! ## Dockets of worlds -/

/-- The job that hands the order to an employee. -/
abbrev referral (c : CoordinatorRef) (o : OrderRef) : Job := ⟨c, .escalation o⟩

/-- How often the coordinator was to hand the order to an employee. -/
def World.referrals (c : CoordinatorRef) (o : OrderRef) (w : World) : Nat :=
  w.spawnings.count (referral c o)

def World.docket (c : CoordinatorRef) (o : OrderRef) (w : World) : Docket where
  order := w.order o
  scripts := w.faults
  shipped := w.shipped o
  payments := w.payments o
  messages := w.messages o
  handed := w.handed o
  referrals := w.referrals c o

/-- Jobs run on the spot, and nothing can be put off. -/
structure Setup.Storeless (s : Setup) : Prop where
  dispatch : s.dispatch = .inline
  hasStore : s.hasStore = false

/-- An outcome that leaves this to do, and the order with this docket. -/
def Outcome.Shows (c : CoordinatorRef) (o : OrderRef) (d : Docket) (todo : List Action)
    (x : Outcome) : Prop :=
  ∃ v, x = .next v todo ∧ v.docket c o = d

section Worlds
variable {s : Setup} {c : CoordinatorRef} {o : OrderRef} {w : World}

theorem World.handed_of_id {v : World} (hid : (v.order o).id = (w.order o).id)
    (hemployee : v.collaborators.employee = w.collaborators.employee) :
    v.handed o = w.handed o := by
  rw [handed, handed, idOf, idOf, hid, hemployee]

theorem World.docket_modifyOrder (ho : o < w.orders.length) (f : Order → Order)
    (hf : ∀ x, (f x).id = x.id) :
    (w.modifyOrder o f).docket c o = { w.docket c o with order := f (w.order o) } := by
  have horder := w.order_modifyOrder o o f
  rw [if_pos ⟨rfl, ho⟩] at horder
  have hhanded : (w.modifyOrder o f).handed o = w.handed o :=
    handed_of_id (by rw [horder, hf]) rfl
  rw [docket, horder, hhanded]
  rfl

theorem World.docket_showNotice (ho : o < w.orders.length) (i : SiteNotice) :
    (w.showNotice o i).docket c o = (w.docket c o).note i := by
  cases hn : (w.order o).notice with
  | some j =>
    have hsame : (w.order o).recordNotice i = w.order o := by rw [Order.recordNotice, hn]
    simp only [showNotice, hn]
    rw [Docket.note]
    show w.docket c o = { w.docket c o with order := (w.order o).recordNotice i }
    rw [hsame]
    rfl
  | none =>
    simp only [showNotice, hn]
    exact World.docket_modifyOrder ho _ fun x => by
      cases hx : x.notice <;> simp only [Order.recordNotice, hx]

theorem spawnings_fulfil (work : Work) (empty : Bool) (w : World) :
    (fulfil work empty w).1.spawnings = w.spawnings :=
  spawnings_of_background (x := .next (fulfil work empty w).1 []) (fulfil_background work empty w)

/-- The employee handle keeps the record it has of an order, or takes the first one. -/
theorem handed_park (w : World) (ho : o < w.orders.length) :
    (fulfil (.escalation o) false w).1.handed o = max (w.handed o) 1 := by
  have hid : (fulfil (.escalation o) false w).1.idOf o = w.idOf o := by
    have horder := order_fulfil (.escalation o) false w o
    rw [if_pos ⟨rfl, ho⟩] at horder
    rw [World.idOf, horder]
    rfl
  have hkeys : (fulfil (.escalation o) false w).1.collaborators.employee.keys =
      if w.idOf o ∈ w.collaborators.employee.keys then w.collaborators.employee.keys
      else w.collaborators.employee.keys ++ [w.idOf o] := by
    rw [employee_fulfil]
    exact Records.keys_insertIfAbsent ..
  rw [World.handed, hid, hkeys, World.handed]
  split
  · next hmem =>
    have hpos := List.count_pos_iff.mpr hmem
    omega
  · next hnew => simp [List.count_append, List.count_eq_zero_of_not_mem hnew]

theorem World.docket_ship (w : World) :
    (fulfil (.shipping o) false w).1.docket c o = { w.docket c o with shipped := true } := by
  have hshipped := shipped_fulfil (.shipping o) false w o
  rw [decide_eq_true rfl, Bool.true_or] at hshipped
  rw [docket, hshipped]
  rfl

theorem World.docket_charge (w : World) (ho : o < w.orders.length) :
    (fulfil (.payment o) false w).1.docket c o = (w.docket c o).charge := by
  have horder := order_fulfil (.payment o) false w o
  rw [if_pos ⟨rfl, ho⟩] at horder
  have hpayments := payments_fulfil (.payment o) false w o
  rw [if_pos rfl] at hpayments
  have hhanded : (fulfil (.payment o) false w).1.handed o = w.handed o :=
    handed_of_id (by rw [horder]; rfl) rfl
  rw [docket, horder, hpayments, hhanded]
  rfl

theorem World.docket_deliver (w : World) (m : MessageType) (ho : o < w.orders.length) :
    (fulfil (.messaging o m) false w).1.docket c o = (w.docket c o).deliver m := by
  have horder := order_fulfil (.messaging o m) false w o
  rw [if_pos ⟨rfl, ho⟩] at horder
  have hmessages := messages_fulfil (.messaging o m) false w o
  simp only [if_pos] at hmessages
  have hhanded : (fulfil (.messaging o m) false w).1.handed o = w.handed o :=
    handed_of_id (by rw [horder]; rfl) rfl
  rw [docket, horder, hmessages, hhanded]
  rfl

theorem World.docket_park (w : World) (ho : o < w.orders.length) :
    (fulfil (.escalation o) false w).1.docket c o = (w.docket c o).park := by
  have horder := order_fulfil (.escalation o) false w o
  rw [if_pos ⟨rfl, ho⟩] at horder
  have hshipped := shipped_fulfil (.escalation o) false w o
  have hpayments := payments_fulfil (.escalation o) false w o
  have hmessages := messages_fulfil (.escalation o) false w o
  have hreferrals : (fulfil (.escalation o) false w).1.referrals c o = w.referrals c o := by
    rw [referrals, spawnings_fulfil]
    rfl
  rw [docket, horder, hshipped, hpayments, hmessages, hreferrals, handed_park w ho, fulfil_faults]
  rfl

/-! ## Actions -/

theorem spawn_shows (hs : s.Storeless) (hw : w.Open) (work : Work)
    (hwork : work ≠ .escalation o) :
    (spawn s ⟨c, work⟩ w).Shows c o (w.docket c o) [.attempt ⟨c, work⟩ 0, .finish ⟨c, work⟩] := by
  have hother : (⟨c, work⟩ : Job) ≠ referral c o := fun h => hwork (congrArg Job.work h)
  refine ⟨_, spawn_inline hs.dispatch hw _, ?_⟩
  have hsame : World.referrals c o (w.record (.spawned ⟨c, work⟩)) = w.referrals c o :=
    List.count_cons_of_ne hother
  exact congrArg (fun n => { w.docket c o with referrals := n }) hsame

theorem spawn_asks (hs : s.Storeless) (hw : w.Open) :
    (spawn s (referral c o) w).Shows c o (w.docket c o).ask
      [.attempt (referral c o) 0, .finish (referral c o)] := by
  refine ⟨_, spawn_inline hs.dispatch hw _, ?_⟩
  have hmore : World.referrals c o (w.record (.spawned (referral c o))) = w.referrals c o + 1 :=
    List.count_cons_self
  exact congrArg (fun n => { w.docket c o with referrals := n }) hmore

/-- A task is dropped, whatever its state: there is no queue store. -/
theorem enqueue_shows (hs : s.Storeless) (t : Task) :
    (enqueue s c t w).Shows c o (w.docket c o) [] := by
  simp only [enqueue, hs.hasStore, Bool.false_eq_true, if_false]
  repeat' split
  all_goals exact ⟨_, rfl, rfl⟩

theorem pause_shows (hs : s.Storeless) (d : Span) :
    (perform s (.pause d) w).Shows c o (w.docket c o) [] := by
  simp only [perform, pause, hs.dispatch, reduceCtorEq, false_and, if_false]
  split <;> exact ⟨_, rfl, rfl⟩

theorem finish_shows (hs : s.Storeless) (j : Job) :
    (perform s (.finish j) w).Shows c o (w.docket c o) [] := by
  simp only [perform, finished, hs.dispatch]
  exact ⟨_, rfl, rfl⟩

/-! ## Attempts -/

/-- The world once the next failure of the script was met. -/
def World.rejected (work : Work) (f : Failure) (left : Faults) (w : World) : World :=
  let popped := { w with faults := w.faults.set left work.service }
  popped.remark (rejection work f popped)

theorem attempt_of_fault (hw : w.Plain) (work : Work) (n : UInt32) {f : Failure} {left : Faults}
    (hf : w.faults.get work.service = f :: left) :
    attempt s ⟨c, work⟩ n w = failed s ⟨c, work⟩ n f (w.rejected work f left) := by
  have hpop : w.popFault work.service =
      (some f, { w with faults := w.faults.set left work.service }) := by
    simp only [World.popFault, FaultScripts.pop, hf]
  rw [attempt_eq s _ n w hw.unlocked, hpop]
  rfl

theorem World.docket_rejected (work : Work) (f : Failure) (left : Faults) :
    (w.rejected work f left).docket c o =
      { w.docket c o with scripts := w.faults.set left work.service } :=
  rfl

/-- A failure that is repeated leaves a pause and one more attempt. -/
theorem attempt_repeats (hw : w.Plain) (work : Work) (n : UInt32) {f : Failure} {left : Faults}
    (hf : w.faults.get work.service = f :: left)
    (hr : Retry.repeats s.config.retry.retries (n + 1) f.isOutage = true) :
    ∃ d, (attempt s ⟨c, work⟩ n w).Shows c o
      { w.docket c o with scripts := w.faults.set left work.service }
      [.pause d, .attempt ⟨c, work⟩ (n + 1)] := by
  rw [attempt_of_fault hw work n hf]
  simp only [failed, hr, if_true]
  exact ⟨_, _, rfl, rfl⟩

/-- A failure that is not repeated is handed over. -/
theorem attempt_hands (hw : w.Plain) (work : Work) (n : UInt32) {f : Failure} {left : Faults}
    (hf : w.faults.get work.service = f :: left)
    (hr : Retry.repeats s.config.retry.retries (n + 1) f.isOutage = false) :
    attempt s ⟨c, work⟩ n w = handOver s ⟨c, work⟩ f (w.rejected work f left) := by
  rw [attempt_of_fault hw work n hf]
  simp only [failed, hr, Bool.false_eq_true, if_false]

/-! ### Failures handed over -/

theorem notice_shows (ho : o < w.orders.length) (i : SiteNotice) (r : Remark)
    (todo : List Action) :
    (Outcome.next ((w.showNotice o i).remark r) todo).Shows c o ((w.docket c o).note i) todo :=
  ⟨_, rfl, w.docket_showNotice ho i⟩

/-- A pending payment that was refused for good fails. -/
theorem paymentFailed_refused (hu : w.Unlocked) (ho : o < w.orders.length) {f : Failure}
    (hf : f.kind = .paymentDetailsError) :
    let noted := (w.docket c o).note .paymentDetailsInvalid
    (paymentFailed s c o f w).Shows c o
      (if noted.order.payment = .trying then noted.settle .notDone else noted)
      (if noted.order.payment = .trying then [.tell c o .paymentFail] else []) := by
  intro noted
  have hnoted : (w.showNotice o .paymentDetailsInvalid).docket c o = noted :=
    w.docket_showNotice ho _
  have horder : (w.showNotice o .paymentDetailsInvalid).order o = noted.order :=
    congrArg Docket.order hnoted
  simp only [paymentFailed, if_pos hf,
    failPayment_eq s o _ (hu.showNotice o .paymentDetailsInvalid), failPending, horder]
  split
  · refine ⟨_, rfl, ?_⟩
    have hsettled := World.docket_modifyOrder (c := c)
      (w := w.showNotice o .paymentDetailsInvalid) (by rw [length_showNotice]; exact ho)
      (fun x => { x with payment := .notDone }) fun _ => rfl
    rw [hnoted, horder] at hsettled
    exact hsettled
  · exact ⟨_, rfl, hnoted⟩

/-- Any other failure leaves a payment pending. -/
theorem paymentFailed_pending (ho : o < w.orders.length) {f : Failure}
    (hf : f.kind ≠ .paymentDetailsError) :
    (paymentFailed s c o f w).Shows c o
      (if (w.order o).sent = .noneSent then (w.docket c o).note .paymentPending
      else w.docket c o)
      (if (w.order o).sent = .noneSent then [.tell c o .paymentTrying, .deferPayment c o]
      else [.deferPayment c o]) := by
  simp only [paymentFailed, if_neg hf]
  split
  · exact notice_shows ho _ _ _
  · exact ⟨_, rfl, rfl⟩

theorem messagingFailed_shows (m : MessageType) (f : Failure) (ht : w.InTime s o) :
    (messagingFailed s c o m f w).Shows c o (w.docket c o)
      (if (w.order o).needsMessage m then [.enqueue c (.messaging o m), .escalate c o]
      else []) := by
  simp only [messagingFailed, ht.message, Bool.not_false, Bool.and_true]
  split <;> exact ⟨_, rfl, rfl⟩

theorem escalationFailed_shows (f : Failure) :
    ∃ todo, (escalationFailed s c o f w).Shows c o (w.docket c o) todo ∧
      (todo = [] ∨ todo = [.enqueue c (.employeeDb o)]) := by
  simp only [escalationFailed]
  split
  · exact ⟨_, ⟨_, rfl, rfl⟩, .inr rfl⟩
  · exact ⟨_, ⟨_, rfl, rfl⟩, .inl rfl⟩

/-! ### Calls -/

section Calls
variable (n : UInt32) (hw : w.Plain)
include hw

theorem shipping_shows (hf : w.faults.get .shipping = []) :
    (attempt s ⟨c, .shipping o⟩ n w).Shows c o { w.docket c o with shipped := true }
      [.pay c o] := by
  have hneeded : needed ⟨c, .shipping o⟩ w = true := rfl
  rw [attempt_clear (j := ⟨c, .shipping o⟩) n hw hf, if_pos hneeded]
  exact ⟨_, rfl, World.docket_ship _⟩

theorem payment_shows (ho : o < w.orders.length) (hf : w.faults.get .payment = []) :
    (attempt s ⟨c, .payment o⟩ n w).Shows c o
      (if (w.order o).payment = .trying then (w.docket c o).charge.note .paymentSuccessful
      else w.docket c o)
      (if (w.order o).payment = .trying then [.tell c o .paymentSuccess] else []) := by
  rw [attempt_clear (j := ⟨c, .payment o⟩) n hw hf]
  by_cases hp : (w.order o).payment = .trying
  · have hneeded : needed ⟨c, .payment o⟩ w = true := decide_eq_true hp
    rw [if_pos hneeded, if_pos hp, if_pos hp]
    generalize hu : w.record (.called (callOf (.payment o) w)) = u
    have hdocket : u.docket c o = w.docket c o := by rw [← hu]; rfl
    have hou : o < u.orders.length := by rw [← hu]; exact ho
    have hcharged : (fulfil (.payment o) false u).1.docket c o = (w.docket c o).charge := by
      rw [u.docket_charge hou, hdocket]
    have hlength : o < (fulfil (.payment o) false u).1.orders.length := by
      rw [length_fulfil]
      exact hou
    have hshown (r : Remark) := World.docket_showNotice (c := c)
      (w := (fulfil (.payment o) false u).1.remark r) hlength .paymentSuccessful
    exact ⟨_, rfl, (hshown _).trans (congrArg (Docket.note _) hcharged)⟩
  · have hneeded : ¬ needed ⟨c, .payment o⟩ w = true := fun h => hp (of_decide_eq_true h)
    rw [if_neg hneeded, if_neg hp, if_neg hp]
    exact ⟨_, rfl, rfl⟩

theorem messaging_shows (m : MessageType) (ho : o < w.orders.length)
    (hf : w.faults.get .messaging = []) :
    (attempt s ⟨c, .messaging o m⟩ n w).Shows c o
      (if (w.order o).needsMessage m then (w.docket c o).deliver m else w.docket c o) [] := by
  rw [attempt_clear (j := ⟨c, .messaging o m⟩) n hw hf]
  have hneeded : needed ⟨c, .messaging o m⟩ w = (w.order o).needsMessage m := rfl
  rw [hneeded]
  split
  · exact ⟨_, rfl, World.docket_deliver (w.record _) m ho⟩
  · exact ⟨_, rfl, rfl⟩

theorem escalation_shows (ho : o < w.orders.length) (hf : w.faults.get .employee = []) :
    (attempt s (referral c o) n w).Shows c o
      (if (w.order o).escalated then w.docket c o else (w.docket c o).park) [] := by
  rw [attempt_clear (j := referral c o) n hw hf]
  have hneeded : needed (referral c o) w = !(w.order o).escalated := rfl
  rw [hneeded]
  cases (w.order o).escalated with
  | true => exact ⟨_, rfl, rfl⟩
  | false =>
    have hcall : ∀ u : World, (fulfil (.escalation o) false u).2 = .accepted .parked := fun _ => rfl
    simp only [Bool.not_false, if_true, settle, hcall]
    exact ⟨_, rfl, World.docket_park (w.record _) ho⟩

end Calls

end Worlds

/-! ## Repetitions -/

/-- A service with one of these scripts is asked again `n` times at most: as often as the limit
says; under the greatest limit, which no 32-bit counter passes, after every outage. -/
inductive Setup.Asks (s : Setup) (n : Nat) (f : FaultScripts) : Prop
  | limited (hn : s.config.retry.retries.toNat = n) (hless : n + 1 < UInt32.size)
  | unlimited (hgreatest : s.config.retry.retries.toNat + 1 = UInt32.size)
      (hn : ∀ sv, (f.get sv).length ≤ n)

theorem Setup.Asks.mono {s : Setup} {n : Nat} {f g : FaultScripts} (h : s.Asks n f)
    (hg : ∀ sv, g.get sv <:+ f.get sv) : s.Asks n g := by
  cases h with
  | limited hn hless => exact .limited hn hless
  | unlimited hgreatest hn =>
    exact .unlimited hgreatest fun sv => Nat.le_trans (hg sv).length_le (hn sv)

/-- The outages that come before the failure handed over are repeated, and it is not. -/
theorem Setup.Asks.exists_split {s : Setup} {n : Nat} {f : FaultScripts} (h : s.Asks n f)
    (sv : Service) :
    ∃ m, f.get sv = List.replicate m .databaseUnavailable ++
        ((Faults.result n (f.get sv)).toList ++ Faults.left n (f.get sv)) ∧
      (∀ k ≤ m, Retry.repeats s.config.retry.retries (.ofNat k) true = true) ∧
      ∀ g, Faults.result n (f.get sv) = some g →
        Retry.repeats s.config.retry.retries (.ofNat m + 1) g.isOutage = false := by
  obtain ⟨m, hm, hscript, hlast, -⟩ := Faults.exists_split n (f.get sv)
  refine ⟨m, hscript, ?_⟩
  cases h with
  | limited hn hless =>
    generalize s.config.retry.retries = limit at hn ⊢
    have hcount {k : Nat} (hk : k ≤ n + 1) : (UInt32.ofNat k).toNat = k :=
      UInt32.toNat_ofNat_of_lt' (Nat.lt_of_le_of_lt hk hless)
    refine ⟨fun k hk => ?_, fun g hg => ?_⟩
    · have hbelow : ¬ limit < .ofNat k := by
        rw [UInt32.lt_iff_toNat_lt, hcount (by omega)]
        omega
      rw [Retry.repeats, decide_eq_false hbelow]
      rfl
    · cases hout : g.isOutage with
      | false => rfl
      | true =>
        have hnext : UInt32.ofNat m + 1 = .ofNat (m + 1) := by
          rw [UInt32.ofNat_add]
          rfl
        have hpassed : limit < .ofNat m + 1 := by
          rw [hnext, hlast g hg hout, UInt32.lt_iff_toNat_lt, hcount (Nat.le_refl _)]
          omega
        rw [Retry.repeats, decide_eq_true hpassed]
        rfl
  | unlimited hgreatest hn =>
    refine ⟨fun k _ => Retry.repeats_of_greatest hgreatest _, fun g hg => ?_⟩
    cases hout : g.isOutage with
    | false => rfl
    | true =>
      -- After `n` outages the script has no further one.
      have hlength := congrArg List.length hscript
      have hshort := hn sv
      rw [hg, hlast g hg hout, Option.toList_some, List.length_append, List.length_append,
        List.length_replicate, List.length_singleton] at hlength
      omega

/-! ## Runs -/

namespace Run
variable {s : Setup} {n : Nat} {c : CoordinatorRef} {o : OrderRef} {r : Run} {d : Docket}
  {rest : List Action}

/-- At no moment of the run a time for the order is over. -/
def Prompt (s : Setup) (o : OrderRef) (r : Run) : Prop := ∀ k, (r.drive s k).world.InTime s o

/-- The run comes to this docket of the order with this left to do, in a world where services are
asked again `n` times. -/
def At (s : Setup) (n : Nat) (c : CoordinatorRef) (o : OrderRef) (r : Run) (d : Docket)
    (agenda : List Action) : Prop :=
  ∃ k w, r.drive s k = { world := w, agenda } ∧ w.Plain ∧ o < w.orders.length ∧
    s.Asks n w.faults ∧ w.docket c o = d

/-- From a world with this docket the run goes on as the next action shows. -/
theorem At.next {a : Action} (h : At s n c o r d (a :: rest)) (ht : r.Prompt s o)
    (ha : a.isPlain = true) :
    ∃ w : World, w.Plain ∧ o < w.orders.length ∧ w.InTime s o ∧ w.docket c o = d ∧
      ∀ {d' todo}, (perform s a w).Shows c o d' todo → At s n c o r d' (todo ++ rest) := by
  obtain ⟨k, w, hk, hw, ho, hasks, hd⟩ := h
  have hin := ht k
  rw [hk] at hin
  refine ⟨w, hw, ho, hin, hd, fun {d' todo} hshows => ?_⟩
  obtain ⟨v, hp, hv⟩ := hshows
  have hc := hw.performed ha hp
  have hlength : o < v.orders.length :=
    hc.preserves (P := fun u => o < u.orders.length)
      (fun _ _ hu hlt => by rw [hu.length]; exact hlt) ho
  refine ⟨k + 1, v, ?_, hw.changes hc, hlength, hasks.mono hc.faults, hv⟩
  rw [drive_add, hk, drive_succ rfl, step_cons, hp]
  rfl

section Stages
variable (hs : s.Storeless) (ht : r.Prompt s o)
include hs ht

/-! ### Repetitions -/

/-- Outages are met one after the other while they are repeated. -/
theorem At.waits {work : Work} {tail : Faults} (i m : Nat)
    (hrepeats : ∀ k, i < k → k ≤ i + m →
      Retry.repeats s.config.retry.retries (.ofNat k) true = true)
    (hscript : d.scripts.get work.service = List.replicate m .databaseUnavailable ++ tail)
    (h : At s n c o r d (.attempt ⟨c, work⟩ (.ofNat i) :: rest)) :
    At s n c o r { d with scripts := d.scripts.set tail work.service }
      (.attempt ⟨c, work⟩ (.ofNat (i + m)) :: rest) := by
  induction m generalizing i d with
  | zero =>
    have hsame : d.scripts.set tail work.service = d.scripts := by
      rw [List.replicate_zero, List.nil_append] at hscript
      rw [← hscript, FaultScripts.set_get]
    rw [hsame]
    exact h
  | succ m ih =>
    obtain ⟨w, hw, ho, hin, rfl, hnext⟩ := h.next ht rfl
    have hfault : w.faults.get work.service =
        .databaseUnavailable :: (List.replicate m .databaseUnavailable ++ tail) := hscript
    have hcount : UInt32.ofNat i + 1 = .ofNat (i + 1) := by
      rw [UInt32.ofNat_add]
      rfl
    obtain ⟨span, hshows⟩ := attempt_repeats (c := c) (o := o) hw work (.ofNat i) hfault (by
      rw [hcount]
      exact hrepeats (i + 1) (Nat.lt_succ_self i) (by omega))
    obtain ⟨u, -, -, -, hu, hpaused⟩ := (hnext hshows).next ht rfl
    have hagain := hpaused (pause_shows hs span)
    rw [hu, List.nil_append, hcount] at hagain
    have hlater := ih (i + 1) (fun k hik hk => hrepeats k (by omega) (by omega))
      (by rw [FaultScripts.get_set, if_pos rfl]) hagain
    rw [FaultScripts.set_set] at hlater
    rw [Nat.add_comm m 1, ← Nat.add_assoc]
    exact hlater

/-- A service is asked until it has no failure left, or one that is handed over. -/
theorem At.asked {work : Work} (h : At s n c o r d (.attempt ⟨c, work⟩ 0 :: rest)) :
    ∃ failures, At s n c o r (d.facing n work.service) (.attempt ⟨c, work⟩ failures :: rest) ∧
      ∀ f, d.result n work.service = some f →
        Retry.repeats s.config.retry.retries (failures + 1) f.isOutage = false := by
  have hasks : s.Asks n d.scripts := by
    obtain ⟨k, w, -, -, -, hasks, rfl⟩ := h
    exact hasks
  obtain ⟨m, hscript, hrepeats, hstops⟩ := hasks.exists_split work.service
  have hlast := h.waits hs ht 0 m (fun k _ hk => hrepeats k (by omega)) hscript
  rw [Nat.zero_add] at hlast
  exact ⟨.ofNat m, hlast, hstops⟩

/-- Where no failure is handed over, the last attempt meets none, and the run goes on as it
shows. -/
theorem At.unopposed (work : Work) (hnone : d.result n work.service = none)
    (h : At s n c o r d (.attempt ⟨c, work⟩ 0 :: rest)) :
    ∃ failures w, w.Plain ∧ o < w.orders.length ∧ w.docket c o = d.met n work.service ∧
      w.faults.get work.service = [] ∧
      ∀ {d' todo}, (attempt s ⟨c, work⟩ failures w).Shows c o d' todo →
        At s n c o r d' (todo ++ rest) := by
  obtain ⟨failures, hlast, -⟩ := h.asked hs ht
  obtain ⟨hmet, hleft⟩ := Docket.facing_of_none hnone
  rw [hmet] at hlast
  obtain ⟨w, hw, ho, -, hd, hnext⟩ := hlast.next ht rfl
  have hscript : w.faults.get work.service = [] :=
    (congrArg (·.scripts.get work.service) hd).trans hleft
  exact ⟨failures, w, hw, ho, hd, hscript, hnext⟩

/-- A failure that is handed over is, and the run goes on as its handler shows. -/
theorem At.opposed (work : Work) {f : Failure} (hsome : d.result n work.service = some f)
    (h : At s n c o r d (.attempt ⟨c, work⟩ 0 :: rest)) :
    ∃ v : World, v.Unlocked ∧ o < v.orders.length ∧ v.InTime s o ∧
      v.docket c o = d.met n work.service ∧
      ∀ {d' todo}, (handOver s ⟨c, work⟩ f v).Shows c o d' todo →
        At s n c o r d' (todo ++ rest) := by
  obtain ⟨failures, hlast, hstops⟩ := h.asked hs ht
  obtain ⟨w, hw, ho, hin, hd, hnext⟩ := hlast.next ht rfl
  have hscripts : w.faults = (d.facing n work.service).scripts :=
    congrArg Docket.scripts hd
  have hfault : w.faults.get work.service =
      f :: Faults.left n (d.scripts.get work.service) := by
    rw [hscripts, Docket.get_facing hsome]
  have hhands := attempt_hands (c := c) hw work failures hfault (hstops f hsome)
  refine ⟨w.rejected work f (Faults.left n (d.scripts.get work.service)),
    hw.unlocked.of_orders rfl, ho, hin.of_eq rfl rfl, ?_, fun {d' todo} hshows => hnext ?_⟩
  · rw [World.docket_rejected, hd, hscripts, Docket.set_facing]
  · rw [← hhands] at hshows
    exact hshows

/-! ### Stages -/

theorem At.finished {j : Job} (h : At s n c o r d (.finish j :: rest)) : At s n c o r d rest := by
  obtain ⟨w, -, -, -, rfl, hnext⟩ := h.next ht rfl
  exact hnext (finish_shows hs j)

theorem At.dropped {t : Task} (h : At s n c o r d (.enqueue c t :: rest)) :
    At s n c o r d rest := by
  obtain ⟨w, -, -, -, rfl, hnext⟩ := h.next ht rfl
  exact hnext (enqueue_shows hs t)

theorem At.referred (h : At s n c o r d (.escalate c o :: rest)) :
    At s n c o r (d.refer n) rest := by
  have hspawned : At s n c o r d.ask
      (.attempt (referral c o) 0 :: .finish (referral c o) :: rest) := by
    obtain ⟨w, hw, -, hin, rfl, hnext⟩ := h.next ht rfl
    have hshows := spawn_asks (c := c) (o := o) hs hw.isOpen
    exact hnext (by
      simpa only [perform, escalate, hin.employee, Bool.false_eq_true, if_false] using hshows)
  cases hresult : d.ask.result n .employee with
  | none =>
    obtain ⟨failures, w, hw, ho, hd, hscript, hnext⟩ :=
      hspawned.unopposed hs ht (.escalation o) hresult
    have hafter := (hnext (escalation_shows failures hw ho hscript)).finished hs ht
    have horder : w.order o = (d.ask.met n .employee).order := congrArg Docket.order hd
    rw [hd, horder] at hafter
    simp only [Docket.refer, hresult]
    exact hafter
  | some f =>
    obtain ⟨v, -, -, -, hd, hnext⟩ := hspawned.opposed hs ht (.escalation o) hresult
    obtain ⟨todo, hshows, htodo⟩ := escalationFailed_shows (s := s) (c := c) (o := o) (w := v) f
    have hafter := hnext hshows
    rw [hd] at hafter
    simp only [Docket.refer, hresult]
    obtain rfl | rfl := htodo
    · exact hafter.finished hs ht
    · exact (hafter.dropped hs ht).finished hs ht

theorem At.told {m : MessageType} (h : At s n c o r d (.tell c o m :: rest)) :
    At s n c o r (d.tell n m) rest := by
  have hspawned : At s n c o r d
      (.attempt ⟨c, .messaging o m⟩ 0 :: .finish ⟨c, .messaging o m⟩ :: rest) := by
    obtain ⟨w, hw, -, hin, rfl, hnext⟩ := h.next ht rfl
    have hshows := spawn_shows (c := c) (o := o) hs hw.isOpen (.messaging o m) nofun
    exact hnext (by
      simpa only [perform, tell, hin.message, Bool.false_eq_true, if_false] using hshows)
  cases hresult : d.result n .messaging with
  | none =>
    obtain ⟨failures, w, hw, ho, hd, hscript, hnext⟩ :=
      hspawned.unopposed hs ht (.messaging o m) hresult
    have hafter := (hnext (messaging_shows failures hw m ho hscript)).finished hs ht
    have horder : w.order o = (d.met n .messaging).order := congrArg Docket.order hd
    rw [hd, horder] at hafter
    simp only [Docket.tell, hresult]
    exact hafter
  | some f =>
    obtain ⟨v, -, -, hin, hd, hnext⟩ := hspawned.opposed hs ht (.messaging o m) hresult
    have hafter := hnext (messagingFailed_shows m f hin)
    have horder : v.order o = (d.met n .messaging).order := congrArg Docket.order hd
    rw [hd, horder] at hafter
    simp only [Docket.tell, hresult]
    by_cases hneeded : (d.met n .messaging).order.needsMessage m = true
    · rw [if_pos hneeded] at hafter
      rw [if_pos hneeded]
      exact ((hafter.dropped hs ht).referred hs ht).finished hs ht
    · rw [if_neg hneeded] at hafter
      rw [if_neg hneeded]
      exact hafter.finished hs ht

theorem At.deferred (h : At s n c o r d (.deferPayment c o :: rest)) :
    At s n c o r (d.defer n) rest := by
  obtain ⟨w, -, -, hin, rfl, hnext⟩ := h.next ht rfl
  by_cases hpending : (w.docket c o).order.payment = .trying
  · have hp : (w.order o).payment = .trying := hpending
    have hshows : (perform s (.deferPayment c o) w).Shows c o (w.docket c o)
        [.enqueue c (.payment o), .escalate c o] := by
      refine ⟨w, ?_, rfl⟩
      simp only [perform, deferPayment, hp, hin.payment, decide_true, Bool.not_false, Bool.and_self,
        if_true]
    rw [Docket.defer, if_pos hpending]
    exact ((hnext hshows).dropped hs ht).referred hs ht
  · have hp : (w.order o).payment ≠ .trying := hpending
    have hshows : (perform s (.deferPayment c o) w).Shows c o (w.docket c o) [] := by
      refine ⟨w, ?_, rfl⟩
      simp only [perform, deferPayment, hp, decide_false, Bool.false_and, Bool.false_eq_true,
        if_false]
    rw [Docket.defer, if_neg hpending]
    exact hnext hshows

/-- What a failure of the payment service leads to. -/
theorem At.unpaid {f : Failure} {v : World} (hu : v.Unlocked) (ho : o < v.orders.length)
    (hnext : ∀ {d' todo}, (paymentFailed s c o f v).Shows c o d' todo →
      At s n c o r d' (todo ++ rest)) :
    At s n c o r ((v.docket c o).unpaid n f) rest := by
  by_cases hkind : f.kind = .paymentDetailsError
  · have hafter := hnext (paymentFailed_refused hu ho hkind)
    simp only [Docket.unpaid, if_pos hkind]
    split at hafter
    · next hp =>
      rw [if_pos hp]
      exact hafter.told hs ht
    · next hp =>
      rw [if_neg hp]
      exact hafter
  · have hafter := hnext (paymentFailed_pending (s := s) (c := c) ho hkind)
    simp only [Docket.unpaid, if_neg hkind]
    split at hafter
    · next hsent =>
      have hsent : (v.docket c o).order.sent = .noneSent := hsent
      rw [if_pos hsent]
      exact (hafter.told hs ht).deferred hs ht
    · next hsent =>
      have hsent : (v.docket c o).order.sent ≠ .noneSent := hsent
      rw [if_neg hsent]
      exact hafter.deferred hs ht

theorem At.paid (h : At s n c o r d (.pay c o :: rest)) : At s n c o r (d.pay n) rest := by
  have hspawned : At s n c o r d
      (.attempt ⟨c, .payment o⟩ 0 :: .finish ⟨c, .payment o⟩ :: rest) := by
    obtain ⟨w, hw, -, hin, rfl, hnext⟩ := h.next ht rfl
    have hshows := spawn_shows (c := c) (o := o) hs hw.isOpen (.payment o) nofun
    exact hnext (by
      simpa only [perform, Fulfilment.pay, hin.payment, Bool.false_eq_true, if_false] using hshows)
  cases hresult : d.result n .payment with
  | none =>
    obtain ⟨failures, w, hw, ho, hd, hscript, hnext⟩ :=
      hspawned.unopposed hs ht (.payment o) hresult
    have hafter := hnext (payment_shows failures hw ho hscript)
    have horder : w.order o = (d.met n .payment).order := congrArg Docket.order hd
    rw [hd, horder] at hafter
    simp only [Docket.pay, hresult]
    by_cases hp : (d.met n .payment).order.payment = .trying
    · rw [if_pos hp, if_pos hp] at hafter
      rw [if_pos hp]
      exact (hafter.told hs ht).finished hs ht
    · rw [if_neg hp, if_neg hp] at hafter
      rw [if_neg hp]
      exact hafter.finished hs ht
  | some f =>
    obtain ⟨v, hu, ho, -, hd, hnext⟩ := hspawned.opposed hs ht (.payment o) hresult
    have hafter := At.unpaid hs ht hu ho hnext
    simp only [Docket.pay, hresult]
    rw [hd] at hafter
    exact hafter.finished hs ht

/-- What a failure of the shipping service leads to. -/
theorem At.unshipped {f : Failure} {v : World} (ho : o < v.orders.length)
    (hnext : ∀ {d' todo}, (shippingFailed c o f v).Shows c o d' todo →
      At s n c o r d' (todo ++ rest)) :
    At s n c o r ((v.docket c o).unshipped n f) rest := by
  cases f with
  | shippingNotPossible | itemUnavailable =>
    exact (hnext (notice_shows ho _ _ _)).referred hs ht
  | _ => exact hnext (notice_shows ho _ _ _)

/-- A placement does what is foretold on the docket. -/
theorem At.placed (h : At s n c o r d [.place c o]) : At s n c o r (d.place n) [] := by
  have hend {d' : Docket} (h' : At s n c o r d' [.placed o]) : At s n c o r d' [] := by
    obtain ⟨w, -, -, -, rfl, hnext⟩ := h'.next ht rfl
    exact hnext ⟨w, rfl, rfl⟩
  have hplacing : At s n c o r d [.attempt ⟨c, .shipping o⟩ 0, .placed o] := by
    obtain ⟨w, -, -, -, rfl, hnext⟩ := h.next ht rfl
    exact hnext ⟨_, rfl, rfl⟩
  cases hresult : d.result n .shipping with
  | none =>
    obtain ⟨failures, w, hw, -, hd, hscript, hnext⟩ :=
      hplacing.unopposed hs ht (.shipping o) hresult
    have hafter := (hnext (shipping_shows failures hw hscript)).paid hs ht
    rw [hd] at hafter
    simp only [Docket.place, hresult]
    exact hend hafter
  | some f =>
    obtain ⟨v, -, ho, -, hd, hnext⟩ := hplacing.opposed hs ht (.shipping o) hresult
    have hafter := At.unshipped hs ht ho hnext
    rw [hd] at hafter
    simp only [Docket.place, hresult]
    exact hend hafter

end Stages
end Run
end Fulfilment
