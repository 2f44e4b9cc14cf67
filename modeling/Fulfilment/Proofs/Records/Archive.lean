import Fulfilment.Proofs.Records.Insertion
import Fulfilment.Proofs.Stage.Edit

/-! What shipping, payment and messaging hold is what they accepted, in every run.

* `World.archive`: their records, and the requests that the journal says were accepted.
* `Archive.Files`: one accepted request, under an id that was free.
* `Edits.archive`, `System.Leads.archive`: whatever happens, requests are accepted one by one and
  nothing else is done to the records.
* `Archive.Sound`: one record per accepted request, in their order and with its content.
* `System.stored_exactly`: the records after every sequence of calls, and those of every run. -/
namespace Fulfilment

set_option autoImplicit false

/-! ## Accepted requests -/

namespace Event

/-- The receipt of an accepted shipping request, with the item and the address. -/
def shipped? : Event → Option (Receipt × String × String)
  | .answered (.shipping _ item address) r => some (r, item, address)
  | _ => none

/-- The receipt of an accepted payment, with the amount; it is paid. -/
def paid? : Event → Option (Receipt × Float × Bool)
  | .answered (.payment _ amount) r => some (r, amount, true)
  | _ => none

/-- The receipt of an accepted message, with its words. -/
def sent? : Event → Option (Receipt × MessageType × String)
  | .answered (.messaging _ m) r => some (r, m, m.text)
  | _ => none

end Event

/-- Records, and accepted requests with the latest first. -/
structure Archive where
  shipping : Records TransactionId ShippingRecord
  payment : Records TransactionId PaymentRecord
  messaging : Records TransactionId MessageRecord
  shipped : List (Receipt × String × String)
  paid : List (Receipt × Float × Bool)
  sent : List (Receipt × MessageType × String)

def World.archive (w : World) : Archive where
  shipping := w.collaborators.shipping
  payment := w.collaborators.payment
  messaging := w.collaborators.messaging
  shipped := w.journal.filterMap Event.shipped?
  paid := w.journal.filterMap Event.paid?
  sent := w.journal.filterMap Event.sent?

namespace Archive

/-- A request is accepted under an id that is free, and a record with that id is stored. -/
inductive Files : Archive → Archive → Prop
  | shipped (a : Archive) (id : TransactionId) (item address : String) (time : Timestamp)
      (h : id ∉ a.shipping.keys) :
      Files a
        { a with
          shipping := a.shipping.push id ⟨id, item, address, time⟩
          shipped := (.transaction id, item, address) :: a.shipped }
  | paid (a : Archive) (id : TransactionId) (amount : Float) (time : Timestamp)
      (h : id ∉ a.payment.keys) :
      Files a
        { a with
          payment := a.payment.push id ⟨id, amount, true, time⟩
          paid := (.transaction id, amount, true) :: a.paid }
  | sent (a : Archive) (id : TransactionId) (m : MessageType) (time : Timestamp)
      (h : id ∉ a.messaging.keys) :
      Files a
        { a with
          messaging := a.messaging.push id ⟨id, m, m.text, time⟩
          sent := (.transaction id, m, m.text) :: a.sent }

/-- Any number of requests are accepted, and nothing else is done. -/
abbrev Grows : Archive → Archive → Prop := Relation.ReflTransGen Files

theorem Grows.of_eq {a b : Archive} (h : b = a) : a.Grows b := h ▸ .refl

end Archive

/-! ## One request -/

theorem Collaborators.recordFresh_eq {ν : Type} (c : Collaborators) (r : Records TransactionId ν)
    (build : TransactionId → ν) :
    ∃ id, id ∉ r.keys ∧ c.recordFresh r build = (id, r.push id (build id)) := by
  have hsome := Records.freshIndex?_isSome (r := r) c.mint_injective (Nat.lt_succ_self r.size) 0
  obtain ⟨i, hi⟩ := Option.isSome_iff_exists.mp hsome
  have hfree : c.mint i ∉ r.keys := (Records.freshIndex?_eq_some_iff.mp hi).2.2.2
  refine ⟨c.mint i, hfree, ?_⟩
  unfold recordFresh Records.insertFresh?
  rw [hi]
  rfl

theorem archive_fulfil (work : Work) (empty : Bool) (w : World) :
    w.archive.Grows (fulfil work empty w).1.archive := by
  cases work with
  | shipping o =>
    obtain ⟨id, hid, hrecord⟩ := w.collaborators.recordFresh_eq w.collaborators.shipping
      fun id => ⟨id, (w.order o).item, (w.order o).customer.address, .ofInstant w.now⟩
    simp only [fulfil, Collaborators.ship, hrecord]
    exact .single (.shipped w.archive id _ _ _ hid)
  | payment o =>
    obtain ⟨id, hid, hrecord⟩ := w.collaborators.recordFresh_eq w.collaborators.payment
      fun id => ⟨id, (w.order o).price, true, .ofInstant w.now⟩
    simp only [fulfil, Collaborators.pay, hrecord]
    exact .single (.paid w.archive id _ _ hid)
  | messaging o m =>
    obtain ⟨id, hid, hrecord⟩ := w.collaborators.recordFresh_eq w.collaborators.messaging
      fun id => ⟨id, m, m.text, .ofInstant w.now⟩
    simp only [fulfil, Collaborators.deliver, hrecord]
    exact .single (.sent w.archive id m _ hid)
  | escalation o =>
    simp only [fulfil]
    split <;> exact .refl
  | add t => exact .refl
  | drain =>
    simp only [fulfil]
    split
    · exact .refl
    · cases w.collaborators.head? <;> exact .refl
  | dequeue =>
    simp only [fulfil, Collaborators.take?]
    cases w.collaborators.store <;> exact .refl

/-! ## Edits and runs -/

theorem archive_record (w : World) {e : Event} (he : e.isUnaccepted = true) :
    (w.record e).archive = w.archive := by
  cases e with
  | answered => cases he
  | _ => rfl

theorem Edit.archive {w v : World} (h : Edit Event.isUnaccepted w v) :
    w.archive.Grows v.archive := by
  cases h with
  | beside h =>
    refine .of_eq ?_
    unfold World.archive
    rw [h.journal, h.shipping, h.payment, h.messaging]
  | recorded e he => exact .of_eq (archive_record w he)
  | fulfilled work empty => exact archive_fulfil work empty w

/-- Whatever is done, requests are accepted one by one, and nothing else is done to the records. -/
theorem Edits.archive {w v : World} (h : Edits Event.isUnaccepted w v) :
    w.archive.Grows v.archive := by
  induction h with
  | refl => exact .refl
  | tail _ hstep ih => exact ih.trans hstep.archive

namespace System
variable {s : Setup} {σ τ : System}

/-- The next ids are the numbers after this one. -/
def renumbered (σ : System) (n : Nat) : System :=
  let c := { σ.world.collaborators with lastId := n }
  { σ with world := { σ.world with collaborators := c } }

/-- Something happens, or the ids go on anywhere, at numbers given out before or at others. -/
inductive Goes (s : Setup) : System → System → Prop
  | happens {σ τ : System} (h : Happening) (hτ : σ.happen? s h = some τ) : Goes s σ τ
  | renumbers (σ : System) (n : Nat) : Goes s σ (σ.renumbered n)

/-- A run in which requests can get any ids. -/
abbrev Leads (s : Setup) : System → System → Prop := Relation.ReflTransGen (Goes s)

theorem leads_of_after {happenings : List Happening} (hτ : after? s happenings σ = some τ) :
    Leads s σ τ := by
  refine after?_induct (P := Leads s σ) ?_ hτ .refl
  intro h _ υ ω hω hυ
  exact hυ.tail (.happens h hω)

/-- Whatever happens, all that is done to the records is to store accepted requests. -/
theorem Leads.archive (h : Leads s σ τ) : σ.world.archive.Grows τ.world.archive := by
  induction h with
  | refl => exact .refl
  | tail _ hstep ih =>
    cases hstep with
    | happens h hω => exact ih.trans (Edits.archive (happen_edits hω))
    | renumbers n => exact ih

end System

/-! ## What the records tell -/

namespace Records
variable {ν γ : Type} {idOf : ν → TransactionId} {content : ν → γ}

/-- One record per accepted request, in their order and with its content, under distinct ids that
are those inside the records. -/
structure Matches (r : Records TransactionId ν) (idOf : ν → TransactionId) (content : ν → γ)
    (requests : List (Receipt × γ)) : Prop where
  nodup : r.keys.Nodup
  stamped : r.Stamped idOf
  accepted : r.entries.map (fun e => (Receipt.transaction e.1, content e.2)) = requests.reverse

variable {r : Records TransactionId ν} {requests : List (Receipt × γ)}

theorem Matches.push (h : r.Matches idOf content requests) {id : TransactionId} {x : ν}
    (hid : id ∉ r.keys) (hx : idOf x = id) :
    (r.push id x).Matches idOf content ((.transaction id, content x) :: requests) where
  nodup := nodup_push h.nodup hid x
  stamped := h.stamped.push hx
  accepted := by
    rw [Records.push, List.map_append, h.accepted, List.reverse_cons]
    rfl

theorem Matches.size (h : r.Matches idOf content requests) : r.size = requests.length := by
  have hlength := congrArg List.length h.accepted
  rwa [List.length_map, List.length_reverse] at hlength

/-- The records are counted by their content as the requests are. -/
theorem Matches.countP (h : r.Matches idOf content requests) (p : γ → Bool) :
    r.values.countP (fun x => p (content x)) = requests.countP fun q => p q.2 := by
  have hcount := congrArg (List.countP fun q => p q.2) h.accepted
  rw [List.countP_map, List.countP_reverse] at hcount
  rw [values, List.countP_map]
  exact hcount

end Records

namespace Archive

structure Sound (a : Archive) : Prop where
  shipping : a.shipping.Matches ShippingRecord.id (fun x => (x.item, x.address)) a.shipped
  payment : a.payment.Matches PaymentRecord.id (fun x => (x.amount, x.paid)) a.paid
  messaging : a.messaging.Matches MessageRecord.id (fun x => (x.message, x.text)) a.sent

/-- Nothing is stored, and nothing was accepted. -/
theorem sound_empty : Sound ⟨{}, {}, {}, [], [], []⟩ where
  shipping := ⟨List.nodup_nil, fun _ h => absurd h List.not_mem_nil, rfl⟩
  payment := ⟨List.nodup_nil, fun _ h => absurd h List.not_mem_nil, rfl⟩
  messaging := ⟨List.nodup_nil, fun _ h => absurd h List.not_mem_nil, rfl⟩

/-- What was stored is where it was, unchanged. -/
structure Kept (a b : Archive) : Prop where
  shipping : a.shipping.entries <+: b.shipping.entries
  payment : a.payment.entries <+: b.payment.entries
  messaging : a.messaging.entries <+: b.messaging.entries

theorem Kept.refl (a : Archive) : a.Kept a :=
  ⟨List.prefix_refl _, List.prefix_refl _, List.prefix_refl _⟩

variable {a b c : Archive}

theorem Kept.trans (h : a.Kept b) (k : b.Kept c) : a.Kept c :=
  ⟨h.shipping.trans k.shipping, h.payment.trans k.payment, h.messaging.trans k.messaging⟩

theorem Files.kept (h : a.Files b) : a.Kept b := by
  have same := Kept.refl a
  cases h with
  | shipped id item address time _ => exact { same with shipping := List.prefix_append _ _ }
  | paid id amount time _ => exact { same with payment := List.prefix_append _ _ }
  | sent id m time _ => exact { same with messaging := List.prefix_append _ _ }

theorem Files.sound (h : a.Files b) (ha : a.Sound) : b.Sound := by
  cases h with
  | shipped id item address time hid => exact { ha with shipping := ha.shipping.push hid rfl }
  | paid id amount time hid => exact { ha with payment := ha.payment.push hid rfl }
  | sent id m time hid => exact { ha with messaging := ha.messaging.push hid rfl }

theorem Grows.kept (h : a.Grows b) : a.Kept b := by
  induction h with
  | refl => exact .refl a
  | tail _ hfiles ih => exact ih.trans hfiles.kept

theorem Grows.sound (h : a.Grows b) (ha : a.Sound) : b.Sound := by
  induction h with
  | refl => exact ha
  | tail _ hfiles ih => exact hfiles.sound ih

end Archive

/-- The collaborators hold what they accepted, and report as many payments and messages. -/
structure World.Accounted (w : World) : Prop where
  sound : w.archive.Sound
  payments : w.collaborators.payment.size = w.archive.paid.length
  messages : ∀ m, w.collaborators.sentOf m = w.archive.sent.countP (·.2.1 = m)

theorem Archive.Sound.accounted {w : World} (h : w.archive.Sound) : w.Accounted where
  sound := h
  payments := h.payment.size
  messages m := by
    have hcount := h.messaging.countP fun q => decide (q.1 = m)
    rw [Collaborators.sentOf, ← List.countP_eq_length_filter]
    exact hcount

/-! ## Every sequence of calls, every run -/

/-- For records of any kind and any streams of keys: the first free key is taken for a record built
from it, and nothing stored is ever changed or lost, nor counted twice. In every run from an archive
that is sound, as the empty one is, the collaborators therefore hold one record per accepted
request, whatever ids come up, under distinct ids that are those inside, and they report the numbers
of accepted payments and messages. -/
theorem System.stored_exactly :
    (∀ (κ ν : Type) [DecidableEq κ] (r : Records κ ν),
      (∀ (mint : Nat → κ) (build : κ → ν) tries i r',
        r.insertFresh? mint tries build = some (i, r') ↔
          i < tries ∧ (∀ j < i, mint j ∈ r.keys) ∧ mint i ∉ r.keys ∧
            r' = r.push (mint i) (build (mint i))) ∧
      (∀ k x, r.insertIfAbsent k x = if k ∈ r.keys then (false, r) else (true, r.push k x)) ∧
      ∀ cs : List (Insertion κ ν),
        r.entries <+: (r.insertAll cs).entries ∧
        (∀ k x, r.get? k = some x → (r.insertAll cs).get? k = some x) ∧
        (r.insertAll cs).size = r.size + r.stored cs ∧
        (r.keys.Nodup → (r.insertAll cs).keys.Nodup) ∧
        ∀ idOf : ν → κ, (∀ c ∈ cs, c.Stamps idOf) → r.Stamped idOf →
          (r.insertAll cs).Stamped idOf) ∧
    Archive.Sound ⟨{}, {}, {}, [], [], []⟩ ∧
    (∀ s σ τ, Leads s σ τ → σ.world.archive.Kept τ.world.archive ∧
      (σ.world.archive.Sound → τ.world.Accounted)) ∧
    (∀ s σ τ happenings, after? s happenings σ = some τ → Leads s σ τ) ∧
    ∀ s w agenda, w.archive.Kept (Run.toEnd s w agenda).archive ∧
      (w.archive.Sound → (Run.toEnd s w agenda).Accounted) := by
  have grown {w v : World} (h : w.archive.Grows v.archive) :
      w.archive.Kept v.archive ∧ (w.archive.Sound → v.Accounted) :=
    ⟨h.kept, fun hw => (h.sound hw).accounted⟩
  refine ⟨?_, Archive.sound_empty, ?_, ?_, ?_⟩
  · intro κ ν _ r
    refine ⟨fun mint build tries i r' => Records.insertFresh?_eq_some_iff, r.insertIfAbsent_eq, ?_⟩
    intro cs
    obtain ⟨hentries, hsize, hnodup, hstamped⟩ := r.insertAll_grows cs
    exact ⟨hentries, fun k x hk => Records.get?_of_entries hentries hk, hsize, hnodup, hstamped⟩
  · intro s σ τ h
    exact grown h.archive
  · intro s σ τ happenings h
    exact leads_of_after h
  · intro s w agenda
    exact grown (Edits.archive (Run.drive_edits (Run.patience s w) { world := w, agenda }))

namespace System

/-- A payment was accepted under the id that comes next, and a job for another one waits. -/
def paidBefore : System :=
  { world :=
      { clock := 5
        orders := [{ id := ⟨"A1"⟩, customer := ⟨"Jim", "ABCD"⟩, item := "book", price := 10,
                     createdAt := 5 }]
        collaborators := { payment := ⟨[(⟨1⟩, ⟨⟨1⟩, 8, true, .ofInstant 3⟩)]⟩ }
        pending := [⟨0, .payment 0⟩]
        journal := [.answered (.payment 0 8) (.transaction ⟨1⟩)] } }

theorem paidBefore_sound : paidBefore.world.archive.Sound where
  shipping := Archive.sound_empty.shipping
  payment := by
    refine ⟨by decide, ?_, rfl⟩
    intro e he
    rw [List.mem_singleton.mp he]
  messaging := Archive.sound_empty.messaging

/-- Three keys are looked at, the one that is free is the last. -/
theorem stored_exactly_colliding :
    (let mint (i : Nat) : Nat := [1, 1, 2].getD i 0
      let r : Records Nat Nat := ⟨[(1, 10)]⟩
      let calls : List (Insertion Nat Nat) := [.fresh mint 3 (10 * ·), .ifAbsent 2 5]
      r.insertFresh? mint 3 (10 * ·) = some (2, ⟨[(1, 10), (2, 20)]⟩) ∧
        (r.insertAll calls).get? 1 = some 10 ∧ (r.insertAll calls).keys.Nodup ∧
        (r.insertAll calls).size = 2) ∧
    ∃ τ, after? {} [.move (.start 0), .move (.act 0)] paidBefore = some τ ∧
      τ.world.collaborators.payment.keys = [⟨1⟩, ⟨2⟩] ∧ τ.world.archive.paid.length = 2 ∧
      τ.world.Accounted ∧ (Run.toEnd {} τ.world [.tell 0 0 .paymentSuccess]).Accounted := by
  obtain ⟨hrecords, -, hruns, hafter, hends⟩ := stored_exactly
  constructor
  · intro mint r calls
    obtain ⟨hfresh, -, hall⟩ := hrecords Nat Nat r
    obtain ⟨-, hget, hsize, hnodup, -⟩ := hall calls
    have hfirst := (hfresh mint (10 * ·) 3 2 _).mpr ⟨by decide, by decide, by decide, rfl⟩
    exact ⟨hfirst, hget 1 10 rfl, hnodup (by decide), hsize⟩
  · refine ⟨_, rfl, rfl, rfl, ?_⟩
    have haccounted := (hruns {} paidBefore _ (hafter {} paidBefore _
      [.move (.start 0), .move (.act 0)] rfl)).2 paidBefore_sound
    exact ⟨haccounted, (hends {} _ _).2 haccounted.sound⟩

end System
end Fulfilment
