import Fulfilment.Proofs.Books.Passage
import Fulfilment.Proofs.Inline.Outcome

/-! What the work that is outstanding or queued is about, and where it comes from.

* `Topic`: an order, and the message to be sent for it if there is one.
* `System.Raises`: some action that is outstanding, or some queued task, is about a topic.
* `System.Comes`: a topic is raised because another one was raised before, because somebody asked,
  or because an order is new; a message that was not to be sent before agrees with the payment.
* `System.Known`: nothing is about an order that is not there. -/
namespace Fulfilment

set_option autoImplicit false

structure Topic where
  order : OrderRef
  message : Option MessageType := none

/-! ## Topics -/

/-- Only a messaging task is about its message. -/
def Task.topic (t : Task) : Topic := ⟨t.order, if t.type = .messaging then t.message else none⟩

def Work.topic? : Work → Option Topic
  | .shipping o => some ⟨o, none⟩
  | .payment o => some ⟨o, none⟩
  | .messaging o m => some ⟨o, some m⟩
  | .escalation o => some ⟨o, none⟩
  | .add t => some t.topic
  | .drain => none
  | .dequeue => none

def Action.topic? : Action → Option Topic
  | .place _ o => some ⟨o, none⟩
  | .pay _ o => some ⟨o, none⟩
  | .tell _ o m => some ⟨o, some m⟩
  | .escalate _ o => some ⟨o, none⟩
  | .enqueue _ t => some t.topic
  | .deferPayment _ o => some ⟨o, none⟩
  | .escalateTask _ t _ => some ⟨t.order, none⟩
  | .attempt j _ => j.work.topic?
  | .conclude j _ _ => j.work.topic?
  | _ => none

def Call.order? : Call → Option OrderRef
  | .shipping o _ _ => some o
  | .payment o _ => some o
  | .messaging o _ => some o
  | .employee o => some o
  | .add t => some t.order
  | .peek => none
  | .dequeue => none

def Event.order? : Event → Option OrderRef
  | .answered c _ => c.order?
  | .panicked c => c.order?
  | _ => none

theorem Action.topic?_of_minor {a : Action} (h : a.isMinor = true) : a.topic? = none := by
  cases a <;> first | rfl | cases h

theorem Action.Spawns.topic {a : Action} {j : Job} (h : a.Spawns j) (n : UInt32) :
    (Action.attempt j n).topic? = a.topic? := by
  obtain ⟨c, work⟩ := j
  have hw := h.work
  cases a <;> cases hw <;> rfl

theorem Request.topic_order {q : Request} {x : Topic} (h : q.action.topic? = some x) :
    x.order = q.order := by
  cases q <;> cases h <;> rfl

/-- The stage of a task has the topic of the task. -/
theorem Task.topic_retry {t : Task} {c : CoordinatorRef} {x : Topic}
    (h : (t.retry c).topic? = some x) : t.topic = x := by
  simp only [retry] at h
  simp only [topic]
  cases htype : t.type with
  | payment | employeeDb =>
    rw [htype] at h
    exact Option.some.inj h
  | messaging =>
    rw [htype] at h
    cases hm : t.message with
    | none =>
      rw [hm] at h
      cases h
    | some m =>
      rw [hm] at h
      exact Option.some.inj h

theorem callOf_order (work : Work) (w : World) :
    (callOf work w).order? = work.topic?.map Topic.order := by
  cases work <;> rfl

/-! ## Where topics come from -/

/-- A topic that an action can take up: its own, or that of a queued task. -/
def Books.Source (b : Books) (a : Action) (y : Topic) : Prop :=
  a.topic? = some y ∨ ∃ t ∈ b.store, t.topic = y

/-- The one topic follows from the other, when the payment of its order is this: it is about the
same order, and a message is the same or agrees with the payment. -/
structure Topic.Follows (x y : Topic) (p : PaymentStatus) : Prop where
  order : x.order = y.order
  message : ∀ m, x.message = some m → y.message = some m ∨ m.Fits p

/-- Whatever this further action is about follows from what the first one could take up. -/
def Books.Leads (b b' : Books) (a c : Action) : Prop :=
  ∀ x, c.topic? = some x → ∃ y, b.Source a y ∧ x.Follows y (b'.order x.order).payment

section Leads
variable {b b' : Books} {a c : Action} {o : OrderRef} {n : Option MessageType}

theorem Books.Leads.of_none (hc : c.topic? = none) : b.Leads b' a c := by
  intro x hx
  rw [hc] at hx
  cases hx

theorem Books.Leads.same (hc : c.topic? = a.topic?) : b.Leads b' a c := by
  intro x hx
  rw [hc] at hx
  exact ⟨x, .inl hx, rfl, fun _ hm => .inl hm⟩

theorem Books.Leads.plain (ha : a.topic? = some ⟨o, n⟩) (hc : c.topic? = some ⟨o, none⟩) :
    b.Leads b' a c := by
  intro x hx
  rw [hc] at hx
  cases hx
  exact ⟨_, .inl ha, rfl, fun m hm => by cases hm⟩

theorem Books.Leads.message {m : MessageType} (ha : a.topic? = some ⟨o, n⟩)
    (hc : c.topic? = some ⟨o, some m⟩) (hf : m.Fits (b'.order o).payment) : b.Leads b' a c := by
  intro x hx
  rw [hc] at hx
  cases hx
  refine ⟨_, .inl ha, rfl, fun m' hm => ?_⟩
  cases hm
  exact .inr hf

end Leads

section Sources
variable {s : Setup} {w v : World} {a : Action} {todo : List Action}

theorem Success.leads {c : CoordinatorRef} {work : Work} (n : UInt32)
    (h : Success s w.books c work v todo)
    (hk : ∀ y, work.topic? = some y → y.order < w.orders.length) :
    ∀ d ∈ todo, w.books.Leads v.books (.attempt ⟨c, work⟩ n) d := by
  have nothing (d : Action) (hd : d ∈ []) : w.books.Leads v.books (.attempt ⟨c, work⟩ n) d :=
    absurd hd List.not_mem_nil
  cases h with
  | shipped o r _ hv => exact List.forall_mem_singleton.mpr (.plain rfl rfl)
  | paid o r _ hp hv =>
    refine List.forall_mem_singleton.mpr (.message rfl rfl ?_)
    rw [hv, Books.payment_note]
    exact Books.payment_pay _ _ (hk _ rfl)
  | told | handed | removed => exact nothing
  | added t _ hv => exact List.forall_mem_singleton.mpr (.of_none rfl)
  | visited t rest now _ hs hc hf hv =>
    refine List.forall_mem_cons.mpr ⟨fun x hx => ?_, List.forall_mem_singleton.mpr (.of_none rfl)⟩
    refine ⟨x, .inr ⟨t, ?_, Task.topic_retry hx⟩, rfl, fun _ hm => .inl hm⟩
    rw [hs]
    exact List.mem_cons_self ..
  | condemned t rest now r _ hs hc hr hf hv =>
    exact List.forall_mem_cons.mpr ⟨.of_none rfl, List.forall_mem_singleton.mpr (.of_none rfl)⟩

theorem Setback.leads {c : CoordinatorRef} {work : Work} {f : Failure} (n : UInt32)
    (h : Setback s w.books c work f v todo)
    (hk : ∀ y, work.topic? = some y → y.order < w.orders.length) :
    ∀ d ∈ todo, w.books.Leads v.books (.attempt ⟨c, work⟩ n) d := by
  have nothing (d : Action) (hd : d ∈ []) : w.books.Leads v.books (.attempt ⟨c, work⟩ n) d :=
    absurd hd List.not_mem_nil
  cases h with
  | turnedAway o f i _ hn hv => exact List.forall_mem_singleton.mpr (.plain rfl rfl)
  | notPlaced | declinedLate | givenUp | leftAlone | unseen => exact nothing
  | declined o _ hp hv =>
    refine List.forall_mem_singleton.mpr (.message rfl rfl ?_)
    rw [hv]
    refine Books.payment_pay _ _ ?_
    rw [Books.note, Books.length_change]
    exact hk _ rfl
  | unpaid o f _ hf hs hv =>
    exact List.forall_mem_cons.mpr
      ⟨.message rfl rfl trivial, List.forall_mem_singleton.mpr (.plain rfl rfl)⟩
  | stillUnpaid o f _ hf hs hv => exact List.forall_mem_singleton.mpr (.plain rfl rfl)
  | undelivered o m f _ hm ht hv =>
    exact List.forall_mem_cons.mpr ⟨.same rfl, List.forall_mem_singleton.mpr (.plain rfl rfl)⟩
  | unattended o f _ he ht hv => exact List.forall_mem_singleton.mpr (.plain rfl rfl)
  | notQueued t f _ htype hp hv =>
    refine List.forall_mem_cons.mpr ⟨?_, List.forall_mem_singleton.mpr (.plain rfl rfl)⟩
    refine .message rfl rfl ?_
    rw [hv]
    exact Books.payment_pay _ _ (hk _ rfl)
  | notAdded t f _ hp hv => exact List.forall_mem_singleton.mpr (.plain rfl rfl)

/-- What an action leaves to do follows from what it is about, or from the head of the queue. -/
theorem Effect.leads (h : Effect s w a v todo)
    (hk : ∀ y, a.topic? = some y → y.order < w.orders.length) :
    ∀ d ∈ todo, w.books.Leads v.books a d := by
  have nothing (d : Action) (hd : d ∈ []) : w.books.Leads v.books a d :=
    absurd hd List.not_mem_nil
  cases h with
  | idle _ _ ha ht hv =>
    intro d hd
    obtain ⟨n, rfl⟩ := ht d hd
    exact .of_none rfl
  | placing c o _ hv =>
    exact List.forall_mem_cons.mpr ⟨.plain rfl rfl, List.forall_mem_singleton.mpr (.of_none rfl)⟩
  | waiting | lost | passed | crashed => exact nothing
  | started j _ hj hv =>
    exact List.forall_mem_cons.mpr
      ⟨.same (hj.topic 0), List.forall_mem_singleton.mpr (.of_none rfl)⟩
  | expired c o _ hp ht hv =>
    refine List.forall_mem_singleton.mpr (.message rfl rfl ?_)
    rw [hv]
    exact Books.payment_pay _ _ (hk _ rfl)
  | deferring c o _ hp ht hv =>
    exact List.forall_mem_cons.mpr ⟨.plain rfl rfl, List.forall_mem_singleton.mpr (.plain rfl rfl)⟩
  | escalating c t f _ hv => exact List.forall_mem_singleton.mpr (.plain rfl rfl)
  | drainingOn c d _ hc hv =>
    exact List.forall_mem_cons.mpr ⟨.of_none rfl, List.forall_mem_singleton.mpr (.of_none rfl)⟩
  | again j n m d f _ hf hv =>
    exact List.forall_mem_cons.mpr ⟨.of_none rfl, List.forall_mem_singleton.mpr (.same rfl)⟩
  | unneeded j n _ hn hv =>
    split
    · exact List.forall_mem_singleton.mpr (.of_none rfl)
    · exact nothing
  | succeeded c work n _ _ hs => exact hs.leads n hk
  | failed c work n f _ _ hf hs => exact hs.leads n hk

/-- A task that is queued was queued before, or the action was about adding it. -/
theorem Effect.tasks (h : Effect s w a v todo) :
    ∀ t ∈ v.collaborators.store, w.books.Source a t.topic := by
  intro t ht
  obtain ⟨u, hu, rfl | ⟨now, rfl⟩⟩ | ⟨c, n, rfl⟩ := h.task t ht
  · exact .inr ⟨t, hu, rfl⟩
  · exact .inr ⟨u, hu, rfl⟩
  · exact .inl rfl

/-- An action does one deed at most, and for an order that it is about. -/
theorem Effect.deed (h : Effect s w a v todo) :
    v.deeds = w.deeds ∨ ∃ e, v.deeds = e :: w.deeds ∧
      ∀ o, e.order? = some o → ∃ n, a.topic? = some ⟨o, n⟩ := by
  have about {work : Work} {o : OrderRef} (ho : (callOf work w).order? = some o) :
      ∃ n, work.topic? = some ⟨o, n⟩ := by
    rw [callOf_order] at ho
    obtain ⟨y, hy, rfl⟩ := Option.map_eq_some_iff.mp ho
    exact ⟨y.message, hy⟩
  refine h.deed_of.imp id fun ⟨e, hv, he⟩ => ⟨e, hv, fun o ho => ?_⟩
  cases he with
  | remarked r => cases ho
  | answered c work n ha r =>
    subst ha
    exact about ho
  | panicked c work n ha =>
    subst ha
    exact about ho

end Sources

/-! ## Systems -/

namespace System

/-- Some work that is outstanding or queued has this topic. -/
def Raises (σ : System) (x : Topic) : Prop :=
  (∃ a ∈ σ.outstanding, a.topic? = some x) ∨ ∃ t ∈ σ.world.collaborators.store, t.topic = x

/-- Nothing is about an order that is not there. -/
structure Known (σ : System) : Prop where
  topics : ∀ x, σ.Raises x → x.order < σ.world.orders.length
  deeds : ∀ e ∈ σ.world.deeds, ∀ o, e.order? = some o → o < σ.world.orders.length

theorem raises_nothing {σ : System} (hout : σ.outstanding = [])
    (hstore : σ.world.collaborators.store = []) (x : Topic) : ¬ σ.Raises x := by
  rintro (⟨a, ha, -⟩ | ⟨t, ht, -⟩)
  · rw [hout] at ha
    exact absurd ha List.not_mem_nil
  · rw [hstore] at ht
    exact absurd ht List.not_mem_nil

theorem known_of_nothing {σ : System} (hout : σ.outstanding = [])
    (hstore : σ.world.collaborators.store = []) (hdeeds : σ.world.deeds = []) : σ.Known := by
  refine ⟨fun x hx => absurd hx (raises_nothing hout hstore x), fun e he => ?_⟩
  rw [hdeeds] at he
  exact absurd he List.not_mem_nil

/-- Where a topic that is raised after a happening comes from. -/
inductive Comes (h : Happening) (σ τ : System) (x : Topic) : Prop
  | followed (y : Topic) (hy : σ.Raises y) (hx : x.Follows y (τ.world.order x.order).payment)
  | asked (q : Request) (hh : h = .move (.ask q)) (hq : q.order < σ.world.orders.length)
      (hx : q.action.topic? = some x)
  | ordered (ho : x.order = σ.world.orders.length) (hlen : x.order < τ.world.orders.length)
      (hm : x.message = none)

variable {s : Setup} {σ τ : System} {h : Happening}

theorem raises_of_source {a : Action} {y : Topic} (ha : a ∈ σ.outstanding)
    (hy : σ.world.books.Source a y) : σ.Raises y := by
  obtain hy | hy := hy
  · exact .inl ⟨a, ha, hy⟩
  · exact .inr hy

/-- A task that is queued was queued before, or some action was about adding it. -/
theorem raises_of_task (hp : Passage s h σ τ) {t : Task}
    (ht : t ∈ τ.world.collaborators.store) : σ.Raises t.topic := by
  obtain ⟨a, v, todo, ha, he, hb, -⟩ | ⟨_, _, hb, -⟩ := hp.books_cases
  · have hstore : τ.world.collaborators.store = v.collaborators.store := congrArg Books.store hb
    rw [hstore] at ht
    exact raises_of_source ha (he.tasks t ht)
  · have hstore : τ.world.collaborators.store = σ.world.collaborators.store :=
      congrArg Books.store hb
    rw [hstore] at ht
    exact .inr ⟨t, ht, rfl⟩

/-- A happening does one deed at most, and for an order that something was about. -/
theorem deed_of_passage (hp : Passage s h σ τ) :
    τ.world.deeds = σ.world.deeds ∨ ∃ e, τ.world.deeds = e :: σ.world.deeds ∧
      ∀ o, e.order? = some o → ∃ n, σ.Raises ⟨o, n⟩ := by
  obtain ⟨a, v, todo, ha, he, hb, -⟩ | ⟨_, _, hb, -⟩ := hp.books_cases
  · rw [World.deeds_of_books hb]
    obtain hv | ⟨e, hv, ho⟩ := he.deed
    · exact .inl hv
    · refine .inr ⟨e, hv, fun o hoe => ?_⟩
      obtain ⟨n, hn⟩ := ho o hoe
      exact ⟨n, .inl ⟨a, ha, hn⟩⟩
  · exact .inl (congrArg Books.deeds hb)

theorem Known.comes (hk : σ.Known) (hp : Passage s h σ τ) {x : Topic} (hx : τ.Raises x) :
    Comes h σ τ x := by
  have before (hx : σ.Raises x) : Comes h σ τ x := .followed x hx ⟨rfl, fun _ hm => .inl hm⟩
  obtain ⟨t, ht, rfl⟩ | ⟨b, hbo, hbx⟩ := hx.symm
  · exact before (raises_of_task hp ht)
  have minor (hm : b.isMinor = true) : Comes h σ τ x := by
    rw [Action.topic?_of_minor hm] at hbx
    cases hbx
  cases hp with
  | acted a v todo ha he hb hclock htodo kept came =>
    obtain hbo | hbo | hbo | ⟨j, hj, rfl⟩ := came b hbo
    · exact before (.inl ⟨b, hbo, hbx⟩)
    · exact minor hbo
    -- What the action leaves to do: its topic was the action's, or that of a queued task.
    · have hlead := he.leads fun y hy => hk.topics y (.inl ⟨a, ha, hy⟩)
      obtain ⟨y, hy, hxy⟩ := hlead b hbo x hbx
      refine .followed y (raises_of_source ha hy) ?_
      rw [World.order_of_books hb]
      exact hxy
    · rw [hj.topic 0] at hbx
      exact before (.inl ⟨a, ha, hbx⟩)
  | shifted hb kept came =>
    obtain hbo | hbo := came b hbo
    · exact before (.inl ⟨b, hbo, hbx⟩)
    · exact minor hbo
  | asked q hh hq hw ho =>
    obtain hbo | rfl := (ho b).mp hbo
    · exact before (.inl ⟨b, hbo, hbx⟩)
    · exact .asked q hh hq hbx
  | ordered c customer item price o hh hfresh hb ho =>
    obtain hbo | rfl := (ho b).mp hbo
    · exact before (.inl ⟨b, hbo, hbx⟩)
    · cases hbx
      refine .ordered rfl ?_ rfl
      have hlen : τ.world.orders = σ.world.orders ++ [o] := congrArg Books.orders hb
      rw [hlen, List.length_append]
      exact Nat.lt_succ_self _

theorem Known.happen (hk : σ.Known) (hσ : σ.Orderly s) (hw : h.Whole s)
    (hτ : σ.happen? s h = some τ) : τ.Known := by
  have hp : Passage s h σ τ := hσ.passage hτ
  have still {o : OrderRef} (ho : o < σ.world.orders.length) : o < τ.world.orders.length :=
    (hσ.later hw hτ ho).2
  refine ⟨fun x hx => ?_, fun e he o ho => ?_⟩
  · cases hk.comes hp hx with
    | followed y hy hxy =>
      rw [hxy.order]
      exact still (hk.topics y hy)
    | asked q _ hq hx =>
      rw [Request.topic_order hx]
      exact still hq
    | ordered _ hlen _ => exact hlen
  · obtain hd | ⟨d, hd, habout⟩ := deed_of_passage hp
    · rw [hd] at he
      exact still (hk.deeds e he o ho)
    · rw [hd] at he
      obtain rfl | he := List.mem_cons.mp he
      · obtain ⟨n, hn⟩ := habout o ho
        exact still (hk.topics _ hn)
      · exact still (hk.deeds e he o ho)

end System
end Fulfilment
