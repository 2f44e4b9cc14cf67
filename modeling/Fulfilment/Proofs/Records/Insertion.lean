import Fulfilment.Proofs.Faultless.Fresh

/-! Records are only ever added, whatever keys are minted.

* `Records.insertFresh?_eq_some_iff`: the first minted key that is free is taken.
* `Insertion`, `Records.insertAll`: calls that store a record, one after the other.
* `Records.insert_cases`: what one call can do.
* `Records.insertAll_grows`: nothing is changed or lost, and every call that stored a record counts
  once. -/
namespace Fulfilment

set_option autoImplicit false

/-- A call to store a record. -/
inductive Insertion (κ ν : Type)
  /-- Under the first free one of so many minted keys. -/
  | fresh (mint : Nat → κ) (tries : Nat) (build : κ → ν)
  | ifAbsent (k : κ) (x : ν)

/-- A record that the call stores has its own key inside. -/
def Insertion.Stamps {κ ν : Type} (idOf : ν → κ) : Insertion κ ν → Prop
  | .fresh _ _ build => ∀ k, idOf (build k) = k
  | .ifAbsent k x => idOf x = k

namespace Records

variable {κ ν : Type}

theorem keys_push (r : Records κ ν) (k : κ) (x : ν) : (r.push k x).keys = r.keys ++ [k] := by
  unfold keys push
  rw [List.map_append]
  rfl

theorem size_eq (r : Records κ ν) : r.size = r.keys.length := by
  rw [size, keys, List.length_map]

theorem nodup_push {r : Records κ ν} {k : κ} (h : r.keys.Nodup) (hk : k ∉ r.keys) (x : ν) :
    (r.push k x).keys.Nodup := by
  rw [keys_push, List.nodup_append]
  refine ⟨h, List.nodup_singleton k, fun a ha b hb hab => hk ?_⟩
  rw [← List.mem_singleton.mp hb, ← hab]
  exact ha

/-- Every record has its own key inside. -/
def Stamped (idOf : ν → κ) (r : Records κ ν) : Prop := ∀ e ∈ r.entries, idOf e.2 = e.1

theorem Stamped.push {r : Records κ ν} {idOf : ν → κ} (h : r.Stamped idOf) {k : κ} {x : ν}
    (hx : idOf x = k) : (r.push k x).Stamped idOf := by
  intro e he
  obtain he | he := List.mem_append.mp he
  · exact h e he
  · rw [List.mem_singleton.mp he]
    exact hx

variable [DecidableEq κ] {r r' : Records κ ν} {mint : Nat → κ} {build : κ → ν}

/-! ## One call -/

theorem freshIndex?_eq_some_iff {tries start i : Nat} :
    r.freshIndex? mint tries start = some i ↔
      start ≤ i ∧ i < start + tries ∧ (∀ j, start ≤ j → j < i → mint j ∈ r.keys) ∧
        mint i ∉ r.keys := by
  induction tries generalizing start with
  | zero =>
    constructor
    · intro h
      cases h
    · rintro ⟨hle, hlt, -⟩
      omega
  | succ tries ih =>
    rw [freshIndex?]
    by_cases hstart : mint start ∈ r.keys
    · rw [if_pos ((r.contains_iff _).mpr hstart), ih]
      constructor
      · rintro ⟨hle, hlt, hbefore, hfree⟩
        refine ⟨by omega, by omega, ?_, hfree⟩
        intro j hj hji
        by_cases he : j = start
        · rw [he]
          exact hstart
        · exact hbefore j (by omega) hji
      · rintro ⟨hle, hlt, hbefore, hfree⟩
        have hne : start ≠ i := by
          rintro rfl
          exact hfree hstart
        exact ⟨by omega, by omega, fun j hj => hbefore j (by omega), hfree⟩
    · rw [if_neg (mt (r.contains_iff _).mp hstart), Option.some.injEq]
      constructor
      · rintro rfl
        exact ⟨Nat.le_refl _, by omega, fun j hj hji => absurd hj (Nat.not_le.mpr hji), hstart⟩
      · rintro ⟨hle, -, hbefore, -⟩
        by_contra hne
        exact hstart (hbefore start (Nat.le_refl _) (by omega))

/-- The key is the first one that is free, and the record is the one built from it. -/
theorem insertFresh?_eq_some_iff {tries i : Nat} :
    r.insertFresh? mint tries build = some (i, r') ↔
      i < tries ∧ (∀ j < i, mint j ∈ r.keys) ∧ mint i ∉ r.keys ∧
        r' = r.push (mint i) (build (mint i)) := by
  unfold insertFresh?
  simp only [Option.map_eq_some_iff, freshIndex?_eq_some_iff, Prod.mk.injEq]
  constructor
  · rintro ⟨j, ⟨-, hlt, hbefore, hfree⟩, rfl, rfl⟩
    exact ⟨by omega, fun m hm => hbefore m (Nat.zero_le m) hm, hfree, rfl⟩
  · rintro ⟨hlt, hbefore, hfree, rfl⟩
    exact ⟨i, ⟨Nat.zero_le i, by omega, fun m _ hm => hbefore m hm, hfree⟩, rfl, rfl⟩

theorem insertIfAbsent_eq (r : Records κ ν) (k : κ) (x : ν) :
    r.insertIfAbsent k x = if k ∈ r.keys then (false, r) else (true, r.push k x) := by
  simp only [insertIfAbsent, ← contains_iff]

/-- Whether a record was stored, and the records after the call. -/
def insert (r : Records κ ν) : Insertion κ ν → Bool × Records κ ν
  | .fresh mint tries build =>
    match r.insertFresh? mint tries build with
    | some (_, r') => (true, r')
    | none => (false, r)
  | .ifAbsent k x => r.insertIfAbsent k x

/-- Nothing is stored, or one record under a key that was free. -/
theorem insert_cases (r : Records κ ν) (c : Insertion κ ν) :
    r.insert c = (false, r) ∨
      ∃ k x, k ∉ r.keys ∧ (∀ idOf : ν → κ, c.Stamps idOf → idOf x = k) ∧
        r.insert c = (true, r.push k x) := by
  cases c with
  | fresh mint tries build =>
    simp only [insert]
    cases h : r.insertFresh? mint tries build with
    | none => exact .inl rfl
    | some q =>
      obtain ⟨i, r'⟩ := q
      obtain ⟨-, -, hfree, rfl⟩ := insertFresh?_eq_some_iff.mp h
      exact .inr ⟨mint i, build (mint i), hfree, fun idOf hstamp => hstamp (mint i), rfl⟩
  | ifAbsent k x =>
    simp only [insert, insertIfAbsent_eq]
    by_cases hk : k ∈ r.keys
    · rw [if_pos hk]
      exact .inl rfl
    · rw [if_neg hk]
      exact .inr ⟨k, x, hk, fun idOf hstamp => hstamp, rfl⟩

section Step

variable (c : Insertion κ ν)

theorem entries_insert (r : Records κ ν) : r.entries <+: (r.insert c).2.entries := by
  obtain hc | ⟨k, x, -, -, hc⟩ := r.insert_cases c
  · have hsame : (r.insert c).2.entries = r.entries := congrArg (·.2.entries) hc
    exact hsame ▸ List.prefix_refl _
  · have hpushed : (r.insert c).2.entries = r.entries ++ [(k, x)] := congrArg (·.2.entries) hc
    exact hpushed ▸ List.prefix_append _ _

theorem size_insert (r : Records κ ν) :
    (r.insert c).2.size = r.size + if (r.insert c).1 then 1 else 0 := by
  obtain hc | ⟨k, x, -, -, hc⟩ := r.insert_cases c
  · rw [hc]
    rfl
  · rw [hc, size_eq, keys_push, List.length_append, List.length_singleton, ← size_eq]
    rfl

theorem nodup_insert (h : r.keys.Nodup) : (r.insert c).2.keys.Nodup := by
  obtain hc | ⟨k, x, hk, -, hc⟩ := r.insert_cases c
  · rw [hc]
    exact h
  · rw [hc]
    exact nodup_push h hk x

theorem Stamped.insert {idOf : ν → κ} (h : r.Stamped idOf) (hc : c.Stamps idOf) :
    (r.insert c).2.Stamped idOf := by
  obtain hi | ⟨k, x, -, hx, hi⟩ := r.insert_cases c
  · rw [hi]
    exact h
  · rw [hi]
    exact h.push (hx idOf hc)

end Step

/-! ## Sequences of calls -/

/-- The records after the calls. -/
def insertAll : Records κ ν → List (Insertion κ ν) → Records κ ν
  | r, [] => r
  | r, c :: cs => insertAll (r.insert c).2 cs

/-- How many of the calls stored a record. -/
def stored : Records κ ν → List (Insertion κ ν) → Nat
  | _, [] => 0
  | r, c :: cs => (if (r.insert c).1 then 1 else 0) + stored (r.insert c).2 cs

/-- Nothing stored before is changed or lost; the records are as many as before and as many as the
calls that stored one; keys do not repeat, and are those inside the records. -/
theorem insertAll_grows (r : Records κ ν) (cs : List (Insertion κ ν)) :
    r.entries <+: (r.insertAll cs).entries ∧
      (r.insertAll cs).size = r.size + r.stored cs ∧
      (r.keys.Nodup → (r.insertAll cs).keys.Nodup) ∧
      ∀ idOf : ν → κ, (∀ c ∈ cs, c.Stamps idOf) → r.Stamped idOf →
        (r.insertAll cs).Stamped idOf := by
  induction cs generalizing r with
  | nil => exact ⟨List.prefix_refl _, rfl, fun h => h, fun _ _ h => h⟩
  | cons c cs ih =>
    obtain ⟨hentries, hsize, hnodup, hstamped⟩ := ih (r.insert c).2
    refine ⟨(r.entries_insert c).trans hentries, ?_, fun h => hnodup (nodup_insert c h), ?_⟩
    · rw [insertAll, stored, hsize, size_insert, Nat.add_assoc]
    · intro idOf hcs hr
      exact hstamped idOf (fun d hd => hcs d (List.mem_cons_of_mem c hd))
        (hr.insert c (hcs c List.mem_cons_self))

theorem get?_of_entries (h : r.entries <+: r'.entries) {k : κ} {x : ν} (hk : r.get? k = some x) :
    r'.get? k = some x := by
  obtain ⟨more, hmore⟩ := h
  rw [get?, ← hmore, List.lookup_append, ← get?, hk, Option.some_or]

end Records
end Fulfilment
