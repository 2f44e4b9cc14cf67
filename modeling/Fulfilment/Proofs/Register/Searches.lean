import Fulfilment.Proofs.Faultless.Fresh

/-! Order ids are unique among all that share a register, however their searches interleave.

* `Allocator.drawn`: the candidates that draws spell, one after the other.
* `Search`, `Registry`, `Registry.run`: searches that look up one candidate at a time, in any order
  and among texts reserved directly.
* `Search.Finds`: what an id that is returned is.
* `Registry.Sound.after`, `Registry.sound_run`: one access, and every sequence of them.
* `Registry.returned_unique`: all returned ids are right and distinct, and the register grows by
  them and the reserved texts only. -/
namespace Fulfilment

set_option autoImplicit false

/-! ## Candidates -/

namespace Allocator

theorem letters_spell (n : Nat) (d : Draws) :
    (letters n d).1.length = n ∧ ∀ c ∈ (letters n d).1, c ∈ alphabet := by
  induction n generalizing d with
  | zero => exact ⟨rfl, fun c hc => absurd hc List.not_mem_nil⟩
  | succ n ih =>
    have hletter (i : Nat) : letter i ∈ alphabet := by
      unfold letter
      rw [List.getD_eq_getElem?_getD]
      cases hi : alphabet[i]? with
      | none => decide
      | some c => exact List.mem_of_getElem? hi
    obtain ⟨hlength, hrest⟩ := ih (d.below alphabet.length).2
    refine ⟨congrArg (· + 1) hlength, ?_⟩
    intro c hc
    obtain rfl | hc := List.mem_cons.mp hc
    · exact hletter _
    · exact hrest c hc

/-- The `n`-th candidate that the draws spell, and the draws left. -/
def drawn (a : Allocator) (d : Draws) : Nat → String × Draws
  | 0 => a.candidate d
  | n + 1 => a.candidate (drawn a d n).2

variable {a : Allocator}

theorem drawn_succ (d : Draws) (n : Nat) : a.drawn (a.candidate d).2 n = a.drawn d (n + 1) := by
  induction n with
  | zero => rfl
  | succ n ih =>
    show a.candidate (a.drawn (a.candidate d).2 n).2 = a.candidate (a.drawn d (n + 1)).2
    rw [ih]

/-- Every candidate has the length of the allocator and only letters of the alphabet. -/
theorem drawn_spells (d : Draws) (n : Nat) :
    (a.drawn d n).1.toList.length = a.length ∧ ∀ c ∈ (a.drawn d n).1.toList, c ∈ alphabet := by
  have hcandidate (e : Draws) :
      (a.candidate e).1.toList.length = a.length ∧ ∀ c ∈ (a.candidate e).1.toList, c ∈ alphabet := by
    have htext : (a.candidate e).1.toList = (letters a.length e).1 := String.toList_ofList
    rw [htext]
    exact letters_spell a.length e
  cases n with
  | zero => exact hcandidate d
  | succ n => exact hcandidate (a.drawn d n).2

theorem read_drawn (d : Draws) (n : Nat) :
    OrderId.read (a.drawn d n).1 = .ok ⟨(a.drawn d n).1⟩ := by
  obtain ⟨hlength, hletters⟩ := drawn_spells (a := a) d n
  have halphabet : alphabet.all Char.isAlphanum = true := rfl
  have hne : (a.drawn d n).1.toList ≠ [] := by
    intro hnil
    rw [hnil, List.length_nil] at hlength
    exact absurd hlength.symm (Nat.ne_of_gt a.length_pos)
  have hall : (a.drawn d n).1.toList.all Char.isAlphanum = true := by
    rw [List.all_eq_true]
    exact fun c hc => List.all_eq_true.mp halphabet c (hletters c hc)
  rw [OrderId.read, if_pos ⟨hne, hall⟩]

/-- An undisturbed search returns the first candidate that is not in the register. -/
theorem allocate?_eq_some_iff {tries : Nat} {r r' : Register} {d d' : Draws} {id : OrderId} :
    a.allocate? tries r d = some (id, r', d') ↔
      ∃ n < tries, (∀ m < n, (a.drawn d m).1 ∈ r.used) ∧ (a.drawn d n).1 ∉ r.used ∧
        id = ⟨(a.drawn d n).1⟩ ∧ r' = ⟨id.text :: r.used⟩ ∧ d' = (a.drawn d n).2 := by
  induction tries generalizing d with
  | zero => simp [allocate?]
  | succ tries ih =>
    have hstep : a.allocate? (tries + 1) r d =
        if (a.candidate d).1 ∈ r.used then a.allocate? tries r (a.candidate d).2
        else some (⟨(a.candidate d).1⟩, ⟨(a.candidate d).1 :: r.used⟩, (a.candidate d).2) := by
      rw [allocate?]
      simp only [Register.reserve_eq]
      by_cases hused : (a.candidate d).1 ∈ r.used
      · rw [if_pos hused, if_pos hused]
      · rw [if_neg hused, if_neg hused]
    rw [hstep]
    by_cases hused : (a.candidate d).1 ∈ r.used
    · rw [if_pos hused, ih]
      simp only [drawn_succ]
      constructor
      · rintro ⟨n, hn, hbefore, hrest⟩
        refine ⟨n + 1, Nat.succ_lt_succ hn, ?_, hrest⟩
        intro m hm
        cases m with
        | zero => exact hused
        | succ m => exact hbefore m (Nat.lt_of_succ_lt_succ hm)
      · rintro ⟨n, hn, hbefore, hfree, hrest⟩
        cases n with
        | zero => exact absurd hused hfree
        | succ n =>
          exact ⟨n, Nat.lt_of_succ_lt_succ hn, fun m hm => hbefore (m + 1) (Nat.succ_lt_succ hm),
            hfree, hrest⟩
    · rw [if_neg hused, Option.some.injEq, Prod.mk.injEq, Prod.mk.injEq]
      constructor
      · rintro ⟨rfl, rfl, rfl⟩
        exact ⟨0, Nat.succ_pos tries, fun m hm => absurd hm (Nat.not_lt_zero m), hused, rfl, rfl, rfl⟩
      · rintro ⟨n, hn, hbefore, hfree, rfl, rfl, rfl⟩
        cases n with
        | zero => exact ⟨rfl, rfl, rfl⟩
        | succ n => exact absurd (hbefore 0 (Nat.succ_pos n)) hused

end Allocator

/-! ## Searches that share a register -/

/-- A request for an id of the given length. -/
structure Search where
  length : Nat
  /-- Spell the candidates. -/
  draws : Draws
  /-- The register when the search began. -/
  opened : Register
  /-- The registers in which its candidates so far were looked up. -/
  lookups : List Register := []
  result : Option OrderId := none

namespace Search

def candidate (s : Search) (n : Nat) : String :=
  ((Allocator.ofLength s.length).drawn s.draws n).1

/-- Looks up the next candidate, unless the search is over. -/
def draw (s : Search) (r : Register) : Search × Register :=
  match s.result with
  | some _ => (s, r)
  | none =>
    let text := s.candidate s.lookups.length
    match r.reserve text with
    | (true, r') => ({ s with lookups := s.lookups ++ [r], result := some ⟨text⟩ }, r')
    | (false, r') => ({ s with lookups := s.lookups ++ [r] }, r')

/-- The first candidates were in use in these registers. -/
def Missed (s : Search) (rs : List Register) : Prop :=
  ∀ n r, rs[n]? = some r → s.candidate n ∈ r.used

/-- The id is the first candidate that was not in use when it was looked up, and it is now. -/
structure Finds (s : Search) (now : Register) (id : OrderId) : Prop where
  length : id.text.length = max s.length 1
  letters : ∀ c ∈ id.text.toList, c ∈ Allocator.alphabet
  read : OrderId.read id.text = .ok id
  first : ∃ before last, s.lookups = before ++ [last] ∧ s.Missed before ∧
    id.text = s.candidate before.length ∧ id.text ∉ last.used
  new : id.text ∉ s.opened.used
  taken : id.text ∈ now.used

end Search

/-- A register, the searches that share it and the texts reserved directly. -/
structure Registry where
  register : Register
  searches : List Search := []
  reserved : List String := []

/-- What can happen to a register. -/
inductive Access
  | search (length : Nat) (draws : Draws)
  | draw (i : Nat)
  | reserve (text : String)

namespace Registry

def after (g : Registry) : Access → Registry
  | .search length draws =>
    { g with searches := g.searches ++ [{ length, draws, opened := g.register }] }
  | .draw i =>
    match g.searches[i]? with
    | none => g
    | some s =>
      let (s, r) := s.draw g.register
      { g with register := r, searches := g.searches.set i s }
  | .reserve text =>
    match g.register.reserve text with
    | (true, r) => { g with register := r, reserved := text :: g.reserved }
    | (false, r) => { g with register := r }

def run (g : Registry) (accesses : List Access) : Registry := accesses.foldl after g

/-- The ids that were returned. -/
def returned (g : Registry) : List OrderId := g.searches.filterMap (·.result)

/-- All texts that were taken. -/
def texts (g : Registry) : List String := g.returned.map (·.text) ++ g.reserved

end Registry

/-! ## One search -/

namespace Search

variable {s : Search} {start now : Register} {text : String}

theorem draw_eq (s : Search) (r : Register) (h : s.result = none) :
    s.draw r = if s.candidate s.lookups.length ∈ r.used then
        ({ s with lookups := s.lookups ++ [r] }, r)
      else
        ({ s with
            lookups := s.lookups ++ [r]
            result := some ⟨s.candidate s.lookups.length⟩ },
          ⟨s.candidate s.lookups.length :: r.used⟩) := by
  unfold draw
  rw [h]
  simp only [Register.reserve_eq]
  by_cases hused : s.candidate s.lookups.length ∈ r.used
  · rw [if_pos hused, if_pos hused]
  · rw [if_neg hused, if_neg hused]

theorem missed_nil (s : Search) : s.Missed [] := by
  intro n r hr
  cases hr

theorem Missed.concat {rs : List Register} {r : Register} (h : s.Missed rs)
    (hr : s.candidate rs.length ∈ r.used) : s.Missed (rs ++ [r]) := by
  intro n r' hr'
  obtain hn | rfl | hn := Nat.lt_trichotomy n rs.length
  · rw [List.getElem?_append_left hn] at hr'
    exact h n r' hr'
  · rw [List.getElem?_concat_length] at hr'
    cases hr'
    exact hr
  · rw [List.getElem?_eq_none (by simp; omega)] at hr'
    cases hr'

/-- What holds of a search as long as its register is in use. -/
structure Sound (now : Register) (s : Search) : Prop where
  opened : s.opened.used <:+ now.used
  pending : s.result = none → s.Missed s.lookups
  found : ∀ id, s.result = some id → s.Finds now id

theorem sound_opening (length : Nat) (draws : Draws) (now : Register) :
    Sound now { length, draws, opened := now } where
  opened := List.suffix_refl _
  pending _ := missed_nil _
  found _ hid := nomatch hid

/-- A search does not mind what else is taken. -/
theorem Sound.cons (h : s.Sound now) : s.Sound ⟨text :: now.used⟩ where
  opened := h.opened.trans (List.suffix_cons text now.used)
  pending := h.pending
  found id hid :=
    { h.found id hid with taken := List.mem_cons_of_mem text (h.found id hid).taken }

theorem Sound.missed (h : s.Sound now) (hresult : s.result = none)
    (hused : s.candidate s.lookups.length ∈ now.used) :
    Sound now { s with lookups := s.lookups ++ [now] } where
  opened := h.opened
  pending _ := (h.pending hresult).concat hused
  found id hid := by
    rw [hresult] at hid
    cases hid

theorem Sound.finds (h : s.Sound now) (hresult : s.result = none)
    (hfree : s.candidate s.lookups.length ∉ now.used) :
    Sound ⟨s.candidate s.lookups.length :: now.used⟩
      { s with
        lookups := s.lookups ++ [now]
        result := some ⟨s.candidate s.lookups.length⟩ } where
  opened := h.opened.trans (List.suffix_cons _ now.used)
  pending hnone := nomatch hnone
  found id hid := by
    cases hid
    obtain ⟨hlength, hletters⟩ :=
      (Allocator.ofLength s.length).drawn_spells s.draws s.lookups.length
    exact
      { length := hlength
        letters := hletters
        read := Allocator.read_drawn s.draws s.lookups.length
        first := ⟨s.lookups, now, rfl, h.pending hresult, rfl, hfree⟩
        new := fun hopened => hfree (h.opened.subset hopened)
        taken := List.mem_cons_self }

end Search

/-! ## One access -/

section Replaced

variable {α β : Type} {f : α → Option β} {l : List α} {i : Nat} {a b : α}

theorem filterMap_set_none (hi : l[i]? = some a) (ha : f a = none) (hb : f b = none) :
    (l.set i b).filterMap f = l.filterMap f := by
  induction l generalizing i with
  | nil => rfl
  | cons x l ih =>
    cases i with
    | zero =>
      cases hi
      rw [List.set_cons_zero, List.filterMap_cons_none hb, List.filterMap_cons_none ha]
    | succ i =>
      have hrest := ih (i := i) hi
      rw [List.set_cons_succ, List.filterMap_cons, List.filterMap_cons, hrest]

theorem filterMap_set_some {y : β}
    (hi : l[i]? = some a) (ha : f a = none) (hb : f b = some y) :
    (y :: l.filterMap f).Perm ((l.set i b).filterMap f) := by
  induction l generalizing i with
  | nil => cases hi
  | cons x l ih =>
    cases i with
    | zero =>
      cases hi
      rw [List.set_cons_zero, List.filterMap_cons_some hb, List.filterMap_cons_none ha]
    | succ i =>
      have hrest := ih (i := i) hi
      rw [List.set_cons_succ, List.filterMap_cons, List.filterMap_cons]
      cases f x with
      | none => exact hrest
      | some z => exact (List.Perm.swap z y _).trans (hrest.cons z)

end Replaced

namespace Registry

variable {g : Registry} {start : Register} {text : String}

/-- Everything taken since the start is the id of a search or was reserved, once. -/
structure Sound (start : Register) (g : Registry) : Prop where
  taken : ∃ fresh, g.register.used = fresh ++ start.used ∧ fresh.Nodup ∧
    (∀ text ∈ fresh, text ∉ start.used) ∧ fresh.Perm g.texts
  searches : ∀ s ∈ g.searches, s.Sound g.register

theorem sound_start (start : Register) : Sound start ⟨start, [], []⟩ where
  taken := ⟨[], rfl, List.nodup_nil, fun _ h => absurd h List.not_mem_nil, List.Perm.refl _⟩
  searches _ hs := absurd hs List.not_mem_nil

/-- One more text is taken, and one more is accounted for. -/
theorem Sound.take {g' : Registry} (h : g.Sound start) (hfree : text ∉ g.register.used)
    (hused : g'.register.used = text :: g.register.used) (htexts : (text :: g.texts).Perm g'.texts)
    (hsearches : ∀ s ∈ g'.searches, s.Sound g'.register) : g'.Sound start := by
  obtain ⟨fresh, hfresh, hnodup, hnew, hperm⟩ := h.taken
  rw [hfresh, List.mem_append, not_or] at hfree
  refine ⟨⟨text :: fresh, ?_, ?_, ?_, ?_⟩, hsearches⟩
  · rw [hused, hfresh, List.cons_append]
  · exact List.nodup_cons.mpr ⟨hfree.1, hnodup⟩
  · intro other hother
    obtain rfl | hother := List.mem_cons.mp hother
    · exact hfree.2
    · exact hnew other hother
  · exact (hperm.cons text).trans htexts

/-- The search at `i` is replaced, the others are sound anyway. -/
theorem sound_set {ss : List Search} {now : Register} {i : Nat} {s : Search}
    (hs : s.Sound now) (hss : ∀ t ∈ ss, t.Sound now) : ∀ t ∈ ss.set i s, t.Sound now := by
  intro t ht
  obtain ht | rfl := List.mem_or_eq_of_mem_set ht
  · exact hss t ht
  · exact hs

theorem after_draw {i : Nat} {s : Search} (hi : g.searches[i]? = some s) :
    g.after (.draw i) =
      { g with
        register := (s.draw g.register).2
        searches := g.searches.set i (s.draw g.register).1 } := by
  simp only [after, hi]

theorem Sound.draw (h : g.Sound start) (i : Nat) : (g.after (.draw i)).Sound start := by
  cases hi : g.searches[i]? with
  | none =>
    have hsame : g.after (.draw i) = g := by simp only [after, hi]
    rw [hsame]
    exact h
  | some s =>
    rw [after_draw hi]
    have hs : s.Sound g.register := h.searches s (List.mem_of_getElem? hi)
    cases hresult : s.result with
    | some id =>
      have hover : s.draw g.register = (s, g.register) := by
        unfold Search.draw
        rw [hresult]
      obtain ⟨hlt, hget⟩ := List.getElem?_eq_some_iff.mp hi
      have hsame : g.searches.set i s = g.searches := by
        rw [← hget]
        exact List.set_getElem_self hlt
      rw [hover, hsame]
      exact h
    | none =>
      rw [s.draw_eq g.register hresult]
      by_cases hused : s.candidate s.lookups.length ∈ g.register.used
      · rw [if_pos hused]
        refine ⟨?_, sound_set (hs.missed hresult hused) h.searches⟩
        have hreturned := filterMap_set_none (f := Search.result) hi hresult
          (b := { s with lookups := s.lookups ++ [g.register] }) hresult
        simp only [texts, returned, hreturned]
        exact h.taken
      · rw [if_neg hused]
        have hreturned := filterMap_set_some (f := Search.result) hi hresult
          (b := { s with
            lookups := s.lookups ++ [g.register]
            result := some ⟨s.candidate s.lookups.length⟩ }) rfl
        refine h.take hused rfl ?_ (sound_set (hs.finds hresult hused) fun t ht =>
          (h.searches t ht).cons)
        exact (hreturned.map OrderId.text).append_right g.reserved

theorem Sound.after (h : g.Sound start) (e : Access) : (g.after e).Sound start := by
  cases e with
  | search length draws =>
    have hreturned : (g.after (.search length draws)).returned = g.returned := by
      simp [Registry.after, returned]
    refine ⟨?_, ?_⟩
    · simp only [texts, hreturned]
      exact h.taken
    · intro s hs
      obtain hs | hs := List.mem_append.mp hs
      · exact h.searches s hs
      · rw [List.mem_singleton.mp hs]
        exact Search.sound_opening length draws g.register
  | draw i => exact h.draw i
  | reserve text =>
    simp only [Registry.after, Register.reserve_eq]
    by_cases hused : text ∈ g.register.used
    · rw [if_pos hused]
      exact h
    · rw [if_neg hused]
      refine h.take hused rfl List.perm_middle.symm fun s hs => (h.searches s hs).cons

theorem Sound.run (h : g.Sound start) (accesses : List Access) :
    (g.run accesses).Sound start := by
  induction accesses generalizing g with
  | nil => exact h
  | cons e accesses ih => exact ih (h.after e)

/-! ## Undisturbed searches -/

/-- With the latest search, which has drawn so often and found nothing. -/
def searching (g : Registry) (length : Nat) (draws : Draws) (n : Nat) : Registry :=
  { g with
    searches := g.searches ++
      [{ length, draws, opened := g.register, lookups := List.replicate n g.register }] }

theorem run_concat (g : Registry) (accesses : List Access) (e : Access) :
    g.run (accesses ++ [e]) = (g.run accesses).after e := by
  rw [run, List.foldl_append]
  rfl

theorem after_draw_searching (g : Registry) (length : Nat) (draws : Draws) (n : Nat) :
    (g.searching length draws n).after (.draw g.searches.length) =
      if ((Allocator.ofLength length).drawn draws n).1 ∈ g.register.used then
        g.searching length draws (n + 1)
      else
        { g with
          register := ⟨((Allocator.ofLength length).drawn draws n).1 :: g.register.used⟩
          searches := g.searches ++
            [{  length, draws, opened := g.register
                lookups := List.replicate (n + 1) g.register
                result := some ⟨((Allocator.ofLength length).drawn draws n).1⟩ }] } := by
  have hlast : (g.searching length draws n).searches[g.searches.length]? =
      some { length, draws, opened := g.register, lookups := List.replicate n g.register } :=
    List.getElem?_concat_length
  rw [after_draw hlast, Search.draw_eq _ _ rfl]
  simp only [Search.candidate, List.length_replicate, searching, ← List.replicate_succ']
  split
  · simp
  · simp

theorem run_draws {length : Nat} {draws : Draws} {n : Nat}
    (h : ∀ m < n, ((Allocator.ofLength length).drawn draws m).1 ∈ g.register.used) :
    (g.after (.search length draws)).run (List.replicate n (.draw g.searches.length)) =
      g.searching length draws n := by
  induction n with
  | zero => rfl
  | succ n ih =>
    have hbefore := ih fun m hm => h m (Nat.lt_succ_of_lt hm)
    rw [List.replicate_succ', run_concat, hbefore, after_draw_searching,
      if_pos (h n (Nat.lt_succ_self n))]

/-- An allocation is a search of which all draws follow each other. -/
theorem exists_run_of_allocate? {length tries : Nat} {draws rest : Draws} {id : OrderId}
    {r : Register}
    (h : (Allocator.ofLength length).allocate? tries g.register draws = some (id, r, rest)) :
    ∃ n < tries, ∃ s : Search, s.length = length ∧ s.draws = draws ∧ s.result = some id ∧
      g.run (.search length draws :: List.replicate (n + 1) (.draw g.searches.length)) =
        { g with register := r, searches := g.searches ++ [s] } := by
  obtain ⟨n, hn, hbefore, hfree, rfl, rfl, -⟩ := Allocator.allocate?_eq_some_iff.mp h
  let s : Search :=
    { length, draws, opened := g.register
      lookups := List.replicate (n + 1) g.register
      result := some ⟨((Allocator.ofLength length).drawn draws n).1⟩ }
  refine ⟨n, hn, s, rfl, rfl, rfl, ?_⟩
  rw [List.replicate_succ', ← List.cons_append, run_concat]
  show ((g.after (.search length draws)).run _).after _ = _
  rw [run_draws hbefore, after_draw_searching, if_neg hfree]

/-! ## Every sequence of accesses -/

/-- Whatever the register held and however it is accessed: an id that a search returns is the first
of its candidates that was free, and is in use from then on; the ids returned and the texts reserved
are distinct and new; nothing else is added. A whole allocation is one way to access it. -/
theorem returned_unique (start : Register) (accesses : List Access) :
    let g := run ⟨start, [], []⟩ accesses
    (∀ s ∈ g.searches, ∀ id, s.result = some id → s.Finds g.register id) ∧
    (g.texts.Nodup ∧ ∀ text ∈ g.texts, text ∉ start.used) ∧
    g.register.used.Perm (g.texts ++ start.used) ∧
    g.register.size = start.size + g.returned.length + g.reserved.length ∧
    (start.used.Nodup → g.register.used.Nodup) ∧
    ∀ length tries draws id r rest,
      (Allocator.ofLength length).allocate? tries g.register draws = some (id, r, rest) →
        ∃ n < tries, ∃ s : Search, s.length = length ∧ s.draws = draws ∧ s.result = some id ∧
          g.run (.search length draws :: List.replicate (n + 1) (.draw g.searches.length)) =
            { g with register := r, searches := g.searches ++ [s] } := by
  intro g
  have hsound : g.Sound start := (sound_start start).run accesses
  obtain ⟨fresh, hfresh, hnodup, hnew, hperm⟩ := hsound.taken
  have hsize : fresh.length = g.returned.length + g.reserved.length := by
    rw [hperm.length_eq, texts, List.length_append, List.length_map]
  refine ⟨fun s hs => (hsound.searches s hs).found, ⟨hperm.nodup_iff.mp hnodup, ?_⟩, ?_, ?_, ?_, ?_⟩
  · intro text htext
    exact hnew text (hperm.mem_iff.mpr htext)
  · rw [hfresh]
    exact hperm.append_right start.used
  · rw [Register.size, Register.size, hfresh, List.length_append, hsize]
    omega
  · intro hstart
    rw [hfresh]
    exact List.nodup_append.mpr ⟨hnodup, hstart, fun text htext other hother he =>
      hnew text htext (he ▸ hother)⟩
  · intro length tries draws id r rest h
    exact exists_run_of_allocate? h

/-- Two searches for one letter that both draw B, next to B and C reserved directly. -/
def contended : List Access :=
  [.search 0 { script := [0, 1, 3] }, .search 1 { script := [1] }, .draw 0, .draw 1, .reserve "B",
    .reserve "C", .draw 0, .draw 0]

theorem returned_contended :
    let g := run ⟨⟨["A"]⟩, [], []⟩ contended
    g.returned = [⟨"D"⟩, ⟨"B"⟩] ∧ g.reserved = ["C"] ∧
      (∀ s ∈ g.searches, ∀ id, s.result = some id → s.Finds g.register id) ∧ g.texts.Nodup ∧
      g.register.used.Nodup ∧ g.register.size = 4 ∧
      ∃ n < 2, ∃ s : Search, s.length = 1 ∧ s.draws = { script := [3, 4] } ∧ s.result = some ⟨"E"⟩ ∧
        g.run (.search 1 { script := [3, 4] } :: List.replicate (n + 1) (.draw 2)) =
          { g with register := ⟨"E" :: g.register.used⟩, searches := g.searches ++ [s] } := by
  intro g
  have hall := returned_unique ⟨["A"]⟩ contended
  obtain ⟨hfinds, ⟨htexts, -⟩, -, hsize, hnodup, hwhole⟩ := hall
  exact ⟨by decide, by decide, hfinds, htexts, hnodup (by decide), hsize,
    hwhole 1 2 { script := [3, 4] } ⟨"E"⟩ ⟨"E" :: g.register.used⟩ { script := [] } rfl⟩

end Registry
end Fulfilment
