import Mathlib.Data.List.DropRight
import Mathlib.Data.List.Forall2
import Fulfilment.Text.Blank
import Fulfilment.Text.Numeral

/-! What trimming leaves of a text, and which words are read as numbers and as names.

* `Text.Trims`: a text is a core with blanks around it; `trimList_eq_iff`: trimming finds the core.
* `Text.Numeral.Denotes`: the grammar of whole numbers, with the value of a word;
  `readList_eq_ok_iff`: what is read is the value, if that is below the limit.
* `Text.InAnyCase`: a word is a name with some of its letters made capital. -/
namespace Fulfilment.Text

set_option autoImplicit false

/-! ## Blanks at the ends -/

/-- Blanks, the core, blanks again; the core neither starts nor ends with a blank. -/
def Trims (text core : List Char) : Prop :=
  ∃ before after, text = before ++ core ++ after ∧ (∀ c ∈ before, isBlank c = true) ∧
    (∀ c ∈ after, isBlank c = true) ∧ (∀ c ∈ core.head?, isBlank c = false) ∧
    ∀ c ∈ core.getLast?, isBlank c = false

theorem trimList_eq (cs : List Char) :
    trimList cs = (cs.dropWhile isBlank).rdropWhile isBlank := rfl

theorem head?_trimList (cs : List Char) : ∀ c ∈ (trimList cs).head?, isBlank c = false := by
  intro c hc
  obtain ⟨after, hafter⟩ := List.rdropWhile_prefix isBlank (cs.dropWhile isBlank)
  have hhead : (cs.dropWhile isBlank).head? = some c := by
    rw [← hafter, List.head?_append, ← trimList_eq, Option.mem_def.mp hc]
    rfl
  have hnot := List.head?_dropWhile_not isBlank cs
  rwa [hhead] at hnot

theorem getLast?_trimList (cs : List Char) :
    ∀ c ∈ (trimList cs).getLast?, isBlank c = false := by
  intro c hc
  have hne : trimList cs ≠ [] := by
    intro h
    rw [h] at hc
    cases hc
  have hlast := List.getLast?_eq_some_getLast hne
  rw [Option.mem_def.mp hc, Option.some.injEq] at hlast
  have hnot := List.rdropWhile_last_not isBlank _ (trimList_eq cs ▸ hne)
  rw [hlast]
  exact Bool.eq_false_iff.mpr hnot

theorem trims_trimList (cs : List Char) : Trims cs (trimList cs) := by
  refine ⟨cs.takeWhile isBlank, (cs.dropWhile isBlank).rtakeWhile isBlank, ?_,
    fun _ h => List.mem_takeWhile_imp h, fun _ h => List.mem_rtakeWhile_imp h, head?_trimList cs,
    getLast?_trimList cs⟩
  rw [trimList_eq, List.append_assoc, List.rdropWhile_append_rtakeWhile,
    List.takeWhile_append_dropWhile]

theorem dropWhile_blanks {before rest : List Char} (hb : ∀ c ∈ before, isBlank c = true)
    (hr : ∀ c ∈ rest.head?, isBlank c = false) : (before ++ rest).dropWhile isBlank = rest := by
  rw [List.dropWhile_append_of_pos hb]
  cases rest with
  | nil => rfl
  | cons c rest => exact List.dropWhile_cons_of_neg (by simp [hr c rfl])

theorem rdropWhile_blanks {rest after : List Char} (ha : ∀ c ∈ after, isBlank c = true)
    (hr : ∀ c ∈ rest.getLast?, isBlank c = false) : (rest ++ after).rdropWhile isBlank = rest := by
  have hdrop : (after.reverse ++ rest.reverse).dropWhile isBlank = rest.reverse :=
    dropWhile_blanks (fun c hc => ha c (List.mem_reverse.mp hc)) (by rwa [List.head?_reverse])
  rw [List.rdropWhile, List.reverse_append, hdrop, List.reverse_reverse]

theorem trimList_eq_of_trims {text core : List Char} (h : Trims text core) :
    trimList text = core := by
  obtain ⟨before, after, rfl, hbefore, hafter, hhead, hlast⟩ := h
  rw [trimList_eq, List.append_assoc]
  cases core with
  | nil =>
    have hall : ∀ c ∈ before ++ after, isBlank c = true := fun c hc =>
      (List.mem_append.mp hc).elim (hbefore c) (hafter c)
    rw [List.nil_append, List.dropWhile_eq_nil_iff.mpr hall]
    rfl
  | cons c core =>
    have hdrop : (before ++ (c :: core ++ after)).dropWhile isBlank = c :: core ++ after :=
      dropWhile_blanks hbefore hhead
    rw [hdrop, rdropWhile_blanks hafter hlast]

theorem trimList_eq_iff {text core : List Char} : trimList text = core ↔ Trims text core :=
  ⟨fun h => h ▸ trims_trimList text, trimList_eq_of_trims⟩

/-- A text without blanks is its own core. -/
theorem trimList_eq_self {cs : List Char} (h : ∀ c ∈ cs, isBlank c = false) : trimList cs = cs :=
  trimList_eq_of_trims ⟨[], [], by simp, by simp, by simp, fun c hc => h c (List.mem_of_head? hc),
    fun c hc => h c (List.mem_of_getLast? hc)⟩

/-! ## Whole numbers -/

namespace Numeral

/-- At least one decimal digit, of value `n`. -/
def Digits (word : List Char) (n : Nat) : Prop :=
  word ≠ [] ∧ (∀ c ∈ word, c.isDigit = true) ∧ Nat.ofDigitChars 10 word 0 = n

/-- Digits of value `n`, with or without a plus sign before them. -/
def Denotes (word : List Char) (n : Nat) : Prop :=
  Digits word n ∨ ∃ rest, word = '+' :: rest ∧ Digits rest n

theorem digit?_of_isDigit {c : Char} (h : c.isDigit = true) :
    digit? c = some (c.toNat - '0'.toNat) := by
  simp only [Char.isDigit, Bool.and_eq_true, decide_eq_true_eq] at h
  exact if_pos ⟨h.1, h.2⟩

theorem digit?_of_not_isDigit {c : Char} (h : c.isDigit = false) : digit? c = none := by
  refine if_neg fun hc => ?_
  have : c.isDigit = true := by
    simp only [Char.isDigit, Bool.and_eq_true, decide_eq_true_eq]
    exact ⟨hc.1, hc.2⟩
  rw [h] at this
  cases this

theorem le_ofDigitChars (digits : List Char) (start : Nat) :
    start ≤ Nat.ofDigitChars 10 digits start := by
  induction digits generalizing start with
  | nil => exact Nat.le_refl start
  | cons c rest ih =>
    rw [Nat.ofDigitChars_cons]
    exact Nat.le_trans (by omega) (ih _)

/-- The value so far is compared with the limit at each digit. It only grows, so this comes to
comparing the whole value. -/
theorem readDigits_eq_ok_iff {limit start n : Nat} {digits : List Char} (hne : digits ≠ []) :
    readDigits limit start digits = .ok n ↔
      (∀ c ∈ digits, c.isDigit = true) ∧ Nat.ofDigitChars 10 digits start = n ∧ n < limit := by
  induction digits generalizing start with
  | nil => exact absurd rfl hne
  | cons c rest ih =>
    cases hc : c.isDigit with
    | false => simp [readDigits, digit?_of_not_isDigit hc, hc]
    | true =>
      have hgrows := le_ofDigitChars rest (10 * start + (c.toNat - '0'.toNat))
      rw [readDigits, digit?_of_isDigit hc, Nat.ofDigitChars_cons]
      simp only [List.forall_mem_cons, hc, true_and, Nat.mul_comm start 10]
      split
      case isTrue hlt =>
        cases rest with
        | nil => 
          simp only [readDigits, Except.ok.injEq, List.not_mem_nil, false_implies, implies_true,
            true_and, Nat.ofDigitChars_nil]
          exact ⟨fun h => ⟨h, h ▸ hlt⟩, And.left⟩
        | cons d rest => exact ih (List.cons_ne_nil d rest)
      case isFalse hge =>
        refine ⟨nofun, fun h => absurd h.2.2 ?_⟩
        omega

theorem not_digits_plus (rest : List Char) (n : Nat) : ¬ Digits ('+' :: rest) n :=
  fun h => absurd (h.2.1 '+' List.mem_cons_self) (by decide)

theorem denotes_plus {rest : List Char} {n : Nat} :
    Denotes ('+' :: rest) n ↔ Digits rest n := by
  constructor
  · rintro (h | ⟨digits, h, hdigits⟩)
    · exact absurd h (not_digits_plus rest n)
    · cases h
      exact hdigits
  · exact fun h => .inr ⟨rest, rfl, h⟩

theorem denotes_unsigned {word : List Char} {n : Nat} (h : ∀ rest, word = '+' :: rest → False) :
    Denotes word n ↔ Digits word n :=
  or_iff_left fun ⟨rest, hword, _⟩ => h rest hword

theorem readDigits_zero_eq_ok_iff {limit n : Nat} {digits : List Char} (hne : digits ≠ []) :
    readDigits limit 0 digits = .ok n ↔ Digits digits n ∧ n < limit := by
  rw [readDigits_eq_ok_iff hne, Digits, and_assoc, and_assoc, and_iff_right hne]

theorem readList_eq_ok_iff {limit n : Nat} {word : List Char} :
    readList limit word = .ok n ↔ Denotes word n ∧ n < limit := by
  fun_cases readList with
  | case1 => simp [denotes_unsigned, Digits]
  | case2 => simp [denotes_plus, Digits]
  | case3 rest hne => rw [denotes_plus, readDigits_zero_eq_ok_iff (by simpa using hne)]
  | case4 word hne _ hplus =>
    rw [denotes_unsigned hplus, readDigits_zero_eq_ok_iff hne]

/-- The decimal digits of a number denote it. -/
theorem denotes_toDigits (n : Nat) : Denotes (Nat.toDigits 10 n) n :=
  .inl ⟨Nat.toDigits_ne_nil, fun _ h => Nat.isDigit_of_mem_toDigits (by decide) (by decide) h,
    Nat.ofDigitChars_toDigits (by decide) (by decide)⟩

end Numeral

/-! ## Names in any case -/

/-- Letter by letter the name, or its capital. -/
def InAnyCase (word name : List Char) : Prop :=
  List.Forall₂ (fun c l => c = l ∨ c = l.toUpper) word name

theorem toNat_toLower (c : Char) :
    c.toLower.toNat = if 65 ≤ c.toNat ∧ c.toNat ≤ 90 then c.toNat + 32 else c.toNat := by
  have hcapital : 65 ≤ c.toNat ∧ c.toNat ≤ 90 ↔ c.val ≥ 'A'.val ∧ c.val ≤ 'Z'.val := by
    simp [UInt32.le_iff_toNat_le]
  have hshift : ('a'.val - 'A'.val).toNat = 32 := by decide
  delta Char.toLower
  split
  case isTrue h =>
    have hrange := hcapital.mpr h
    rw [if_pos hrange, Char.toNat, UInt32.toNat_add, hshift, Char.toNat_val]
    omega
  case isFalse h => rw [if_neg (hcapital.not.mpr h)]

theorem toNat_toUpper {l : Char} (h : 97 ≤ l.toNat ∧ l.toNat ≤ 122) :
    l.toUpper.toNat + 32 = l.toNat := by
  have hsmall : 'a'.val ≤ l.val ∧ l.val ≤ 'z'.val := by
    simpa [UInt32.le_iff_toNat_le] using h
  have hshift : ('A'.val - 'a'.val).toNat = 4294967264 := by decide
  delta Char.toUpper
  rw [dif_pos hsmall, Char.toNat, UInt32.toNat_add, hshift, Char.toNat_val]
  omega

theorem toLower_eq_iff {c l : Char} (h : l.isLower = true) :
    c.toLower = l ↔ c = l ∨ c = l.toUpper := by
  have hrange : 97 ≤ l.toNat ∧ l.toNat ≤ 122 := by
    delta Char.isLower at h
    simpa [UInt32.le_iff_toNat_le] using h
  have hupper := toNat_toUpper hrange
  rw [← Char.toNat_inj, ← Char.toNat_inj, ← Char.toNat_inj, toNat_toLower]
  split <;> omega

/-- A word has a name in small letters as its small form exactly if it is the name in any case. -/
theorem map_toLower_eq_iff {word name : List Char} (h : ∀ l ∈ name, l.isLower = true) :
    word.map Char.toLower = name ↔ InAnyCase word name := by
  induction name generalizing word with
  | nil => rw [InAnyCase, List.forall₂_nil_right_iff, List.map_eq_nil_iff]
  | cons l name ih =>
    rw [List.forall_mem_cons] at h
    cases word with
    | nil => simp [InAnyCase, List.forall₂_nil_left_iff]
    | cons c word =>
      rw [InAnyCase, List.forall₂_cons, List.map_cons, List.cons.injEq, toLower_eq_iff h.1, ih h.2,
        InAnyCase]

end Fulfilment.Text
