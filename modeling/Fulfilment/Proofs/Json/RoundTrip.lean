import Mathlib.Algebra.Group.Int.Defs
import Fulfilment.Json.Reader
import Fulfilment.Json.Writer
import Fulfilment.Proofs.Text.Numeral

/-! A value written as a text is read back from it.

* `Json.Exact`: values without reals, all of whose integers are read as integers.
* `Json.readText_writeText`, `Json.readNumber_toString`: the same for texts and integers.
* `Json.Exact.readsBack`: reading stops where the value ends.
* `Json.Exact.read?_write`: reading what is written gives the value. -/
namespace Fulfilment.Json

set_option autoImplicit false

/-! ## The writer appends -/

theorem writeChar_append (out : String) (c : Char) : writeChar out c = out ++ writeChar "" c := by
  unfold writeChar
  split
  case h_6 => split <;> simp only [String.push_eq_append, String.append_assoc, String.empty_append]
  all_goals simp

theorem foldl_writeChar_append (out : String) (cs : List Char) :
    cs.foldl writeChar out = out ++ cs.foldl writeChar "" := by
  induction cs generalizing out with
  | nil => simp
  | cons c cs ih =>
    rw [List.foldl_cons, List.foldl_cons, ih, ih (writeChar "" c), writeChar_append out c,
      String.append_assoc]

theorem writeText_append (out s : String) : writeText out s = out ++ writeText "" s := by
  unfold writeText
  rw [foldl_writeChar_append, foldl_writeChar_append ("".push '"')]
  simp only [String.push_eq_append, String.append_assoc, String.empty_append]

mutual

theorem writeOn_append (out : String) : ∀ v : Json, writeOn out v = out ++ write v
  | .null | .bool _ | .integer _ | .real _ => by simp [write, writeOn]
  | .text s => by
    rw [write, writeOn, writeOn, writeText_append]
  | .array items => by
    rw [write, writeOn, writeOn, writeItems_append, writeItems_append ("".push '[')]
    simp only [String.push_eq_append, String.append_assoc, String.empty_append]
  | .object fields => by
    rw [write, writeOn, writeOn, writeFields_append, writeFields_append ("".push '\x7b')]
    simp only [String.push_eq_append, String.append_assoc, String.empty_append]

theorem writeItems_append (out separator : String) : ∀ items : List Json,
    writeItems out separator items = out ++ writeItems "" separator items
  | [] => by simp [writeItems]
  | v :: items => by
    rw [writeItems, writeItems, writeItems_append _ _ items,
      writeItems_append (writeOn ("" ++ separator) v) _ items, writeOn_append (out ++ separator) v,
      writeOn_append ("" ++ separator) v]
    simp only [String.append_assoc, String.empty_append]

theorem writeFields_append (out separator : String) : ∀ fields : List (String × Json),
    writeFields out separator fields = out ++ writeFields "" separator fields
  | [] => by simp [writeFields]
  | (name, v) :: fields => by
    rw [writeFields, writeFields, writeFields_append _ _ fields,
      writeFields_append (writeOn ((writeText ("" ++ separator) name).push ':') v) _ fields,
      writeOn_append ((writeText (out ++ separator) name).push ':') v,
      writeOn_append ((writeText ("" ++ separator) name).push ':') v,
      writeText_append (out ++ separator), writeText_append ("" ++ separator)]
    simp only [String.push_eq_append, String.append_assoc, String.empty_append]

end

/-! ## Texts -/

theorem hexDigit?_hexDigit : ∀ n < 16, Text.Numeral.hexDigit? (hexDigit n) = some n := by decide

theorem readText_writeChar (done : List Char) (c : Char) (rest : List Char) :
    readText done ((writeChar "" c).toList ++ rest) = readText (c :: done) rest := by
  unfold writeChar
  split
  case h_6 hquote hslash _ _ _ =>
    split
    case isTrue hcontrol =>
      have hhigh := hexDigit?_hexDigit (c.toNat / 16) (by omega)
      have hlow := hexDigit?_hexDigit (c.toNat % 16) (by omega)
      have hzero : Text.Numeral.hexDigit? '0' = some 0 := by decide
      have hunit : unit? '0' '0' (hexDigit (c.toNat / 16)) (hexDigit (c.toNat % 16)) =
          some c.toNat := by
        simp [unit?, hhigh, hlow, hzero]
        omega
      have hplain : ¬ (0xD800 ≤ c.toNat ∧ c.toNat < 0xDC00) := by omega
      simp [readText, hunit, hplain]
    case isFalse =>
      have hpushed : ("".push c).toList = [c] := by simp
      rw [hpushed, List.singleton_append, readText]
      · exact hquote
      · intro a b d e rest hc
        exact absurd hc hslash
      · intro d rest hc
        exact absurd hc hslash
  all_goals simp [readText, plainEscape?]

theorem readText_writeText (s : String) (rest : List Char) :
    readText [] ((writeText "" s).toList.tail ++ rest) = some (s, rest) := by
  have hread (cs : List Char) : ∀ done,
      readText done ((cs.foldl writeChar "").toList ++ '"' :: rest) =
        some (String.ofList (done.reverse ++ cs), rest) := by
    induction cs with
    | nil =>
      intro done
      simp [readText]
    | cons c cs ih =>
      intro done
      rw [List.foldl_cons, foldl_writeChar_append, String.toList_append, List.append_assoc,
        readText_writeChar, ih]
      simp
  have htail : (writeText "" s).toList.tail = (s.toList.foldl writeChar "").toList ++ ['"'] := by
    unfold writeText
    rw [foldl_writeChar_append]
    simp
  rw [htail, List.append_assoc, List.singleton_append, hread]
  simp

/-! ## Numbers -/

theorem natOfDigits_toDigits (n : Nat) : natOfDigits (Nat.toDigits 10 n) = n := by
  have hvalue := Nat.ofDigitChars_toDigits (b := 10) (n := n) (by decide) (by decide)
  have hsame : natOfDigits (Nat.toDigits 10 n) = Nat.ofDigitChars 10 (Nat.toDigits 10 n) 0 := by
    unfold natOfDigits Nat.ofDigitChars
    congr 1
    funext m c
    rw [Nat.mul_comm]
    rfl
  rw [hsame, hvalue]

/-- The integers that are read as integers. -/
def Fits (n : Int) : Prop := -2 ^ 63 ≤ n ∧ n < 2 ^ 64

theorem readUnsigned_toDigits (negative : Bool) (n : Nat) :
    readUnsigned negative (Nat.toDigits 10 n) =
      some (if negative then
          if n = 0 ∨ UInt64.size < 2 * n then .real (realOf true n 0) else .integer (-(n : Int))
        else if n < UInt64.size then .integer n else .real (realOf false n 0)) := by
  have hdigit : ∀ c ∈ Nat.toDigits 10 n, c.isDigit = true := fun c hc =>
    Nat.isDigit_of_mem_toDigits (by decide) (by decide) hc
  have htake : (Nat.toDigits 10 n).takeWhile Char.isDigit = Nat.toDigits 10 n :=
    List.takeWhile_eq_self_iff.mpr hdigit
  have hdrop : (Nat.toDigits 10 n).dropWhile Char.isDigit = [] :=
    List.dropWhile_eq_nil_iff.mpr hdigit
  have hne : (Nat.toDigits 10 n).isEmpty = false := by
    simp [Nat.toDigits_ne_nil]
  unfold readUnsigned
  simp only [htake, hdrop, hne, natOfDigits_toDigits, Bool.false_eq_true, if_false]
  split
  · split <;> rfl
  · split <;> rfl

theorem toList_toString_ofNat (n : Nat) : (toString (Int.ofNat n)).toList = Nat.toDigits 10 n := by
  show (Nat.repr n).toList = _
  rw [Nat.repr_eq_ofList_toDigits, String.toList_ofList]

theorem toList_toString_negSucc (n : Nat) :
    (toString (Int.negSucc n)).toList = '-' :: Nat.toDigits 10 (n + 1) := by
  show ("-" ++ Nat.repr (n + 1)).toList = _
  rw [Nat.repr_eq_ofList_toDigits, String.toList_append, String.toList_ofList]
  simp

theorem readNumber_toString {n : Int} (h : Fits n) :
    readNumber (toString n).toList = some (.integer n) := by
  obtain ⟨hlow, hhigh⟩ := h
  cases n with
  | ofNat n =>
    have hfits : n < UInt64.size := by
      have hn : (n : Int) < 2 ^ 64 := hhigh
      have hsize : UInt64.size = 2 ^ 64 := rfl
      omega
    have hread : readNumber (Nat.toDigits 10 n) = readUnsigned false (Nat.toDigits 10 n) := by
      unfold readNumber
      split
      · next cs hcs =>
        have hmem : '-' ∈ Nat.toDigits 10 n := hcs ▸ List.mem_cons_self
        have hminus : Char.isDigit '-' = true :=
          Nat.isDigit_of_mem_toDigits (by decide) (by decide) hmem
        exact absurd hminus (by decide)
      · rfl
    rw [toList_toString_ofNat, hread, readUnsigned_toDigits, if_neg Bool.false_ne_true, if_pos hfits]
    rfl
  | negSucc n =>
    have hfits : ¬ (n + 1 = 0 ∨ UInt64.size < 2 * (n + 1)) := by
      have : UInt64.size = 2 ^ 64 := rfl
      omega
    rw [toList_toString_negSucc, readNumber, readUnsigned_toDigits, if_pos rfl, if_neg hfits]
    rfl

theorem inNumber_toString {n : Int} : ∀ c ∈ (toString n).toList, inNumber c = true := by
  have hdigit {m : Nat} {c : Char} (hc : c ∈ Nat.toDigits 10 m) : inNumber c = true := by
    simp [inNumber, Nat.isDigit_of_mem_toDigits (by decide) (by decide) hc]
  intro c hc
  cases n with
  | ofNat n =>
    rw [toList_toString_ofNat] at hc
    exact hdigit hc
  | negSucc n =>
    rw [toList_toString_negSucc] at hc
    obtain rfl | hc := List.mem_cons.mp hc
    · decide
    · exact hdigit hc

theorem head_toString (n : Int) : ∃ c cs, (toString n).toList = c :: cs ∧ inNumber c = true := by
  have hne : (toString n).toList ≠ [] := by
    cases n with
    | ofNat n =>
      rw [toList_toString_ofNat]
      exact Nat.toDigits_ne_nil
    | negSucc n =>
      rw [toList_toString_negSucc]
      exact List.cons_ne_nil _ _
  obtain ⟨c, cs, hcs⟩ := List.exists_cons_of_ne_nil hne
  exact ⟨c, cs, hcs, inNumber_toString c (hcs ▸ List.mem_cons_self)⟩

/-! ## Values -/

theorem skipBlank_self {c : Char} (hc : ¬ (c = ' ' ∨ c = '\t' ∨ c = '\n' ∨ c = '\r'))
    (rest : List Char) : skipBlank (c :: rest) = c :: rest := by
  rw [skipBlank, if_neg hc]

theorem skipBlank_of_inNumber {c : Char} (hc : inNumber c = true) (cs : List Char) :
    skipBlank (c :: cs) = c :: cs := by
  unfold skipBlank
  rw [if_neg]
  rintro (rfl | rfl | rfl | rfl) <;> exact absurd hc (by decide)

/-- The text goes on with something that is not part of a number. -/
def Breaks (rest : List Char) : Prop := ∀ c ∈ rest.head?, inNumber c = false

theorem readValue_number (depth : Nat) {c : Char} (hc : inNumber c = true) (cs : List Char) :
    readValue (depth + 1) (c :: cs) =
      (readNumber ((c :: cs).takeWhile inNumber)).map fun v => (v, (c :: cs).dropWhile inNumber) := by
  have hother {d : Char} {rest : List Char} (hd : inNumber d = false) : c :: cs ≠ d :: rest := by
    intro h
    rw [(List.cons.inj h).1, hd] at hc
    cases hc
  rw [readValue, skipBlank_of_inNumber hc]
  split
  case h_7 => rfl
  all_goals next h => exact absurd h (hother (by decide))

theorem takeWhile_inNumber {word rest : List Char} (hw : ∀ c ∈ word, inNumber c = true)
    (hr : Breaks rest) : (word ++ rest).takeWhile inNumber = word := by
  rw [List.takeWhile_append_of_pos hw]
  cases rest with
  | nil => simp
  | cons c rest => simp [hr c rfl]

theorem dropWhile_inNumber {word rest : List Char} (hw : ∀ c ∈ word, inNumber c = true)
    (hr : Breaks rest) : (word ++ rest).dropWhile inNumber = rest := by
  rw [List.dropWhile_append_of_pos hw]
  cases rest with
  | nil => simp
  | cons c rest => simp [hr c rfl]

theorem readValue_toString (depth : Nat) {n : Int} (h : Fits n) {rest : List Char} (hr : Breaks rest) :
    readValue (depth + 1) ((toString n).toList ++ rest) = some (.integer n, rest) := by
  have hchars := inNumber_toString (n := n)
  have htake := takeWhile_inNumber hchars hr
  have hdrop := dropWhile_inNumber hchars hr
  obtain ⟨c, cs, hword, hc⟩ := head_toString n
  rw [hword] at htake hdrop
  rw [hword, List.cons_append, readValue_number depth hc, ← List.cons_append, htake, hdrop, ← hword,
    readNumber_toString h]
  rfl

/-! ## The texts of values -/

/-- Values without reals, whose integers are read as integers. -/
inductive Exact : Json → Prop
  | null : Exact .null
  | bool (b : Bool) : Exact (.bool b)
  | integer (n : Int) (h : Fits n) : Exact (.integer n)
  | text (s : String) : Exact (.text s)
  | array (items : List Json) (h : ∀ v ∈ items, Exact v) : Exact (.array items)
  | object (fields : List (String × Json)) (h : ∀ f ∈ fields, Exact f.2) : Exact (.object fields)

theorem toList_write_array (items : List Json) :
    (write (.array items)).toList = '[' :: ((writeItems "" "" items).toList ++ [']']) := by
  rw [write, writeOn, writeItems_append]
  simp

theorem toList_write_object (fields : List (String × Json)) :
    (write (.object fields)).toList = '\x7b' :: ((writeFields "" "" fields).toList ++ ['\x7d']) := by
  rw [write, writeOn, writeFields_append]
  simp

theorem toList_writeItems_cons (v : Json) (items : List Json) :
    (writeItems "" "" (v :: items)).toList =
      (write v).toList ++ (writeItems "" "," items).toList := by
  rw [writeItems, writeItems_append, writeOn_append]
  simp

/-- Before every item but the first stands a comma. -/
theorem toList_writeItems_comma (v : Json) (items : List Json) :
    (writeItems "" "," (v :: items)).toList = ',' :: (writeItems "" "" (v :: items)).toList := by
  rw [writeItems, writeItems, writeItems_append, writeItems_append (writeOn ("" ++ "") v),
    writeOn_append, writeOn_append ("" ++ "")]
  simp

theorem toList_writeText (s : String) :
    (writeText "" s).toList = '"' :: (writeText "" s).toList.tail := by
  unfold writeText
  rw [foldl_writeChar_append]
  simp

theorem toList_writeFields_cons (name : String) (v : Json) (fields : List (String × Json)) :
    (writeFields "" "" ((name, v) :: fields)).toList =
      '"' :: ((writeText "" name).toList.tail ++
        ':' :: ((write v).toList ++ (writeFields "" "," fields).toList)) := by
  rw [writeFields, writeFields_append, writeOn_append, writeText_append]
  simp only [String.toList_append, String.toList_push]
  rw [toList_writeText name]
  simp

/-- Before every field but the first stands a comma. -/
theorem toList_writeFields_comma (f : String × Json) (fields : List (String × Json)) :
    (writeFields "" "," (f :: fields)).toList = ',' :: (writeFields "" "" (f :: fields)).toList := by
  obtain ⟨name, v⟩ := f
  rw [writeFields, writeFields, writeFields_append, writeFields_append (writeOn _ v),
    writeOn_append, writeOn_append ((writeText ("" ++ "") name).push ':'), writeText_append,
    writeText_append ("" ++ "")]
  simp

/-- A value starts neither with a blank nor with the end of an array. -/
theorem head_write {v : Json} (h : Exact v) : ∃ c cs, (write v).toList = c :: cs ∧
    (∀ rest, skipBlank (c :: rest) = c :: rest) ∧ c ≠ ']' := by
  have starts {c : Char} {cs : List Char} (hv : (write v).toList = c :: cs)
      (hblank : ∀ rest, skipBlank (c :: rest) = c :: rest) (hc : c ≠ ']') :
      ∃ c cs, (write v).toList = c :: cs ∧
        (∀ rest, skipBlank (c :: rest) = c :: rest) ∧ c ≠ ']' :=
    ⟨c, cs, hv, hblank, hc⟩
  cases h with
  | null => exact starts rfl (fun _ => rfl) (by decide)
  | bool b => cases b <;> exact starts rfl (fun _ => rfl) (by decide)
  | integer n h =>
    have hword : (write (.integer n)).toList = (toString n).toList := by simp [write, writeOn]
    obtain ⟨c, cs, hcs, hc⟩ := head_toString n
    refine starts (hword.trans hcs) (skipBlank_of_inNumber hc) ?_
    rintro rfl
    exact absurd hc (by decide)
  | text s => exact starts (toList_writeText s) (fun _ => rfl) (by decide)
  | array items _ => exact starts (toList_write_array items) (fun _ => rfl) (by decide)
  | object fields _ => exact starts (toList_write_object fields) (fun _ => rfl) (by decide)

/-! ## Reading back -/

/-- The value is read from its text whatever follows, if the bound on depth allows as much as the
length of the text. -/
def ReadsBack (v : Json) : Prop :=
  ∀ depth rest, (write v).toList.length ≤ depth → Breaks rest →
    readValue depth ((write v).toList ++ rest) = some (v, rest)

theorem breaks_cons {c : Char} (hc : inNumber c = false) (rest : List Char) : Breaks (c :: rest) := by
  intro d hd
  cases hd
  exact hc

theorem ReadsBack.of_cons {v : Json} {c : Char} {cs : List Char} (hword : (write v).toList = c :: cs)
    (h : ∀ depth rest, cs.length ≤ depth → Breaks rest →
      readValue (depth + 1) (c :: (cs ++ rest)) = some (v, rest)) : ReadsBack v := by
  intro depth rest hdepth hrest
  rw [hword] at hdepth ⊢
  rw [List.length_cons] at hdepth
  obtain ⟨depth, rfl⟩ := Nat.exists_eq_succ_of_ne_zero (n := depth) (by omega)
  exact h depth rest (by omega) hrest

section Separators

variable {v : Json} {depth : Nat}

theorem readItems_comma (h : ReadsBack v) (hdepth : (write v).toList.length ≤ depth)
    (done : List Json) (rest : List Char) :
    readItems (depth + 1) done ((write v).toList ++ ',' :: rest) =
      readItems depth (v :: done) rest := by
  have hv := h depth (',' :: rest) hdepth (breaks_cons (by decide) rest)
  rw [readItems, hv]
  simp only []
  rw [skipBlank_self (by decide)]
  simp

theorem readItems_bracket (h : ReadsBack v) (hdepth : (write v).toList.length ≤ depth)
    (done : List Json) (rest : List Char) :
    readItems (depth + 1) done ((write v).toList ++ ']' :: rest) =
      some (.array (v :: done).reverse, rest) := by
  have hv := h depth (']' :: rest) hdepth (breaks_cons (by decide) rest)
  rw [readItems, hv]
  simp only []
  rw [skipBlank_self (by decide)]
  simp

/-- A field up to its value. -/
theorem readFields_name (name : String) (depth : Nat) (done : List (String × Json))
    (rest : List Char) :
    readFields (depth + 1) done ('"' :: ((writeText "" name).toList.tail ++ ':' :: rest)) =
      match readValue depth rest with
      | none => none
      | some (v, rest) =>
        match skipBlank rest with
        | ',' :: rest => readFields depth ((name, v) :: done) rest
        | '\x7d' :: rest => some (.object ((name, v) :: done).reverse, rest)
        | _ => none := by
  rw [readFields, skipBlank_self (by decide)]
  simp only [readText_writeText]
  rw [skipBlank_self (by decide)]
  rfl

theorem readFields_comma (name : String) (h : ReadsBack v)
    (hdepth : (write v).toList.length ≤ depth) (done : List (String × Json)) (rest : List Char) :
    readFields (depth + 1) done ('"' :: ((writeText "" name).toList.tail ++
        ':' :: ((write v).toList ++ ',' :: rest))) =
      readFields depth ((name, v) :: done) rest := by
  have hv := h depth (',' :: rest) hdepth (breaks_cons (by decide) rest)
  rw [readFields_name, hv]
  simp only []
  rw [skipBlank_self (by decide)]
  simp

theorem readFields_brace (name : String) (h : ReadsBack v)
    (hdepth : (write v).toList.length ≤ depth) (done : List (String × Json)) (rest : List Char) :
    readFields (depth + 1) done ('"' :: ((writeText "" name).toList.tail ++
        ':' :: ((write v).toList ++ '\x7d' :: rest))) =
      some (.object ((name, v) :: done).reverse, rest) := by
  have hv := h depth ('\x7d' :: rest) hdepth (breaks_cons (by decide) rest)
  rw [readFields_name, hv]
  simp only []
  rw [skipBlank_self (by decide)]
  simp

end Separators

theorem readItems_write {items : List Json} {v : Json} (h : ∀ x ∈ v :: items, ReadsBack x)
    (depth : Nat) (done : List Json) (rest : List Char)
    (hdepth : (writeItems "" "" (v :: items)).toList.length < depth) :
    readItems depth done ((writeItems "" "" (v :: items)).toList ++ ']' :: rest) =
      some (.array (done.reverse ++ v :: items), rest) := by
  have hv : ReadsBack v := h v List.mem_cons_self
  obtain ⟨depth, rfl⟩ := Nat.exists_eq_succ_of_ne_zero (Nat.ne_of_gt (Nat.zero_lt_of_lt hdepth))
  induction items generalizing v depth done with
  | nil =>
    have hlast : (writeItems "" "" [v]).toList = (write v).toList := by
      rw [toList_writeItems_cons, writeItems]
      simp
    rw [hlast] at hdepth ⊢
    rw [readItems_bracket hv (by omega), List.reverse_cons]
  | cons w items ih =>
    rw [toList_writeItems_cons, toList_writeItems_comma] at hdepth ⊢
    simp only [List.length_append, List.length_cons] at hdepth
    obtain ⟨depth, rfl⟩ := Nat.exists_eq_succ_of_ne_zero (n := depth) (by omega)
    have hitems : ∀ x ∈ w :: items, ReadsBack x := fun x hx => h x (List.mem_cons_of_mem v hx)
    have hw := ih hitems (v :: done) (hitems w List.mem_cons_self) depth (by omega)
    rw [List.append_assoc, List.cons_append, readItems_comma hv (by omega), hw]
    simp

theorem readFields_write {fields : List (String × Json)} {f : String × Json}
    (h : ∀ x ∈ f :: fields, ReadsBack x.2) (depth : Nat) (done : List (String × Json))
    (rest : List Char) (hdepth : (writeFields "" "" (f :: fields)).toList.length < depth) :
    readFields depth done ((writeFields "" "" (f :: fields)).toList ++ '\x7d' :: rest) =
      some (.object (done.reverse ++ f :: fields), rest) := by
  have hv : ReadsBack f.2 := h f List.mem_cons_self
  obtain ⟨depth, rfl⟩ := Nat.exists_eq_succ_of_ne_zero (Nat.ne_of_gt (Nat.zero_lt_of_lt hdepth))
  induction fields generalizing f depth done with
  | nil =>
    obtain ⟨name, v⟩ := f
    rw [toList_writeFields_cons, writeFields] at hdepth ⊢
    simp only [List.length_append, List.length_cons, String.toList_empty, List.length_nil] at hdepth
    simp only [List.cons_append, List.append_assoc, String.toList_empty, List.nil_append]
    have hvalue : (write v).toList.length ≤ depth := by omega
    rw [readFields_brace name hv hvalue, List.reverse_cons]
  | cons g fields ih =>
    obtain ⟨name, v⟩ := f
    rw [toList_writeFields_cons, toList_writeFields_comma] at hdepth ⊢
    simp only [List.length_append, List.length_cons] at hdepth
    obtain ⟨depth, rfl⟩ := Nat.exists_eq_succ_of_ne_zero (n := depth) (by omega)
    have hfields : ∀ x ∈ g :: fields, ReadsBack x.2 := fun x hx => h x (List.mem_cons_of_mem _ hx)
    have hg := ih hfields ((name, v) :: done) (hfields g List.mem_cons_self) depth (by omega)
    simp only [List.cons_append, List.append_assoc]
    have hvalue : (write v).toList.length ≤ depth + 1 := by omega
    rw [readFields_comma name hv hvalue, hg]
    simp

theorem readsBack_array {items : List Json} (hitems : ∀ v ∈ items, Exact v)
    (h : ∀ v ∈ items, ReadsBack v) : ReadsBack (.array items) := by
  refine ReadsBack.of_cons (toList_write_array items) fun depth rest hdepth _ => ?_
  rw [List.length_append, List.length_singleton] at hdepth
  rw [readValue, skipBlank_self (by decide), List.append_assoc, List.singleton_append]
  simp only []
  cases items with
  | nil => simp [writeItems, skipBlank]
  | cons v items =>
    have hread := readItems_write h depth [] rest (by omega)
    obtain ⟨c, cs, hcs, hblank, hc⟩ := head_write (hitems v List.mem_cons_self)
    rw [toList_writeItems_cons, hcs] at hread ⊢
    simp only [List.cons_append, hblank] at hread ⊢
    split
    · next hend => exact absurd (List.cons.inj hend).1 hc
    · exact hread

theorem readsBack_object {fields : List (String × Json)} (h : ∀ f ∈ fields, ReadsBack f.2) :
    ReadsBack (.object fields) := by
  refine ReadsBack.of_cons (toList_write_object fields) fun depth rest hdepth _ => ?_
  rw [List.length_append, List.length_singleton] at hdepth
  rw [readValue, skipBlank_self (by decide), List.append_assoc, List.singleton_append]
  simp only []
  cases fields with
  | nil => simp [writeFields, skipBlank]
  | cons f fields =>
    have hread := readFields_write h depth [] rest (by omega)
    rw [toList_writeFields_cons, List.cons_append] at hread ⊢
    rw [skipBlank_self (by decide)]
    exact hread

theorem Exact.readsBack {v : Json} (h : Exact v) : ReadsBack v := by
  induction h with
  | null =>
    have hword : (write .null).toList = 'n' :: ['u', 'l', 'l'] := rfl
    refine ReadsBack.of_cons hword fun depth rest _ _ => ?_
    rw [readValue, skipBlank_self (by decide)]
    simp
  | bool b =>
    cases b with
    | true =>
      have hword : (write (.bool true)).toList = 't' :: ['r', 'u', 'e'] := rfl
      refine ReadsBack.of_cons hword fun depth rest _ _ => ?_
      rw [readValue, skipBlank_self (by decide)]
      simp
    | false =>
      have hword : (write (.bool false)).toList = 'f' :: ['a', 'l', 's', 'e'] := rfl
      refine ReadsBack.of_cons hword fun depth rest _ _ => ?_
      rw [readValue, skipBlank_self (by decide)]
      simp
  | integer n h =>
    have hword : (write (.integer n)).toList = (toString n).toList := by simp [write, writeOn]
    obtain ⟨c, cs, hcs, -⟩ := head_toString n
    refine ReadsBack.of_cons (hword.trans hcs) fun depth rest _ hrest => ?_
    rw [← List.cons_append, ← hcs]
    exact readValue_toString depth h hrest
  | text s =>
    refine ReadsBack.of_cons (toList_writeText s) fun depth rest _ _ => ?_
    rw [readValue, skipBlank_self (by decide)]
    simp [readText_writeText]
  | array items hitems ih => exact readsBack_array hitems ih
  | object fields _ ih => exact readsBack_object ih

theorem Exact.read?_write {v : Json} (h : Exact v) : read? (write v) = some v := by
  have hread := h.readsBack (2 * (write v).toList.length + 2) [] (by omega) (by simp [Breaks])
  rw [List.append_nil] at hread
  unfold read?
  simp [hread, skipBlank]

end Fulfilment.Json
