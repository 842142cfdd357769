import Mathlib.Data.List.Induction
import Mathlib.Data.Nat.Digits.Defs
import Peering.Port

/-!
# Numbers of ports

A digit text may be of any length, a port has 16 bits. The number that a text denotes is the sum of its digits, each
times the power of ten for its place (`Decimal.placeValue`). It is said apart from how texts are read.

* `Decimal.value_eq_placeValue`: counting up from the left gives the same number;
* `Decimal.placeValue_zeros_append`: zeros in front do not count;
* `Port.appendDigit?_eq_some_iff`, `Port.foldlM_appendDigit?_eq_some_iff`: a count in 16 bits that stops where a product
  or a sum would wrap round is exact, at each digit and over a whole text;
* `Port.ofChars?_eq_foldlM`: reading a port is that count.

`Port.ofString?_exact` states for all texts what is read.
-/

namespace Peering

namespace Text.Decimal

/-! ## Place values -/

/-- The sum of the digits, each times the power of ten for its place. -/
def placeValue (s : List Char) : Nat := Nat.ofDigits 10 (s.reverse.map fun c => c.toNat - '0'.toNat)

theorem placeValue_concat (s : List Char) (c : Char) :
    placeValue (s ++ [c]) = 10 * placeValue s + (c.toNat - '0'.toNat) := by
  rw [placeValue, List.reverse_append, List.reverse_singleton, List.singleton_append, List.map_cons, Nat.ofDigits_cons,
    Nat.add_comm]
  rfl

/-- The last digit is the one of the lowest place and the one that is counted last. -/
theorem value_eq_placeValue (s : List Char) : value s = placeValue s := by
  induction s using List.reverseRecOn with
  | nil => rfl
  | append_singleton s c ih =>
    rw [placeValue_concat, ← ih, value, Nat.ofDigitChars_append, Nat.ofDigitChars_cons, Nat.ofDigitChars_nil]
    rfl

theorem placeValue_zeros_append (k : Nat) (s : List Char) : placeValue (List.replicate k '0' ++ s) = placeValue s := by
  rw [← value_eq_placeValue, ← value_eq_placeValue, value, Nat.ofDigitChars_append, Nat.ofDigitChars_replicate_zero]
  rfl

/-! ## Numerals -/

theorem isDigit_iff {c : Char} : c.isDigit = true ↔ '0' ≤ c ∧ c ≤ '9' := by
  rw [Char.isDigit, Bool.and_eq_true, decide_eq_true_eq, decide_eq_true_eq]
  rfl

theorem isNumeral_toList_iff {s : String} : IsNumeral s.toList ↔ s ≠ "" ∧ ∀ c ∈ s.toList, '0' ≤ c ∧ c ≤ '9' := by
  simp [IsNumeral, isDigit_iff]

theorem isNumeral_zeros_append {k : Nat} {s : List Char} (hs : s ≠ []) :
    IsNumeral (List.replicate k '0' ++ s) ↔ IsNumeral s := by
  simp only [IsNumeral, List.mem_append, List.mem_replicate]
  constructor
  · rintro ⟨-, h⟩
    exact ⟨hs, fun c hc => h c (.inr hc)⟩
  · rintro ⟨-, h⟩
    refine ⟨by simp [hs], ?_⟩
    rintro c (⟨-, rfl⟩ | hc)
    · rfl
    · exact h c hc

end Text.Decimal

namespace Port

open Text

/-! ## Counting in 16 bits -/

/-- The result of an operation, unless it has wrapped round. -/
def unlessWraps (wraps : Bool) (r : Port) : Option Port := if wraps then none else some r

/-- The product, unless it wraps round. -/
def checkedMul (p q : Port) : Option Port := unlessWraps (p.toBitVec.umulOverflow q.toBitVec) (p * q)

/-- The sum, unless it wraps round. -/
def checkedAdd (p q : Port) : Option Port := unlessWraps (p.toBitVec.uaddOverflow q.toBitVec) (p + q)

/-- The number `p` with one more digit after it, unless it wraps round. -/
def appendDigit? (p : Port) (c : Char) : Option Port := do
  let tens ← checkedMul p 10
  checkedAdd tens (.ofNat (c.toNat - '0'.toNat))

/-- Where wrapping round is detected, what is given is the exact number `n`. -/
theorem unlessWraps_eq_some_iff {wraps : Bool} {n : Nat} {p r : Port} (hwraps : wraps = true → 65536 ≤ n)
    (hexact : ¬wraps = true → p.toNat = n) : unlessWraps wraps p = some r ↔ n = r.toNat := by
  have hr : r.toNat < 65536 := r.toNat_lt
  rw [unlessWraps]
  split
  · rename_i h
    have hlarge := hwraps h
    simp only [reduceCtorEq, false_iff]
    omega
  · rename_i h
    rw [Option.some_inj, ← UInt16.toNat_inj, hexact h]

theorem checkedMul_eq_some_iff {p q r : Port} : checkedMul p q = some r ↔ p.toNat * q.toNat = r.toNat :=
  unlessWraps_eq_some_iff of_decide_eq_true BitVec.toNat_mul_of_not_umulOverflow

theorem checkedAdd_eq_some_iff {p q r : Port} : checkedAdd p q = some r ↔ p.toNat + q.toNat = r.toNat :=
  unlessWraps_eq_some_iff of_decide_eq_true BitVec.toNat_add_of_not_uaddOverflow

/-- A number of 16 bits is that of a port. -/
theorem exists_toNat_eq {n : Nat} (h : n < 65536) : ∃ p : Port, p.toNat = n :=
  ⟨.ofNat n, UInt16.toNat_ofNat_of_lt' h⟩

/-- One digit is counted exactly, or the number does not fit. -/
theorem appendDigit?_eq_some_iff {p q : Port} {c : Char} (hc : c.isDigit = true) :
    appendDigit? p c = some q ↔ 10 * p.toNat + (c.toNat - '0'.toNat) = q.toNat := by
  have hq : q.toNat < 65536 := q.toNat_lt
  have hdigit : c.toNat - '0'.toNat < 65536 :=
    Nat.lt_of_le_of_lt (Nat.le_trans (Nat.sub_le _ _) (Char.isDigit_iff_toNat.1 hc).2) (by decide)
  have hword : (UInt16.ofNat (c.toNat - '0'.toNat)).toNat = c.toNat - '0'.toNat := UInt16.toNat_ofNat_of_lt' hdigit
  have hten : (10 : Port).toNat = 10 := rfl
  simp only [appendDigit?, Option.bind_eq_bind, Option.bind_eq_some_iff, checkedMul_eq_some_iff,
    checkedAdd_eq_some_iff, hword, hten]
  constructor
  · rintro ⟨tens, htens, hsum⟩
    omega
  · intro hsum
    obtain ⟨tens, htens⟩ := exists_toNat_eq (n := 10 * p.toNat) (by omega)
    exact ⟨tens, by omega, by omega⟩

/-- The digits of a text of any length are counted exactly after the number `p`, or the number does not fit. -/
theorem foldlM_appendDigit?_eq_some_iff {s : List Char} (hs : ∀ c ∈ s, c.isDigit = true) {p q : Port} :
    s.foldlM appendDigit? p = some q ↔ Nat.ofDigitChars 10 s p.toNat = q.toNat := by
  have hq : q.toNat < 65536 := q.toNat_lt
  induction s generalizing p with
  | nil => simp [UInt16.toNat_inj]
  | cons c s ih =>
    obtain ⟨hc, hs⟩ := List.forall_mem_cons.1 hs
    simp only [List.foldlM_cons, Option.bind_eq_bind, Option.bind_eq_some_iff, appendDigit?_eq_some_iff hc, ih hs,
      Nat.ofDigitChars_cons]
    constructor
    · rintro ⟨r, hr, hrest⟩
      rw [hr, hrest]
    · intro hvalue
      -- Further digits make the number no smaller, so it fits already.
      have hgrows := Decimal.le_ofDigitChars s (10 * p.toNat + (c.toNat - '0'.toNat))
      obtain ⟨r, hr⟩ := exists_toNat_eq (n := 10 * p.toNat + (c.toNat - '0'.toNat)) (by omega)
      exact ⟨r, hr.symm, hr ▸ hvalue⟩

/-- A port is read by counting the digits of a numeral in 16 bits. -/
theorem ofChars?_eq_foldlM (s : List Char) :
    ofChars? s = if Decimal.IsNumeral s then s.foldlM appendDigit? 0 else none := by
  refine Option.ext fun p => ?_
  rw [ofChars?_eq_some_iff]
  split
  · rename_i hs
    rw [foldlM_appendDigit?_eq_some_iff hs.2]
    simp only [hs, true_and]
    rfl
  · rename_i hs
    simp [hs]

/-! ## What is read -/

theorem map_toNat_ofChars?_eq_some_iff {s : List Char} {n : Nat} :
    (ofChars? s).map UInt16.toNat = some n ↔ Decimal.IsNumeral s ∧ Decimal.placeValue s = n ∧ n ≤ 65535 := by
  simp only [Option.map_eq_some_iff, ofChars?_eq_some_iff, Decimal.value_eq_placeValue]
  constructor
  · rintro ⟨p, ⟨hs, hvalue⟩, rfl⟩
    exact ⟨hs, hvalue, Nat.le_of_lt_succ p.toNat_lt⟩
  · rintro ⟨hs, hvalue, hn⟩
    obtain ⟨p, hp⟩ := exists_toNat_eq (Nat.lt_succ_of_le hn)
    exact ⟨p, ⟨hs, hvalue.trans hp.symm⟩, hp⟩

theorem ofChars?_eq_none_of_lt {s : List Char} (h : 65535 < Decimal.placeValue s) : ofChars? s = none := by
  refine Option.eq_none_iff_forall_ne_some.2 fun p hp => ?_
  obtain ⟨-, hvalue⟩ := ofChars?_eq_some_iff.1 hp
  have hlt : p.toNat < 65536 := p.toNat_lt
  rw [Decimal.value_eq_placeValue] at hvalue
  omega

/-- Zeros in front of a text make no difference. -/
theorem ofChars?_zeros_append {s : List Char} (hs : s ≠ []) (k : Nat) :
    ofChars? (List.replicate k '0' ++ s) = ofChars? s := by
  refine Option.ext fun p => ?_
  simp only [ofChars?_eq_some_iff, Decimal.value_eq_placeValue, Decimal.isNumeral_zeros_append hs,
    Decimal.placeValue_zeros_append]

/-- A text of any length is read as a port just when it is a nonempty run of ASCII digits that denotes a number of at
most 65535, and the port is this number. A larger number is refused and not reduced. Zeros in front make no difference,
also in front of the text of a port. All this holds although the digits are counted in 16 bits. -/
theorem ofString?_exact (s : String) :
    (∀ n, (ofString? s).map UInt16.toNat = some n ↔
      (s ≠ "" ∧ ∀ c ∈ s.toList, '0' ≤ c ∧ c ≤ '9') ∧ Decimal.placeValue s.toList = n ∧ n ≤ 65535) ∧
    (65535 < Decimal.placeValue s.toList → ofString? s = none) ∧
    (s ≠ "" → ∀ k, ofString? (String.ofList (List.replicate k '0') ++ s) = ofString? s) ∧
    (∀ p k, ofString? (String.ofList (List.replicate k '0') ++ String.ofList (chars p)) = some p) ∧
    ofString? s = if Decimal.IsNumeral s.toList then s.toList.foldlM appendDigit? 0 else none := by
  have hzeros (k : Nat) (t : String) : (String.ofList (List.replicate k '0') ++ t).toList =
      List.replicate k '0' ++ t.toList := by simp
  refine ⟨fun n => ?_, ofChars?_eq_none_of_lt, fun hs k => ?_, fun p k => ?_, ofChars?_eq_foldlM _⟩
  · rw [← Decimal.isNumeral_toList_iff]
    exact map_toNat_ofChars?_eq_some_iff
  · rw [ofString?, hzeros]
    exact ofChars?_zeros_append (by simpa using hs) k
  · have hdigits : chars p ≠ [] := (Decimal.isNumeral_digits _).1
    rw [ofString?, hzeros, String.toList_ofList, ofChars?_zeros_append hdigits, ofChars?_chars]

/-- The largest port is read behind zeros. The number after it is refused, and does not become port 0. -/
theorem ofString?_exact_largest :
    (ofString? "0065535").map UInt16.toNat = some 65535 ∧ ofString? "65536" = none ∧
      ofString? (String.ofList (List.replicate 300 '0') ++ "1194") = ofString? "1194" := by
  refine ⟨((ofString?_exact "0065535").1 65535).2 ⟨?_, by decide, by decide⟩, ?_, ?_⟩
  · exact Decimal.isNumeral_toList_iff.1 ⟨nofun, List.all_eq_true.1 rfl⟩
  · exact (ofString?_exact "65536").2.1 (by decide)
  · exact (ofString?_exact "1194").2.2.1 (by decide) 300

end Port

end Peering
