/-!
# Decimal numbers

`value` is the number that a run of decimal digits denotes, `digits` the shortest text of a number. `readUpTo` reads a
text against a bound without ever holding a number above it; it accepts exactly the digit texts whose value keeps the
bound (`readUpTo_eq_some_iff`), so leading zeros never count and a long text never wraps round.
-/

namespace Peering.Text.Decimal

/-- The shortest decimal text of `n`. -/
def digits (n : Nat) : List Char := Nat.toDigits 10 n

/-- The number a text of decimal digits denotes. -/
def value (s : List Char) : Nat := Nat.ofDigitChars 10 s 0

/-- A nonempty text of ASCII digits. -/
def IsNumeral (s : List Char) : Prop := s ≠ [] ∧ ∀ c ∈ s, c.isDigit = true

instance (s : List Char) : Decidable (IsNumeral s) := inferInstanceAs (Decidable (_ ∧ _))

/-- Reads further digits after the number `n`, as long as the number keeps the bound. -/
def extendUpTo (bound n : Nat) : List Char → Option Nat
  | [] => some n
  | c :: r =>
    let m := 10 * n + (c.toNat - '0'.toNat)
    if c.isDigit && m ≤ bound then extendUpTo bound m r else none

/-- Reads a nonempty text of digits that denotes at most `bound`. -/
def readUpTo (bound : Nat) : List Char → Option Nat
  | [] => none
  | s => extendUpTo bound 0 s

/-! ## What is read -/

theorem le_ofDigitChars (s : List Char) (n : Nat) : n ≤ Nat.ofDigitChars 10 s n := by
  induction s generalizing n with
  | nil => simp [Nat.ofDigitChars]
  | cons c r ih =>
    simp only [Nat.ofDigitChars, List.foldl_cons] at ih ⊢
    exact Nat.le_trans (by omega) (ih _)

theorem extendUpTo_eq_some_iff {bound n m : Nat} {s : List Char} (hn : n ≤ bound) :
    extendUpTo bound n s = some m ↔
      (∀ c ∈ s, c.isDigit = true) ∧ Nat.ofDigitChars 10 s n = m ∧ m ≤ bound := by
  induction s generalizing n with
  | nil => simp [extendUpTo, Nat.ofDigitChars]; omega
  | cons c r ih =>
    have hle := le_ofDigitChars r (10 * n + (c.toNat - '0'.toNat))
    have hcons : Nat.ofDigitChars 10 (c :: r) n
        = Nat.ofDigitChars 10 r (10 * n + (c.toNat - '0'.toNat)) := rfl
    rw [hcons]
    simp only [extendUpTo, Bool.and_eq_true, decide_eq_true_eq, List.mem_cons, forall_eq_or_imp]
    split
    · rename_i h
      rw [ih h.2]
      simp [h.1]
    · rename_i h
      simp only [reduceCtorEq, false_iff]
      rintro ⟨⟨hc, -⟩, hm, hb⟩
      exact h ⟨hc, by omega⟩

/-- Reading accepts exactly the numerals that keep the bound, with their value. -/
theorem readUpTo_eq_some_iff {bound n : Nat} {s : List Char} :
    readUpTo bound s = some n ↔ IsNumeral s ∧ value s = n ∧ n ≤ bound := by
  cases s with
  | nil => simp [readUpTo, IsNumeral]
  | cons c r =>
    rw [show readUpTo bound (c :: r) = extendUpTo bound 0 (c :: r) from rfl,
      extendUpTo_eq_some_iff (Nat.zero_le _)]
    simp [IsNumeral, value]

theorem isNumeral_digits (n : Nat) : IsNumeral (digits n) :=
  ⟨Nat.toDigits_ne_nil, fun _ h => Nat.isDigit_of_mem_toDigits (by decide) (by decide) h⟩

theorem value_digits (n : Nat) : value (digits n) = n := Nat.ofDigitChars_ten_toDigits

/-- A number within the bound is read back from its text. -/
theorem readUpTo_digits {bound n : Nat} (h : n ≤ bound) : readUpTo bound (digits n) = some n :=
  readUpTo_eq_some_iff.2 ⟨isNumeral_digits n, value_digits n, h⟩

end Peering.Text.Decimal
