/-!
# Splitting text at a character

`splitFirst` cuts a text at the first occurrence of a character and `splitLast` at the last one. The cut is
characterised by what surrounds it: `splitFirst_eq_some_iff`, `splitLast_eq_some_iff`; and it fails exactly where the
character is absent: `splitFirst_eq_none_iff`, `splitLast_eq_none_iff`.
-/

namespace Peering.Text

/-- The texts before and after the first `c`. -/
def splitFirst (c : Char) : List Char → Option (List Char × List Char)
  | [] => none
  | d :: r =>
    if d = c then some ([], r)
    else
      match splitFirst c r with
      | some (a, b) => some (d :: a, b)
      | none => none

/-- The texts before and after the last `c`. -/
def splitLast (c : Char) : List Char → Option (List Char × List Char)
  | [] => none
  | d :: r =>
    match splitLast c r with
    | some (a, b) => some (d :: a, b)
    | none => if d = c then some ([], r) else none

/-- There is no first `c` exactly in a text without `c`. -/
theorem splitFirst_eq_none_iff {c : Char} {s : List Char} : splitFirst c s = none ↔ c ∉ s := by
  induction s with
  | nil => simp [splitFirst]
  | cons d r ih =>
    by_cases h : d = c
    · simp [splitFirst, h]
    · cases hs : splitFirst c r with
      | none => simp [splitFirst, h, hs, ih.1 hs, Ne.symm h]
      | some p =>
        have : c ∈ r := by
          refine Decidable.byContradiction fun hn => ?_
          simp [ih.2 hn] at hs
        simp [splitFirst, h, hs, this]

/-- The first cut gives the text back and leaves no `c` before it. -/
theorem splitFirst_eq_some_iff {c : Char} {s a b : List Char} :
    splitFirst c s = some (a, b) ↔ s = a ++ c :: b ∧ c ∉ a := by
  induction s generalizing a with
  | nil => simp [splitFirst]
  | cons d r ih =>
    by_cases h : d = c
    · subst h
      cases a with
      | nil => simp [splitFirst]
      | cons e a => simp +contextual [splitFirst, eq_comm]
    · cases a with
      | nil => cases hs : splitFirst c r <;> simp [splitFirst, h, hs]
      | cons e a =>
        have key : splitFirst c (d :: r) = some (e :: a, b) ↔ d = e ∧ splitFirst c r = some (a, b) := by
          cases hs : splitFirst c r with
          | none => simp [splitFirst, h, hs]
          | some p => obtain ⟨p, q⟩ := p; simp [splitFirst, h, hs, and_assoc]
        rw [key, ih]
        simp only [List.cons_append, List.cons.injEq, List.mem_cons, not_or]
        grind

/-- There is no last `c` exactly in a text without `c`. -/
theorem splitLast_eq_none_iff {c : Char} {s : List Char} : splitLast c s = none ↔ c ∉ s := by
  induction s with
  | nil => simp [splitLast]
  | cons d r ih =>
    cases hs : splitLast c r with
    | none =>
      by_cases h : d = c
      · simp [splitLast, hs, h]
      · simp [splitLast, hs, h, ih.1 hs, Ne.symm h]
    | some p =>
      have : c ∈ r := by
        refine Decidable.byContradiction fun hn => ?_
        simp [ih.2 hn] at hs
      simp [splitLast, hs, this]

/-- The last cut gives the text back and leaves no `c` after it. -/
theorem splitLast_eq_some_iff {c : Char} {s a b : List Char} :
    splitLast c s = some (a, b) ↔ s = a ++ c :: b ∧ c ∉ b := by
  induction s generalizing a with
  | nil => simp [splitLast]
  | cons d r ih =>
    cases hs : splitLast c r with
    | none =>
      have hr := splitLast_eq_none_iff.1 hs
      cases a with
      | nil => grind [splitLast]
      | cons e a => grind [splitLast]
    | some p =>
      have hr : c ∈ r := by
        refine Decidable.byContradiction fun hn => ?_
        simp [splitLast_eq_none_iff.2 hn] at hs
      obtain ⟨p, q⟩ := p
      cases a with
      | nil => simp [splitLast, hs]; grind
      | cons e a =>
        have := ih (a := a)
        simp [splitLast, hs] at this ⊢
        grind

end Peering.Text
