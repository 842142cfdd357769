import Mathlib.Data.List.Forall2
import Peering.Text.CaseFold

/-!
# Texts that differ in case only

Two texts are alike if they have the same characters, one by one, but for the case of ASCII letters (`CaseAlike`). The
relation is said without folding; comparing folded texts decides it (`sameName_iff_caseAlike`).

* `SameLetter.eq_or_isAlpha`: two characters that are the same letter are equal, or ASCII letters both;
* `CaseAlike.eq_of_isAlpha_eq_false`: a text without ASCII letters is alike to itself only;
* `CaseAlike.isAscii`: what is alike to an ASCII text is ASCII.
-/

namespace Peering.Text

/-! ## Characters -/

/-- The same character, or the two cases of one ASCII letter. -/
inductive SameLetter : Char → Char → Prop
  | refl (c : Char) : SameLetter c c
  | lower {c d : Char} (hc : c.isUpper = true) (hd : d.toNat = c.toNat + 32) : SameLetter c d
  | upper {c d : Char} (hd : d.isUpper = true) (hc : c.toNat = d.toNat + 32) : SameLetter c d

section

variable {c d : Char}

theorem isUpper_iff : c.isUpper = true ↔ 65 ≤ c.toNat ∧ c.toNat ≤ 90 := by
  show decide ('A'.val ≤ c.val ∧ c.val ≤ 'Z'.val) = true ↔ _
  rw [decide_eq_true_iff, UInt32.le_iff_toNat_le, UInt32.le_iff_toNat_le]
  rfl

theorem isLower_iff : c.isLower = true ↔ 97 ≤ c.toNat ∧ c.toNat ≤ 122 := by
  show (decide ('a'.val ≤ c.val) && decide (c.val ≤ 'z'.val)) = true ↔ _
  rw [Bool.and_eq_true, decide_eq_true_iff, decide_eq_true_iff, UInt32.le_iff_toNat_le, UInt32.le_iff_toNat_le]
  rfl

theorem isAlpha_iff : c.isAlpha = true ↔ 65 ≤ c.toNat ∧ c.toNat ≤ 90 ∨ 97 ≤ c.toNat ∧ c.toNat ≤ 122 := by
  show (c.isUpper || c.isLower) = true ↔ _
  rw [Bool.or_eq_true, isUpper_iff, isLower_iff]

theorem isAlpha_eq_false_of_isDigit (h : c.isDigit = true) : c.isAlpha = false := by
  have hbounds : 48 ≤ c.toNat ∧ c.toNat ≤ 57 := Char.isDigit_iff_toNat.1 h
  rw [← Bool.not_eq_true, isAlpha_iff]
  omega

/-- Folding a character adds 32 to a capital and keeps all else. -/
theorem toNat_toLower (c : Char) : c.toLower.toNat = if c.isUpper = true then c.toNat + 32 else c.toNat := by
  have hcapital : c.isUpper = true ↔ 'A'.val ≤ c.val ∧ c.val ≤ 'Z'.val := decide_eq_true_iff
  by_cases h : c.isUpper = true
  · have hlower : c.toLower.val = c.val + 32 := congrArg Char.val (dif_pos (hcapital.1 h))
    have hbounds := isUpper_iff.1 h
    have hval : c.val.toNat = c.toNat := rfl
    rw [if_pos h]
    show c.toLower.val.toNat = c.toNat + 32
    rw [hlower, UInt32.toNat_add]
    show (c.val.toNat + 32) % 2 ^ 32 = c.toNat + 32
    omega
  · have hsame : c.toLower = c := dif_neg (mt hcapital.2 h)
    rw [if_neg h, hsame]

/-- Characters fold alike exactly if they are the same letter. -/
theorem toLower_eq_toLower_iff : c.toLower = d.toLower ↔ SameLetter c d := by
  rw [← Char.toNat_inj, toNat_toLower, toNat_toLower]
  constructor
  · intro h
    by_cases hc : c.isUpper = true
    · by_cases hd : d.isUpper = true
      · rw [if_pos hc, if_pos hd] at h
        rw [Char.toNat_inj.1 (Nat.add_right_cancel h)]
        exact .refl d
      · rw [if_pos hc, if_neg hd] at h
        exact .lower hc h.symm
    · by_cases hd : d.isUpper = true
      · rw [if_neg hc, if_pos hd] at h
        exact .upper hd h
      · rw [if_neg hc, if_neg hd] at h
        rw [Char.toNat_inj.1 h]
        exact .refl d
  · -- What is 32 above a capital is no capital.
    intro h
    cases h with
    | refl => rfl
    | lower hc hd =>
      have hbounds := isUpper_iff.1 hc
      rw [if_pos hc, if_neg (by rw [isUpper_iff]; omega), hd]
    | upper hd hc =>
      have hbounds := isUpper_iff.1 hd
      rw [if_neg (by rw [isUpper_iff]; omega), if_pos hd, hc]

/-- Two characters that are the same letter are equal, or ASCII letters both. -/
theorem SameLetter.eq_or_isAlpha (h : SameLetter c d) : c = d ∨ c.isAlpha = true ∧ d.isAlpha = true := by
  cases h with
  | refl => exact .inl rfl
  | lower hc hd =>
    have hbounds := isUpper_iff.1 hc
    exact .inr ⟨isAlpha_iff.2 (by omega), isAlpha_iff.2 (by omega)⟩
  | upper hd hc =>
    have hbounds := isUpper_iff.1 hd
    exact .inr ⟨isAlpha_iff.2 (by omega), isAlpha_iff.2 (by omega)⟩

end

/-! ## Texts -/

/-- Texts with the same letters in the same places, and the same characters besides. -/
def CaseAlike (a b : String) : Prop := List.Forall₂ SameLetter a.toList b.toList

variable {a b : String}

/-- Comparing folded texts decides whether texts are alike. -/
theorem sameName_iff_caseAlike : sameName a b = true ↔ CaseAlike a b := by
  rw [sameName_iff, foldCase, foldCase, CaseAlike, ← List.forall₂_eq_eq_eq, List.forall₂_map_left_iff,
    List.forall₂_map_right_iff]
  simp only [toLower_eq_toLower_iff]

instance (a b : String) : Decidable (CaseAlike a b) := decidable_of_iff _ sameName_iff_caseAlike

theorem CaseAlike.refl (a : String) : CaseAlike a a := sameName_iff_caseAlike.1 (sameName_refl a)

theorem CaseAlike.symm (h : CaseAlike a b) : CaseAlike b a :=
  sameName_iff_caseAlike.1 (sameName_symm (sameName_iff_caseAlike.2 h))

theorem CaseAlike.trans {c : String} (h : CaseAlike a b) (h' : CaseAlike b c) : CaseAlike a c :=
  sameName_iff_caseAlike.1 (sameName_trans (sameName_iff_caseAlike.2 h) (sameName_iff_caseAlike.2 h'))

/-- A text without ASCII letters is alike to itself only. -/
theorem CaseAlike.eq_of_isAlpha_eq_false (h : CaseAlike a b) (ha : ∀ c ∈ a.toList, c.isAlpha = false) : a = b := by
  apply String.toList_injective
  rw [CaseAlike] at h
  generalize a.toList = s at h ha
  generalize b.toList = t at h
  induction h with
  | nil => rfl
  | cons hcd _ ih =>
    rw [List.forall_mem_cons] at ha
    have hsame := hcd.eq_or_isAlpha.resolve_right fun hletters => by simp [ha.1] at hletters
    rw [hsame, ih ha.2]

/-- What is alike to an ASCII text is ASCII. -/
theorem CaseAlike.isAscii (h : CaseAlike a b) (ha : ∀ c ∈ a.toList, c.toNat < 128) : ∀ c ∈ b.toList, c.toNat < 128 := by
  rw [CaseAlike] at h
  generalize a.toList = s at h ha
  generalize b.toList = t at h
  induction h with
  | nil => simp
  | @cons c d _ _ hcd _ ih =>
    rw [List.forall_mem_cons] at ha ⊢
    have hd : d.toNat < 128 := by
      obtain rfl | ⟨-, hletter⟩ := hcd.eq_or_isAlpha
      · exact ha.1
      · have hbounds := isAlpha_iff.1 hletter
        omega
    exact ⟨hd, ih ha.2⟩

end Peering.Text
