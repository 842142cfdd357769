/-!
# Names compared without regard to ASCII case

Only the 26 ASCII letters fold; every other character is compared as it is. `sameName_iff` reduces the comparison to
equality of the folded texts, which makes it an equivalence.
-/

namespace Peering.Text

/-- The text with ASCII capitals in lower case. -/
def foldCase (s : String) : List Char := s.toList.map Char.toLower

/-- Whether two names differ at most in the case of ASCII letters. -/
def sameName (a b : String) : Bool := foldCase a == foldCase b

theorem sameName_iff {a b : String} : sameName a b = true ↔ foldCase a = foldCase b := by
  simp [sameName]

@[simp] theorem sameName_refl (a : String) : sameName a a = true := sameName_iff.2 rfl

theorem sameName_symm {a b : String} (h : sameName a b = true) : sameName b a = true :=
  sameName_iff.2 (sameName_iff.1 h).symm

theorem sameName_trans {a b c : String} (h : sameName a b = true) (h' : sameName b c = true) :
    sameName a c = true :=
  sameName_iff.2 ((sameName_iff.1 h).trans (sameName_iff.1 h'))

end Peering.Text
