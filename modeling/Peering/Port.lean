import Peering.Text.Decimal

/-!
# Ports

A port is a 16-bit number. Its text is any nonempty run of ASCII digits of value at most 65535; leading zeros do not
count (`Port.ofChars?_eq_some_iff`). `Port.chars` is the text without leading zeros, which reads back
(`Port.ofChars?_chars`).
-/

namespace Peering

/-- A transport port. -/
abbrev Port := UInt16

namespace Port

open Text

/-- The port that a decimal text denotes. -/
def ofChars? (s : List Char) : Option Port := (Decimal.readUpTo 65535 s).map UInt16.ofNat

/-- The port that a decimal text denotes. -/
def ofString? (s : String) : Option Port := ofChars? s.toList

/-- The decimal text of a port. -/
def chars (p : Port) : List Char := Decimal.digits p.toNat

/-- Reading accepts exactly the numerals of value at most 65535, with that value. -/
theorem ofChars?_eq_some_iff {s : List Char} {p : Port} :
    ofChars? s = some p ↔ Decimal.IsNumeral s ∧ Decimal.value s = p.toNat := by
  have hp : p.toNat < 65536 := p.toNat_lt
  simp only [ofChars?, Option.map_eq_some_iff, Decimal.readUpTo_eq_some_iff]
  constructor
  · rintro ⟨n, ⟨hs, hv, hn⟩, rfl⟩
    exact ⟨hs, by rw [UInt16.toNat_ofNat_of_lt' (Nat.lt_succ_of_le hn)]; exact hv⟩
  · rintro ⟨hs, hv⟩
    exact ⟨p.toNat, ⟨hs, hv, by omega⟩, UInt16.ofNat_toNat⟩

/-- The text of a port reads back. -/
theorem ofChars?_chars (p : Port) : ofChars? (chars p) = some p :=
  ofChars?_eq_some_iff.2 ⟨Decimal.isNumeral_digits _, Decimal.value_digits _⟩

end Port

end Peering
