import Peering.Text.Decimal

/-!
# IPv4 addresses

Four octets, written as decimal numbers without leading zeros and joined by dots. `ofChars?` accepts no other text.
-/

namespace Peering

/-- An IPv4 address by its octets. -/
structure IPv4 where
  /-- The first octet. -/
  a : UInt8
  /-- The second octet. -/
  b : UInt8
  /-- The third octet. -/
  c : UInt8
  /-- The fourth octet. -/
  d : UInt8
deriving DecidableEq

namespace IPv4

open Text

/-- The address of every local interface, `0.0.0.0`. -/
def unspecified : IPv4 := ⟨0, 0, 0, 0⟩

/-- A decimal octet: no leading zero except in the text of zero itself. -/
def octet? (s : List Char) : Option UInt8 :=
  if s.head? = some '0' ∧ s ≠ ['0'] then none else (Decimal.readUpTo 255 s).map UInt8.ofNat

/-- The address that a text denotes. -/
def ofChars? (s : List Char) : Option IPv4 :=
  match s.splitOn '.' with
  | [a, b, c, d] => do return ⟨← octet? a, ← octet? b, ← octet? c, ← octet? d⟩
  | _ => none

/-- The octets, first to last. -/
def octets (q : IPv4) : List UInt8 := [q.a, q.b, q.c, q.d]

/-- The text of an address. -/
def chars (q : IPv4) : List Char :=
  ['.'].intercalate (q.octets.map fun o => Decimal.digits o.toNat)

/-- The address whose octets are the base 256 digits of `n`, most significant first. -/
def ofNat (n : Nat) : IPv4 :=
  ⟨.ofNat (n / 0x1000000), .ofNat (n / 0x10000), .ofNat (n / 0x100), .ofNat n⟩

instance : ToString IPv4 := ⟨fun q => String.ofList q.chars⟩

end IPv4

end Peering
