import Peering.Address.IPv4
import Peering.Text.Hexadecimal

/-!
# Old forms of IPv4 addresses

Systems still accept one to four numbers joined by dots, each decimal, octal after `0` or hexadecimal after `0x`. All
but the last are single octets, and the last fills the octets that are left: `127.1` is `127.0.0.1`.
-/

namespace Peering.IPv4

open Text

/-- The value of a text of octal digits, after the number `n`. -/
def extendOctal (n : Nat) : List Char → Option Nat
  | [] => some n
  | c :: r => if '0' ≤ c ∧ c ≤ '7' then extendOctal (8 * n + (c.toNat - '0'.toNat)) r else none

/-- A number in one of the three bases. -/
def legacyNumber? : List Char → Option Nat
  | '0' :: c :: r => if c = 'x' ∨ c = 'X' then Hexadecimal.read? r else extendOctal 0 (c :: r)
  | s => if Decimal.IsNumeral s then some (Decimal.value s) else none

/-- The number with the given parts, of which the last fills `room` octets less those of the parts before it. -/
def assemble (room : Nat) : List Nat → Option Nat
  | [] => none
  | [n] => if n < 1 <<< (8 * room) then some n else none
  | n :: r =>
    if n < 256 ∧ 1 < room then (assemble (room - 1) r).map (n <<< (8 * (room - 1)) + ·) else none

/-- The address that a text in an old form denotes. -/
def ofLegacy? (s : List Char) : Option IPv4 := do
  let parts ← (s.splitOn '.').mapM legacyNumber?
  return ofNat (← assemble 4 parts)

end Peering.IPv4
