/-!
# Hexadecimal numbers

`digits` is the shortest lower case text of a number; `digit?` and `extend` read digits of either case.
-/

namespace Peering.Text.Hexadecimal

/-- The shortest hexadecimal text of `n`, in lower case. -/
def digits (n : Nat) : List Char := Nat.toDigits 16 n

/-- The value of a hexadecimal digit of either case. -/
def digit? (c : Char) : Option Nat :=
  if c.isDigit then some (c.toNat - '0'.toNat)
  else if 'a' ≤ c && c ≤ 'f' then some (10 + (c.toNat - 'a'.toNat))
  else if 'A' ≤ c && c ≤ 'F' then some (10 + (c.toNat - 'A'.toNat))
  else none

/-- Reads further hexadecimal digits after the number `n`. -/
def extend (n : Nat) : List Char → Option Nat
  | [] => some n
  | c :: r =>
    match digit? c with
    | some d => extend (16 * n + d) r
    | none => none

/-- The number that a nonempty text of hexadecimal digits denotes. -/
def read? : List Char → Option Nat
  | [] => none
  | s => extend 0 s

end Peering.Text.Hexadecimal
