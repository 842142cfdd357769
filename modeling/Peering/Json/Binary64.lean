/-!
# Binary floating point numbers of 64 bits

A `Binary64` is the magnitude of a finite number, an integer of at most 53 bits times a power of two. `ofRatio` rounds
a ratio to the nearest one, ties to even, and fails above the greatest. `shortest` gives the fewest decimal digits that
round back to a number, and `chars` writes them: positional for decimal exponents from -5 to 15, with an exponent
otherwise.
-/

namespace Peering.Json

/-- The number `mantissa * 2 ^ exponent`. -/
structure Binary64 where
  mantissa : Nat
  exponent : Int
deriving DecidableEq

namespace Binary64

/-- The least exponent. -/
def minExponent : Int := -1074

/-- The greatest exponent. -/
def maxExponent : Int := 971

/-- The number zero. -/
def zero : Binary64 := ⟨0, minExponent⟩

/-- A number as a numerator over a denominator. -/
def ratio (x : Binary64) : Nat × Nat := (x.mantissa <<< x.exponent.toNat, 1 <<< (-x.exponent).toNat)

/-! ## Rounding -/

/-- The integer nearest to `n / d`, the even one of two. -/
def roundQuotient (n d : Nat) : Nat :=
  let q := n / d
  let r := n % d
  if d < 2 * r ∨ (2 * r = d ∧ q % 2 = 1) then q + 1 else q

/-- The exponent at which `n / d` has 53 bits before the point, but not below the least one. -/
def exponentOf (n d : Nat) : Int :=
  let e : Int := (n.log2 : Int) - d.log2 - 52
  let e := if n <<< (-e).toNat < d <<< (e.toNat + 52) then e - 1 else e
  max e minExponent

/-- The number nearest to `n / d`, if it is not above the greatest one. -/
def ofRatio (n d : Nat) : Option Binary64 :=
  if n = 0 then some zero
  else
    let e := exponentOf n d
    let m := roundQuotient (n <<< (-e).toNat) (d <<< e.toNat)
    let x : Binary64 := if m = 1 <<< 53 then ⟨1 <<< 52, e + 1⟩ else ⟨m, e⟩
    if x.exponent ≤ maxExponent then some x else none

/-- The product, rounded. -/
def mul (x y : Binary64) : Option Binary64 :=
  ofRatio (x.ratio.1 * y.ratio.1) (x.ratio.2 * y.ratio.2)

/-- The quotient by a number other than zero, rounded. -/
def div (x y : Binary64) : Option Binary64 :=
  ofRatio (x.ratio.1 * y.ratio.2) (x.ratio.2 * y.ratio.1)

/-! ## Shortest digits -/

/-- A numerator and a denominator of `10 ^ k`. -/
def powerOfTen (k : Int) : Nat × Nat := (Nat.pow 10 k.toNat, Nat.pow 10 (-k).toNat)

/-- The greatest `k` with `10 ^ k ≤ x`, for `x` other than zero. -/
def decimalExponent (x : Binary64) : Int :=
  let (n, d) := x.ratio
  let fits (k : Int) : Bool := (powerOfTen k).1 * d ≤ n * (powerOfTen k).2
  (((List.range 640).map fun (i : Nat) => 310 - (i : Int)).find? fits).getD 0

/-- Whether `c * 10 ^ k` rounds to `x`; the ends of the interval that does belong to it when the mantissa is even. -/
def roundsTo (x : Binary64) (c : Nat) (k : Int) : Bool :=
  let (n, d) := powerOfTen k
  let quarter : Binary64 := ⟨1, x.exponent - 2⟩
  let (u, v) := quarter.ratio
  let low := 4 * x.mantissa - (if x.mantissa = 1 <<< 52 ∧ minExponent < x.exponent then 1 else 2)
  let high := 4 * x.mantissa + 2
  if x.mantissa % 2 = 0 then low * u * d ≤ c * n * v && c * n * v ≤ high * u * d
  else low * u * d < c * n * v && c * n * v < high * u * d

/-- The neighbour of `x` on the grid `10 ^ k` that rounds to `x`; of two the nearer one, or else the even one. -/
def onGrid? (x : Binary64) (k : Int) : Option Nat :=
  let (n, d) := x.ratio
  let (p, q) := powerOfTen k
  let below := n * q / (d * p)
  let candidates := [below, below + 1].filter fun c => x.roundsTo c k
  let distance (c : Nat) : Nat := (c * (d * p) - n * q) + (n * q - c * (d * p))
  match candidates with
  | [b, a] => some (if distance a < distance b ∨ (distance a = distance b ∧ a % 2 = 0) then a else b)
  | [c] => some c
  | _ => none

/-- The decimal `c * 10 ^ k` without zeros at the end of `c`. -/
def dropZeros (c : Nat) (k : Int) : Nat × Int :=
  if 0 < c ∧ c % 10 = 0 then dropZeros (c / 10) (k + 1) else (c, k)
termination_by c

/-- The shortest decimal that rounds to `x`, for `x` other than zero: its digits and the exponent of the last one. -/
def shortest (x : Binary64) : Nat × Int :=
  let grids := (List.range 17).map fun (i : Nat) => x.decimalExponent - (i : Int)
  (grids.findSome? fun k => (x.onGrid? k).map fun c => dropZeros c k).getD (0, 0)

/-! ## Text -/

/-- An exponent with its sign. -/
def exponentChars (e : Int) : List Char := (if e < 0 then '-' else '+') :: Nat.toDigits 10 e.natAbs

/-- Digits with the point after the `point`-th one; at least one digit stands on either side. -/
def positional (digits : List Char) (point : Int) : List Char :=
  if point ≤ 0 then "0.".toList ++ List.replicate (-point).toNat '0' ++ digits
  else if digits.length ≤ point.toNat then
    digits ++ List.replicate (point.toNat - digits.length) '0' ++ ".0".toList
  else digits.take point.toNat ++ '.' :: digits.drop point.toNat

/-- Digits with the point after the first one, and an exponent. -/
def scientific (digits : List Char) (e : Int) : List Char :=
  (match digits with
    | [] => []
    | [c] => [c]
    | c :: r => c :: '.' :: r) ++ 'e' :: exponentChars e

/-- The shortest text that reads back as the number. -/
def chars (x : Binary64) : List Char :=
  if x.mantissa = 0 then "0.0".toList
  else
    let (c, k) := x.shortest
    let digits := Nat.toDigits 10 c
    let e := k + digits.length - 1
    if -5 ≤ e ∧ e ≤ 15 then positional digits (e + 1) else scientific digits e

end Binary64

end Peering.Json
