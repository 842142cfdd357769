import Peering.Address.IPv4
import Peering.Text.Hexadecimal

/-!
# IPv6 addresses

Eight groups of 16 bits. In text the groups are hexadecimal and joined by colons; one `::` may stand for one or more
zero groups, and the last two groups may be a dotted quad. `chars` writes the canonical form: lower case, no leading
zeros, `::` for the longest run of at least two zero groups (the first of equally long ones), and a dotted quad only for
IPv4-mapped addresses.
-/

namespace Peering

/-- An IPv6 address by its eight groups. -/
structure IPv6 where
  /-- The groups, most significant first. -/
  groups : List UInt16
  /-- There are eight. -/
  length_groups : groups.length = 8
deriving DecidableEq

namespace IPv6

open Text

/-! ## Reading -/

/-- One to four hexadecimal digits. -/
def group? (s : List Char) : Option UInt16 :=
  if s.length ≤ 4 then (Hexadecimal.read? s).map UInt16.ofNat else none

/-- A dotted quad as two groups. -/
def ofQuad (q : IPv4) : List UInt16 :=
  [.ofNat (q.a.toNat * 256 + q.b.toNat), .ofNat (q.c.toNat * 256 + q.d.toNat)]

/-- The groups of a part of an address that may not end in a dotted quad. -/
def plainGroups? : List (List Char) → Option (List UInt16)
  | [] => some []
  | s :: r => do return (← group? s) :: (← plainGroups? r)

/-- The groups of a part of an address that may end in a dotted quad. -/
def finalGroups? : List (List Char) → Option (List UInt16)
  | [] => some []
  | [s] =>
    match IPv4.ofChars? s with
    | some q => some (ofQuad q)
    | none => (group? s).map ([·])
  | s :: r => do return (← group? s) :: (← finalGroups? r)

/-- The pieces between the colons; the empty text has none. -/
def pieces (s : List Char) : List (List Char) := if s.isEmpty then [] else s.splitOn ':'

/-- The texts before and after the first `::`. -/
def splitElision : List Char → Option (List Char × List Char)
  | [] => none
  | ':' :: ':' :: r => some ([], r)
  | c :: r => (splitElision r).map fun (a, b) => (c :: a, b)

/-- The address that a text denotes. -/
def ofChars? (s : List Char) : Option IPv6 :=
  match splitElision s with
  | none => do
    let gs ← finalGroups? (s.splitOn ':')
    if h : gs.length = 8 then some ⟨gs, h⟩ else none
  | some (front, back) => do
    let gs ← plainGroups? (pieces front)
    let hs ← finalGroups? (pieces back)
    if h : gs.length + hs.length ≤ 7 then
      some ⟨gs ++ List.replicate (8 - (gs.length + hs.length)) 0 ++ hs, by simp; omega⟩
    else none

/-! ## Writing -/

/-- The first longest run of zeros: where it starts and how long it is. -/
def longestZeroRun : List UInt16 → Nat × Nat
  | [] => (0, 0)
  | g :: r =>
    let here := ((g :: r).takeWhile (· == 0)).length
    let (start, length) := longestZeroRun r
    if here < length then (start + 1, length) else (0, here)

/-- Groups in hexadecimal, joined by colons. -/
def groupChars (gs : List UInt16) : List Char :=
  [':'].intercalate (gs.map fun g => Hexadecimal.digits g.toNat)

/-- The IPv4 address within an IPv4-mapped one, `::ffff:a.b.c.d`. -/
def mappedQuad? (a : IPv6) : Option IPv4 :=
  match a.groups with
  | [g₀, g₁, g₂, g₃, g₄, g₅, x, y] =>
    if [g₀, g₁, g₂, g₃, g₄, g₅] = [0, 0, 0, 0, 0, 0xffff] then
      some (IPv4.ofNat (x.toNat * 0x10000 + y.toNat))
    else none
  | _ => none

/-- The canonical text of an address. -/
def chars (a : IPv6) : List Char :=
  match a.mappedQuad? with
  | some q => "::ffff:".toList ++ q.chars
  | none =>
    let (start, length) := longestZeroRun a.groups
    if 1 < length then
      groupChars (a.groups.take start) ++ "::".toList ++ groupChars (a.groups.drop (start + length))
    else groupChars a.groups

/-- The IPv4-mapped address of `q`. -/
def ofMapped (q : IPv4) : IPv6 := ⟨[0, 0, 0, 0, 0, 0xffff] ++ ofQuad q, rfl⟩

instance : ToString IPv6 := ⟨fun a => String.ofList a.chars⟩

end IPv6

end Peering
