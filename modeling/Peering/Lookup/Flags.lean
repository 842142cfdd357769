import Peering.Text.CaseFold

/-!
# Lookup flags

A `Flag` is one of seven hints for a lookup and a `FlagSet` a set of them, held as seven bits. The view of a set is the
list of its flags in declaration order (`FlagSet.toList`): two sets with the same flags are equal (`FlagSet.ext_has`).
`FlagSet.ofNames` reads a list of names without regard to ASCII case and refuses the first unknown one.
-/

namespace Peering

/-- A hint for a lookup. -/
inductive Flag where
  /-- Ask for the canonical name of the host. -/
  | canonicalName
  /-- The results are meant for binding. -/
  | passive
  /-- The host must be a literal address. -/
  | numericHost
  /-- The service must be a port number. -/
  | numericService
  /-- When only IPv6 is wanted, IPv4 results come as IPv4-mapped addresses. -/
  | v4Mapped
  /-- Mapped IPv4 results stand beside native IPv6 ones. -/
  | allMatching
  /-- Only families that the host has an address of. -/
  | addressConfigured
deriving DecidableEq

namespace Flag

/-- The flags in declaration order. -/
def all : List Flag :=
  [canonicalName, passive, numericHost, numericService, v4Mapped, allMatching, addressConfigured]

/-- The position of a flag in declaration order. -/
def index : Flag → Fin 7
  | canonicalName => 0
  | passive => 1
  | numericHost => 2
  | numericService => 3
  | v4Mapped => 4
  | allMatching => 5
  | addressConfigured => 6

/-- The name of a flag. -/
def name : Flag → String
  | canonicalName => "canonical_name"
  | passive => "passive"
  | numericHost => "numeric_host"
  | numericService => "numeric_service"
  | v4Mapped => "v4_mapped"
  | allMatching => "all_matching"
  | addressConfigured => "address_configured"

/-- The flag of a name, without regard to ASCII case. -/
def ofName? (s : String) : Option Flag := all.find? fun f => Text.sameName f.name s

@[simp] theorem mem_all (f : Flag) : f ∈ all := by cases f <;> decide

theorem index_injective {f g : Flag} (h : f.index = g.index) : f = g := by
  cases f <;> cases g <;> simp_all [index]

/-- The flag of a text is the one whose name differs at most in the case of ASCII letters; there is never a second. -/
theorem ofName?_eq_some_iff {s : String} {f : Flag} : ofName? s = some f ↔ Text.sameName f.name s = true := by
  constructor
  · intro h
    simpa using List.find?_some h
  · intro h
    have hs : Text.foldCase s = Text.foldCase f.name := (Text.sameName_iff.1 h).symm
    simp only [ofName?, Text.sameName, hs]
    cases f <;> decide

end Flag

/-- A set of flags; the bit of a flag stands at its index. -/
structure FlagSet where
  bits : BitVec 7
deriving DecidableEq

namespace FlagSet

/-- Whether a flag is in the set. -/
def has (s : FlagSet) (f : Flag) : Bool := s.bits.getLsbD f.index

/-- The set without flags. -/
def empty : FlagSet := ⟨0⟩

/-- The set of one flag. -/
def singleton (f : Flag) : FlagSet := ⟨BitVec.twoPow 7 f.index⟩

/-- The flags of either set. -/
def union (s t : FlagSet) : FlagSet := ⟨s.bits ||| t.bits⟩

/-- Whether every flag of `t` is in `s`. -/
def includes (s t : FlagSet) : Bool := s.bits &&& t.bits == t.bits

instance : EmptyCollection FlagSet := ⟨empty⟩
instance : Inhabited FlagSet := ⟨empty⟩
instance : Union FlagSet := ⟨union⟩

/-- The flags of the set in declaration order. -/
def toList (s : FlagSet) : List Flag := Flag.all.filter s.has

/-- The set of the flags in a list. -/
def ofList (fs : List Flag) : FlagSet := fs.foldl (fun s f => s ∪ singleton f) ∅

/-- The names of the flags in the set, in declaration order. -/
def names (s : FlagSet) : List String := s.toList.map Flag.name

/-- The flags that a lookup uses when none are given. -/
def default : FlagSet := singleton .addressConfigured

/-- The set that a list of names denotes, or its first unknown name. -/
def ofNames (names : List String) : Except String FlagSet :=
  match names with
  | [] => .ok ∅
  | n :: r =>
    match Flag.ofName? n with
    | none => .error n
    | some f => (ofNames r).map (singleton f ∪ ·)

/-! ## Membership -/

@[simp] theorem has_empty (f : Flag) : has ∅ f = false := by cases f <;> decide

@[simp] theorem has_singleton (f g : Flag) : (singleton f).has g = decide (f = g) := by
  cases f <;> cases g <;> decide

@[simp] theorem has_union (s t : FlagSet) (f : Flag) : (s ∪ t).has f = (s.has f || t.has f) := by
  show (s.bits ||| t.bits).getLsbD f.index = _
  simp [has]

/-- Sets with the same flags are equal. -/
theorem ext_has {s t : FlagSet} (h : ∀ f, s.has f = t.has f) : s = t := by
  obtain ⟨s⟩ := s
  obtain ⟨t⟩ := t
  have key : ∀ i : Fin 7, s.getLsbD i = t.getLsbD i := by
    intro i
    match i with
    | 0 => exact h .canonicalName
    | 1 => exact h .passive
    | 2 => exact h .numericHost
    | 3 => exact h .numericService
    | 4 => exact h .v4Mapped
    | 5 => exact h .allMatching
    | 6 => exact h .addressConfigured
  congr 1
  exact BitVec.eq_of_getLsbD_eq fun i hi => key ⟨i, hi⟩

@[simp] theorem mem_toList {s : FlagSet} {f : Flag} : f ∈ s.toList ↔ s.has f = true := by
  simp [toList]

/-- A set includes another one exactly if it has all flags of it. -/
theorem includes_iff {s t : FlagSet} : s.includes t = true ↔ ∀ f, t.has f = true → s.has f = true := by
  have hcommon (f : Flag) : (mk (s.bits &&& t.bits)).has f = (s.has f && t.has f) := by simp [has]
  rw [includes, beq_iff_eq]
  constructor
  · intro h f hf
    have hf' : (mk (s.bits &&& t.bits)).has f = true := by rw [h]; exact hf
    rw [hcommon, Bool.and_eq_true] at hf'
    exact hf'.1
  · intro h
    have hsame : mk (s.bits &&& t.bits) = t := ext_has fun f => by
      rw [hcommon]
      cases hf : t.has f with
      | false => exact Bool.and_false _
      | true => rw [h f hf, Bool.and_true]
    exact congrArg bits hsame

end FlagSet

end Peering
