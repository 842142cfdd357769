import Peering.Address.Basic

/-!
# Address family selectors
-/

namespace Peering

/-- Which address families a lookup asks for. -/
inductive Protocol where
  /-- Any family. -/
  | unspecified
  | v4
  | v6
deriving DecidableEq, Inhabited

namespace Protocol

/-- The selectors, in the order in which their names are listed. -/
def all : List Protocol := [unspecified, v4, v6]

/-- The name of a selector in documents. -/
def name : Protocol → String
  | unspecified => "unspecified"
  | v4 => "v4"
  | v6 => "v6"

/-- The selector of a name; case counts. -/
def ofName? (s : String) : Option Protocol := all.find? (·.name == s)

/-- Whether an address belongs to the selected family as it is, without any mapping. -/
def accepts : Protocol → IPAddress → Bool
  | unspecified, _ => true
  | v4, a => a.isV4
  | v6, a => a.isV6

/-- A name is read back. -/
theorem ofName?_name (p : Protocol) : ofName? p.name = some p := by cases p <;> decide

end Protocol

end Peering
