import Peering.Json.Reader

/-!
# JSON values

`Value` is a document of any shape. The members of an object stand in the order in which they are written; reading puts
them in the order of their keys and keeps the last of several with one key. `compact` and `pretty` write a value; a
string is written with as few escapes as JSON allows (`escape`).
-/

namespace Peering.Json

/-- A document of any shape. -/
inductive Value where
  | null
  | boolean (b : Bool)
  | number (n : Number)
  | string (s : String)
  | list (items : List Value)
  | object (members : List (String × Value))

namespace Value

instance : Inhabited Value := ⟨null⟩

/-- What a value is found to be. -/
def found : Value → Found
  | null => .null
  | boolean b => .boolean b
  | number n => .number n
  | string s => .string s
  | list _ => .sequence
  | object _ => .map

/-- The integer of a value. -/
def ofInt (n : Int) : Value := number (.integer n)

/-- The integer of a value. -/
def ofNat (n : Nat) : Value := number (.integer n)

/-- The value of a key in an object. -/
def get? (key : String) : Value → Option Value
  | object members => (members.find? (·.1 == key)).map Prod.snd
  | _ => none

end Value

/-! ## Writing -/

/-- A character in a string. -/
def escape (c : Char) : List Char :=
  if c = '"' ∨ c = '\\' then ['\\', c]
  else if c = '\x08' then ['\\', 'b']
  else if c = '\x0c' then ['\\', 'f']
  else if c = '\n' then ['\\', 'n']
  else if c = '\r' then ['\\', 'r']
  else if c = '\t' then ['\\', 't']
  else if isControl c then
    ['\\', 'u', '0', '0', Nat.digitChar (c.toNat / 16), Nat.digitChar (c.toNat % 16)]
  else [c]

/-- A string between quotes. -/
def quote (s : String) : List Char := '"' :: s.toList.flatMap escape ++ ['"']

/-- A number. -/
def Number.chars : Number → List Char
  | integer n => (toString n).toList
  | floating negative x => (if negative then ['-'] else []) ++ x.chars

namespace Value

mutual

/-- The text of a value without blanks. -/
def compact : Value → List Char
  | null => "null".toList
  | boolean b => (toString b).toList
  | number n => n.chars
  | string s => quote s
  | list items => '[' :: compactItems items
  | object members => '{' :: compactMembers members

/-- The items of a list and its end. -/
def compactItems : List Value → List Char
  | [] => [']']
  | [v] => v.compact ++ [']']
  | v :: r => v.compact ++ ',' :: compactItems r

/-- The members of an object and its end. -/
def compactMembers : List (String × Value) → List Char
  | [] => ['}']
  | [(k, v)] => quote k ++ ':' :: v.compact ++ ['}']
  | (k, v) :: r => quote k ++ ':' :: v.compact ++ ',' :: compactMembers r

end

/-- A line break and the indentation of a depth, two spaces a step. -/
def newline (depth : Nat) : List Char := '\n' :: List.replicate (2 * depth) ' '

mutual

/-- The text of a value with an item a line; an empty list or object takes no line. -/
def pretty (depth : Nat) : Value → List Char
  | null => "null".toList
  | boolean b => (toString b).toList
  | number n => n.chars
  | string s => quote s
  | list [] => "[]".toList
  | list (v :: r) => '[' :: prettyItems (depth + 1) (v :: r) ++ newline depth ++ [']']
  | object [] => ['{', '}']
  | object (m :: r) => '{' :: prettyMembers (depth + 1) (m :: r) ++ newline depth ++ ['}']

/-- The items of a list, each on a line of its own. -/
def prettyItems (depth : Nat) : List Value → List Char
  | [] => []
  | [v] => newline depth ++ v.pretty depth
  | v :: r => newline depth ++ v.pretty depth ++ ',' :: prettyItems depth r

/-- The members of an object, each on a line of its own. -/
def prettyMembers (depth : Nat) : List (String × Value) → List Char
  | [] => []
  | [(k, v)] => newline depth ++ quote k ++ ": ".toList ++ v.pretty depth
  | (k, v) :: r => newline depth ++ quote k ++ ": ".toList ++ v.pretty depth ++ ',' :: prettyMembers depth r

end

/-- The text of a value without blanks. -/
def toCompact (v : Value) : String := String.ofList v.compact

/-- The text of a value with an item a line. -/
def toPretty (v : Value) : String := String.ofList (v.pretty 0)

/-! ## Reading -/

/-- The members of an object with one more, which takes the place of one with the same key. -/
def insertMember (key : String) (v : Value) : List (String × Value) → List (String × Value)
  | [] => [(key, v)]
  | (k, w) :: r =>
    if key = k then (key, v) :: r
    else if key < k then (key, v) :: (k, w) :: r
    else (k, w) :: insertMember key v r

/-- The members of an object up to its end, at most as many as the fuel says. -/
def readMembersWith (value : Reader Value) : Nat → Bool → List (String × Value) → Reader (List (String × Value))
  | 0, _, _, _ => .error (.endOfInput .object)
  | fuel + 1, first, members, s => do
    match ← atMember first s with
    | none => return (members, ← readObjectEnd s)
    | some r =>
      let (key, r) ← readString r
      let (v, r) ← value (← readColon r)
      readMembersWith value fuel false (insertMember key v members) r

/-- A value that is nested no deeper than the fuel says. -/
def readValue : Nat → Reader Value
  | 0, _ => .error .expectedValue
  | fuel + 1, s =>
    match skipBlanks s with
    | [] => .error (.endOfInput .value)
    | c :: r =>
      if c = 'n' then do return (null, ← readWord ['u', 'l', 'l'] r)
      else if c = 't' then do return (boolean true, ← readWord ['r', 'u', 'e'] r)
      else if c = 'f' then do return (boolean false, ← readWord ['a', 'l', 's', 'e'] r)
      else if c = '"' then do
        let (t, r) ← readString r
        return (string t, r)
      else if c = '[' then do
        let (items, r) ← readList (readValue fuel) (c :: r)
        return (list items, r)
      else if c = '{' then do
        let (members, r) ← readMembersWith (readValue fuel) (r.length + 1) true [] r
        return (object members, r)
      else if c = '-' ∨ c.isDigit then do
        let (n, r) ← readNumber (c :: r)
        return (number n, r)
      else .error .expectedValue

/-- The value of a document. Nesting takes characters, so the length of the text is fuel enough. -/
def ofString (s : String) : Except Error Value := readDocument (readValue (s.length + 1)) s

end Value

end Peering.Json
