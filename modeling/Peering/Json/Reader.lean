import Peering.Json.Skip

/-!
# Reading typed values

Readers for the shapes that documents are made of: strings, null, lists, names of variants, and records. A document is
read from left to right and the first thing wrong with it is the error, be it the form or the type of a value. A record
is an object with some of its fields in any order, or a list of the values of its first fields.
-/

namespace Peering.Json

/-- The error for a value of another type than the wanted one; the text begins with the value. -/
def typeError (wanted : String) : Input → Error
  | [] => .endOfInput .value
  | c :: s =>
    let word (letters : List Char) (found : Found) : Error :=
      match readWord letters s with
      | .error e => e
      | .ok _ => .wrongType found wanted
    if c = 'n' then word ['u', 'l', 'l'] .null
    else if c = 't' then word ['r', 'u', 'e'] (.boolean true)
    else if c = 'f' then word ['a', 'l', 's', 'e'] (.boolean false)
    else if c = '-' ∨ c.isDigit then
      match readNumber (c :: s) with
      | .error e => e
      | .ok (n, _) => .wrongType (.number n) wanted
    else if c = '"' then
      match readString s with
      | .error e => e
      | .ok (t, _) => .wrongType (.string t) wanted
    else if c = '[' then .wrongType .sequence wanted
    else if c = '{' then .wrongType .map wanted
    else .expectedValue

/-- A string; `wanted` says what it is wanted for. -/
def readText (wanted : String) : Reader String := fun s =>
  match skipBlanks s with
  | '"' :: r => readString r
  | r => .error (typeError wanted r)

/-- The word `null`; `wanted` says what it is wanted for. -/
def readNull (wanted : String) (s : Input) : Except Error Input :=
  match skipBlanks s with
  | 'n' :: r => readWord ['u', 'l', 'l'] r
  | r => .error (typeError wanted r)

/-! ## Lists -/

/-- Whether another element of a list follows, and the text from there on. -/
def atElement (first : Bool) (s : Input) : Except Error (Bool × Input) :=
  match skipBlanks s with
  | [] => .error (.endOfInput .list)
  | c :: r =>
    if c = ']' then .ok (false, c :: r)
    else if first then .ok (true, c :: r)
    else if c = ',' then
      match skipBlanks r with
      | [] => .error (.endOfInput .value)
      | d :: r => if d = ']' then .error .trailingComma else .ok (true, d :: r)
    else .error .expectedCommaOrBracket

/-- The end of a list all of whose wanted elements are read. -/
def readListEnd (s : Input) : Except Error Input :=
  match skipBlanks s with
  | [] => .error (.endOfInput .list)
  | c :: r =>
    if c = ']' then .ok r
    else if c = ',' ∧ (skipBlanks r).head? = some ']' then .error .trailingComma
    else .error .trailingCharacters

/-- The elements of a list up to its end, at most as many as the fuel says. -/
def readElements {α : Type} (item : Reader α) : Nat → Bool → Reader (List α)
  | 0, _, _ => .error (.endOfInput .list)
  | fuel + 1, first, s => do
    let (more, r) ← atElement first s
    if more then
      let (x, r) ← item r
      let (xs, r) ← readElements item fuel false r
      return (x :: xs, r)
    else return ([], r)

/-- A list. Each element takes a character, so the length of the text is fuel enough. -/
def readList {α : Type} (item : Reader α) : Reader (List α) := fun s =>
  match skipBlanks s with
  | '[' :: r => do
    let (xs, r) ← readElements item (r.length + 1) true r
    return (xs, ← readListEnd r)
  | r => .error (typeError "a sequence" r)

/-! ## Objects -/

/-- Whether another member of an object follows, and the text after the opening quote of its key. -/
def atMember (first : Bool) (s : Input) : Except Error (Option Input) :=
  match skipBlanks s with
  | [] => .error (.endOfInput .object)
  | c :: r =>
    if c = '}' then .ok none
    else if first then if c = '"' then .ok (some r) else .error .keyNotString
    else if c = ',' then
      match skipBlanks r with
      | [] => .error (.endOfInput .value)
      | d :: r =>
        if d = '"' then .ok (some r) else if d = '}' then .error .trailingComma else .error .keyNotString
    else .error .expectedCommaOrBrace

/-- The end of an object all of whose members are read. -/
def readObjectEnd (s : Input) : Except Error Input :=
  match skipBlanks s with
  | [] => .error (.endOfInput .object)
  | c :: r => if c = '}' then .ok r else if c = ',' then .error .trailingComma else .error .trailingCharacters

/-- The colon between a key and its value. -/
def readColon (s : Input) : Except Error Input :=
  match skipBlanks s with
  | [] => .error (.endOfInput .object)
  | c :: r => if c = ':' then .ok r else .error .expectedColon

/-! ## Variants -/

/-- The variant of a name, out of a list of names. -/
def variantOfName {α : Type} (variants : List (String × α)) (name : String) : Except Error α :=
  match variants.find? (·.1 == name) with
  | some v => .ok v.2
  | none => .error (.unknownVariant name (variants.map Prod.fst))

/-- A variant without data: its name, or an object with its name as the only key and null as the value. -/
def readVariant {α : Type} (variants : List (String × α)) : Reader α := fun s =>
  match skipBlanks s with
  | [] => .error (.endOfInput .value)
  | c :: r =>
    if c = '"' then do
      let (name, r) ← readString r
      return (← variantOfName variants name, r)
    else if c = '{' then do
      match ← atMember true r with
      | none => throw .expectedValue
      | some r =>
        let (name, r) ← readString r
        let x ← variantOfName variants name
        let r ← readNull "unit" (← readColon r)
        match skipBlanks r with
        | [] => throw (.endOfInput .object)
        | d :: r => if d = '}' then return (x, r) else throw .expectedValue
    else .error .expectedValue

/-! ## Records -/

/-- A field of a record that is being read into a draft. -/
structure RecordField (δ : Type) where
  name : String
  /-- Whether the draft has a value for the field already. -/
  isSet : δ → Bool
  /-- Reads a value for the field into the draft. -/
  read : δ → Reader δ

/-- The value of the member `key`: a field's own, or one that is skipped. -/
def readMember {δ : Type} (fields : List (RecordField δ)) (key : String) (draft : δ) : Reader δ := fun s =>
  match fields.find? (·.name == key) with
  | some f => do
    if f.isSet draft then throw (.duplicateField key)
    f.read draft (← readColon s)
  | none => do
    let r ← readColon s
    return (draft, ← skipValue r)

/-- The members of an object up to its end, at most as many as the fuel says. -/
def readMembers {δ : Type} (fields : List (RecordField δ)) : Nat → Bool → δ → Reader δ
  | 0, _, _, _ => .error (.endOfInput .object)
  | fuel + 1, first, draft, s => do
    match ← atMember first s with
    | none => return (draft, s)
    | some r =>
      let (key, r) ← readString r
      let (draft, r) ← readMember fields key draft r
      readMembers fields fuel false draft r

/-- The values of the fields in a list, as far as it goes. -/
def readPositions {δ : Type} (fields : List (RecordField δ)) (first : Bool) (draft : δ) : Reader δ := fun s =>
  match fields with
  | [] => .ok (draft, s)
  | f :: rest => do
    let (more, r) ← atElement first s
    if more then
      let (draft, r) ← f.read draft r
      readPositions rest false draft r
    else return (draft, r)

/-- A record, from an empty draft. Each member takes a character, so the length of the text is fuel enough. -/
def readRecord {δ : Type} (wanted : String) (fields : List (RecordField δ)) (empty : δ) : Reader δ := fun s =>
  match skipBlanks s with
  | '{' :: r => do
    let (draft, r) ← readMembers fields (r.length + 1) true empty r
    return (draft, ← readObjectEnd r)
  | '[' :: r => do
    let (draft, r) ← readPositions fields true empty r
    return (draft, ← readListEnd r)
  | r => .error (typeError wanted r)

/-! ## Documents -/

/-- Reads a whole document: a value and nothing after it but blanks. -/
def readDocument {α : Type} (value : Reader α) (s : String) : Except Error α := do
  let (x, r) ← value s.toList
  if (skipBlanks r).isEmpty then return x else throw .trailingCharacters

end Peering.Json
