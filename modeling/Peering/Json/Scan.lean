import Peering.Json.Error
import Peering.Text.Decimal

/-!
# The small parts of a document

Blanks, words, strings and numbers. Each reader takes the text from where the part begins and gives back the part and
the text after it. Strings are read by `readString`, which undoes the escapes; `length_readEscape` says that an escape
is not empty, on which reading a string terminates.
-/

namespace Peering.Json

/-- The text that is still to be read. -/
abbrev Input := List Char

/-- Reads something off the front of the text. -/
abbrev Reader (α : Type) := Input → Except Error (α × Input)

/-! ## Blanks and words -/

/-- Space, tab, line feed and carriage return. -/
def isBlank (c : Char) : Bool := c == ' ' || c == '\t' || c == '\n' || c == '\r'

/-- The text from the first character on that is not blank. -/
def skipBlanks (s : Input) : Input := s.dropWhile isBlank

/-- Reads the rest of a word whose first letter is known. -/
def readWord : List Char → Input → Except Error Input
  | [], s => .ok s
  | _ :: _, [] => .error (.endOfInput .value)
  | w :: ws, c :: s => if c = w then readWord ws s else .error .expectedWord

/-! ## Strings -/

/-- Four hexadecimal digits after `\u`. The text has to go on for four bytes before the digits are looked at. -/
def readHex4 (s : Input) : Except Error (Nat × Input) :=
  match s with
  | a :: b :: c :: d :: r =>
    match Text.Hexadecimal.read? [a, b, c, d] with
    | some n => .ok (n, r)
    | none => .error .invalidEscape
  | _ =>
    if 4 ≤ (String.ofList s).utf8ByteSize then .error .invalidEscape else .error (.endOfInput .string)

/-- The second half of a surrogate pair, after the first half `high`. -/
def readLowSurrogate (high : Nat) : Reader Char
  | [] => .error (.endOfInput .string)
  | '\\' :: s =>
    match s with
    | [] => .error (.endOfInput .string)
    | 'u' :: s =>
      match readHex4 s with
      | .error e => .error e
      | .ok (low, r) =>
        if 0xDC00 ≤ low ∧ low ≤ 0xDFFF then
          .ok (Char.ofNat (0x10000 + (high - 0xD800) * 0x400 + (low - 0xDC00)), r)
        else .error .loneSurrogate
    | _ => .error .endOfEscape
  | _ => .error .endOfEscape

/-- The character of an escape by code unit, after `\u`. -/
def readUnicodeEscape (s : Input) : Except Error (Char × Input) :=
  match readHex4 s with
  | .error e => .error e
  | .ok (n, r) =>
    if 0xDC00 ≤ n ∧ n ≤ 0xDFFF then .error .loneSurrogate
    else if 0xD800 ≤ n ∧ n ≤ 0xDBFF then readLowSurrogate n r
    else .ok (Char.ofNat n, r)

/-- The character that an escape of one letter stands for. -/
def simpleEscape? : Char → Option Char
  | '"' => some '"'
  | '\\' => some '\\'
  | '/' => some '/'
  | 'b' => some '\x08'
  | 'f' => some '\x0c'
  | 'n' => some '\n'
  | 'r' => some '\r'
  | 't' => some '\t'
  | _ => none

/-- The character of an escape, after its backslash. -/
def readEscape : Reader Char
  | [] => .error (.endOfInput .string)
  | c :: s =>
    match simpleEscape? c with
    | some d => .ok (d, s)
    | none => if c = 'u' then readUnicodeEscape s else .error .invalidEscape

theorem length_readHex4 {s r : Input} {n : Nat} (h : readHex4 s = .ok (n, r)) : r.length < s.length := by
  unfold readHex4 at h
  grind

theorem length_readLowSurrogate {s r : Input} {n : Nat} {c : Char} (h : readLowSurrogate n s = .ok (c, r)) :
    r.length < s.length := by
  unfold readLowSurrogate at h
  split at h
  · cases h
  · split at h
    · cases h
    · split at h
      · cases h
      · rename_i hx
        have := length_readHex4 hx
        split at h
        · simp only [Except.ok.injEq, Prod.mk.injEq] at h
          obtain ⟨-, rfl⟩ := h
          simp only [List.length_cons]
          omega
        · cases h
    · cases h
  · cases h

theorem length_readUnicodeEscape {s r : Input} {c : Char} (h : readUnicodeEscape s = .ok (c, r)) :
    r.length < s.length := by
  unfold readUnicodeEscape at h
  split at h
  · cases h
  · rename_i hx
    have := length_readHex4 hx
    split at h
    · cases h
    · split at h
      · have := length_readLowSurrogate h
        omega
      · cases h
        omega

/-- An escape has at least one character. -/
theorem length_readEscape {s r : Input} {c : Char} (h : readEscape s = .ok (c, r)) : r.length < s.length := by
  unfold readEscape at h
  split at h
  · cases h
  · split at h
    · cases h
      simp
    · split at h
      · have := length_readUnicodeEscape h
        simp only [List.length_cons]
        omega
      · cases h

/-- Whether a character may not stand in a string as it is. -/
def isControl (c : Char) : Bool := c.toNat < 0x20

/-- The characters of a string and the text after its closing quote; the opening one is already read. -/
def readChars (s : Input) : Except Error (List Char × Input) :=
  match s with
  | [] => .error (.endOfInput .string)
  | '"' :: r => .ok ([], r)
  | '\\' :: r =>
    match h : readEscape r with
    | .error e => .error e
    | .ok (c, r') =>
      have : r'.length < r.length := length_readEscape h
      match readChars r' with
      | .error e => .error e
      | .ok (cs, r'') => .ok (c :: cs, r'')
  | c :: r =>
    if isControl c then .error .controlCharacter
    else
      match readChars r with
      | .error e => .error e
      | .ok (cs, r') => .ok (c :: cs, r')
termination_by s.length
decreasing_by all_goals simp only [List.length_cons]; omega

/-- A string, after its opening quote. -/
def readString : Reader String := fun s =>
  match readChars s with
  | .error e => .error e
  | .ok (cs, r) => .ok (String.ofList cs, r)

/-! ## Numbers -/

/-- Appends digits to a significand as long as it fits 64 bits; gives the number of digits left over, too. -/
def absorb (significand : Nat) : List Char → Nat × Nat
  | [] => (significand, 0)
  | c :: r =>
    let n := 10 * significand + (c.toNat - '0'.toNat)
    if n < UInt64.size then absorb n r else (significand, r.length + 1)

/-- `x / 10 ^ n` for any `n`, in steps of at most `10 ^ 308`. -/
def scaleDown (x : Binary64) (n : Nat) : Binary64 :=
  let by10 (k : Nat) : Binary64 := ((Binary64.ofRatio (Nat.pow 10 k) 1).bind x.div).getD .zero
  if n ≤ 308 then by10 n
  else if x.mantissa = 0 then x
  else scaleDown (by10 308) (n - 308)
termination_by n

/-- The number `significand * 10 ^ exponent`: the significand is rounded, then scaled by a rounded power of ten. -/
def scaled (significand : Nat) (exponent : Int) : Except Error Binary64 :=
  match Binary64.ofRatio significand 1 with
  | none => .error .numberOutOfRange
  | some x =>
    if exponent < 0 then .ok (scaleDown x (-exponent).toNat)
    else if x.mantissa = 0 then .ok x
    else if 308 < exponent then .error .numberOutOfRange
    else
      match (Binary64.ofRatio (Nat.pow 10 exponent.toNat) 1).bind x.mul with
      | some y => .ok y
      | none => .error .numberOutOfRange

/-- The error for a digit that is missing. -/
def missingDigit : Input → Error
  | [] => .endOfInput .value
  | _ :: _ => .invalidNumber

/-- An exponent after its letter. -/
def readExponent (s : Input) : Except Error (Int × Input) :=
  let (negative, s) : Bool × Input :=
    match s with
    | '+' :: r => (false, r)
    | '-' :: r => (true, r)
    | _ => (false, s)
  match s.takeWhile Char.isDigit with
  | [] => .error (missingDigit s)
  | ds =>
    let n := Text.Decimal.value ds
    .ok (if negative then -(n : Int) else n, s.dropWhile Char.isDigit)

/-- The exponent part of a number, if there is one. -/
def readExponentPart (s : Input) : Except Error (Option Int × Input) :=
  match s with
  | c :: r => if c = 'e' ∨ c = 'E' then (readExponent r).map fun (n, r) => (some n, r) else .ok (none, s)
  | [] => .ok (none, [])

/-- The integer that a sign and a significand denote; a negative zero and what 64 bits do not hold are floating. -/
def integerOf (negative : Bool) (significand : Nat) : Number :=
  if negative = false then .integer significand
  else if 0 < significand ∧ significand ≤ 1 <<< 63 then .integer (-significand)
  else .floating true ((Binary64.ofRatio significand 1).getD .zero)

/-- A number after its sign. -/
def readMagnitude (negative : Bool) (s : Input) : Except Error (Number × Input) := do
  let whole := s.takeWhile Char.isDigit
  let rest := s.dropWhile Char.isDigit
  if whole.isEmpty then throw (missingDigit s)
  if 1 < whole.length ∧ whole.head? = some '0' then throw .invalidNumber
  let (significand, left) := absorb 0 whole
  let (significand, exponent, rest, hasPoint) ←
    match rest with
    | '.' :: r =>
      let fraction := r.takeWhile Char.isDigit
      if fraction.isEmpty then throw (missingDigit r)
      let (significand, unused) := absorb significand fraction
      pure (significand, (left : Int) - (fraction.length - unused : Nat), r.dropWhile Char.isDigit, true)
    | _ => pure (significand, (left : Int), rest, false)
  match ← readExponentPart rest with
  | (none, rest) =>
    if hasPoint = false ∧ left = 0 then return (integerOf negative significand, rest)
    else return (.floating negative (← scaled significand exponent), rest)
  | (some e, rest) => return (.floating negative (← scaled significand (exponent + e)), rest)

/-- A number that begins with a digit or a minus sign. -/
def readNumber : Reader Number
  | '-' :: s => readMagnitude true s
  | s => readMagnitude false s

end Peering.Json
