import Peering.Json.Scan

/-!
# Skipping a value

The value of an unknown key is checked for its form and forgotten. The check is an automaton over single characters
with the open lists and objects on a stack, so values may be nested to any depth. It asks less than reading does: a code
unit in a string may be half a surrogate pair, and a number may be of any size.
-/

namespace Peering.Json

/-- What is open around a value. -/
inductive Frame where
  | list
  | object
deriving DecidableEq

namespace Frame

/-- The character that closes it. -/
def closing : Frame → Char
  | list => ']'
  | object => '}'

/-- The error for a text that ends within it. -/
def endOfInput : Frame → Error
  | list => .endOfInput .list
  | object => .endOfInput .object

/-- The error for something other than a comma or the end. -/
def missingComma : Frame → Error
  | list => .expectedCommaOrBracket
  | object => .expectedCommaOrBrace

end Frame

namespace Skip

/-- Where in a value the next character stands. -/
inductive State where
  /-- A value begins. -/
  | value
  /-- A list or an object has been opened. -/
  | opened
  /-- A value has ended within a list or an object. -/
  | after
  /-- A key begins. -/
  | key
  /-- A key has ended. -/
  | colon
  /-- The rest of a word. -/
  | word (rest : List Char)
  /-- Within a string, which may be a key. -/
  | string (isKey : Bool)
  /-- After a backslash. -/
  | escape (isKey : Bool)
  /-- Before the given number of hexadecimal digits. -/
  | hex (isKey : Bool) (count : Nat)
  /-- After a minus sign. -/
  | minus
  /-- After a zero at the front of a number. -/
  | zero
  /-- Within the digits before the point. -/
  | whole
  /-- After the point. -/
  | point
  /-- Within the digits after the point. -/
  | fraction
  /-- After the letter of the exponent. -/
  | exponent
  /-- After the sign of the exponent. -/
  | exponentSign
  /-- Within the digits of the exponent. -/
  | power
deriving DecidableEq

/-- What a character does. -/
inductive Step where
  /-- The value goes on. -/
  | next (state : State) (stack : List Frame)
  /-- The value ends with this character. -/
  | last
  /-- The value has ended before this character. -/
  | before
  | fail (e : Error)

/-- A value has ended with the character at hand. -/
def ended : List Frame → Step
  | [] => .last
  | stack => .next .after stack

/-- The character after a value. -/
def stepAfter (stack : List Frame) (c : Char) : Step :=
  match stack with
  | [] => .before
  | f :: outer =>
    if isBlank c then .next .after stack
    else if c = ',' then .next (if f = .object then .key else .value) stack
    else if c = f.closing then ended outer
    else .fail f.missingComma

/-- The first character of a value. -/
def stepValue (stack : List Frame) (c : Char) : Step :=
  if isBlank c then .next .value stack
  else if c = '[' then .next .opened (.list :: stack)
  else if c = '{' then .next .opened (.object :: stack)
  else if c = '"' then .next (.string false) stack
  else if c = 'n' then .next (.word ['u', 'l', 'l']) stack
  else if c = 't' then .next (.word ['r', 'u', 'e']) stack
  else if c = 'f' then .next (.word ['a', 'l', 's', 'e']) stack
  else if c = '-' then .next .minus stack
  else if c = '0' then .next .zero stack
  else if c.isDigit then .next .whole stack
  else .fail .expectedValue

/-- The first character of a key. -/
def stepKey (stack : List Frame) (c : Char) : Step :=
  if isBlank c then .next .key stack
  else if c = '"' then .next (.string true) stack
  else .fail .keyNotString

/-- The character after an opening bracket or brace. -/
def stepOpened (stack : List Frame) (c : Char) : Step :=
  match stack with
  | [] => .before
  | f :: outer =>
    if isBlank c then .next .opened stack
    else if c = f.closing then ended outer
    else if f = .object then stepKey stack c
    else stepValue stack c

/-- The character after the digits before the point. -/
def stepWholeEnd (stack : List Frame) (c : Char) : Step :=
  if c = '.' then .next .point stack
  else if c = 'e' ∨ c = 'E' then .next .exponent stack
  else stepAfter stack c

/-- What the character `c` does before the text `rest`. -/
def step (state : State) (stack : List Frame) (c : Char) (rest : Input) : Step :=
  match state with
  | .value => stepValue stack c
  | .opened => stepOpened stack c
  | .after => stepAfter stack c
  | .key => stepKey stack c
  | .colon => if isBlank c then .next .colon stack else if c = ':' then .next .value stack else .fail .expectedColon
  | .word [] => stepAfter stack c
  | .word (w :: ws) =>
    if c ≠ w then .fail .expectedWord else if ws.isEmpty then ended stack else .next (.word ws) stack
  | .string isKey =>
    if c = '"' then if isKey then .next .colon stack else ended stack
    else if c = '\\' then .next (.escape isKey) stack
    else if isControl c then .fail .controlCharacter
    else .next (.string isKey) stack
  | .escape isKey =>
    if (simpleEscape? c).isSome then .next (.string isKey) stack
    else if c ≠ 'u' then .fail .invalidEscape
    else if (String.ofList (rest.take 4)).utf8ByteSize < 4 then .fail (.endOfInput .string)
    else .next (.hex isKey 4) stack
  | .hex isKey n =>
    if (Text.Hexadecimal.digit? c).isNone then .fail .invalidEscape
    else if n ≤ 1 then .next (.string isKey) stack
    else .next (.hex isKey (n - 1)) stack
  | .minus => if c = '0' then .next .zero stack else if c.isDigit then .next .whole stack else .fail .invalidNumber
  | .zero => if c.isDigit then .fail .invalidNumber else stepWholeEnd stack c
  | .whole => if c.isDigit then .next .whole stack else stepWholeEnd stack c
  | .point => if c.isDigit then .next .fraction stack else .fail .invalidNumber
  | .fraction =>
    if c.isDigit then .next .fraction stack
    else if c = 'e' ∨ c = 'E' then .next .exponent stack
    else stepAfter stack c
  | .exponent =>
    if c = '+' ∨ c = '-' then .next .exponentSign stack
    else if c.isDigit then .next .power stack
    else .fail .invalidNumber
  | .exponentSign => if c.isDigit then .next .power stack else .fail .invalidNumber
  | .power => if c.isDigit then .next .power stack else stepAfter stack c

/-- The end of the text after a value. -/
def atEndAfter : List Frame → Except Error Input
  | [] => .ok []
  | f :: _ => .error f.endOfInput

/-- The end of the text. -/
def atEnd (state : State) (stack : List Frame) : Except Error Input :=
  match state with
  | .value => .error (.endOfInput .value)
  | .opened => atEndAfter stack
  | .after => atEndAfter stack
  | .key => .error (.endOfInput .object)
  | .colon => .error (.endOfInput .object)
  | .word _ => .error (.endOfInput .value)
  | .string _ => .error (.endOfInput .string)
  | .escape _ => .error (.endOfInput .string)
  | .hex .. => .error (.endOfInput .string)
  | .minus => .error .invalidNumber
  | .point => .error .invalidNumber
  | .exponent => .error .invalidNumber
  | .exponentSign => .error .invalidNumber
  | .zero => atEndAfter stack
  | .whole => atEndAfter stack
  | .fraction => atEndAfter stack
  | .power => atEndAfter stack

/-- Runs the automaton and gives the text after the value. -/
def run (state : State) (stack : List Frame) : Input → Except Error Input
  | [] => atEnd state stack
  | c :: r =>
    match step state stack c r with
    | .next state stack => run state stack r
    | .last => .ok r
    | .before => .ok (c :: r)
    | .fail e => .error e

end Skip

/-- Skips a value and the blanks before it. -/
def skipValue (s : Input) : Except Error Input := Skip.run .value [] s

end Peering.Json
