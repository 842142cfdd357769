import Peering.Json.Binary64
import Peering.Text.Quoted

/-!
# Errors of reading and writing documents

An `Error` says what is wrong with a document: the text ends too early, it is no JSON, or the JSON is not what the
reader wants. Its `category` tells these three apart and its `message` is the text of the error.
-/

namespace Peering.Json

/-- A number by the form in which it is kept: an integer of 64 bits, or a floating point number with a sign. -/
inductive Number where
  | integer (n : Int)
  | floating (negative : Bool) (magnitude : Binary64)
deriving DecidableEq

/-- What was being read when the text ended. -/
inductive Enclosure where
  | value
  | string
  | list
  | object
deriving DecidableEq

/-- What stood where something else was wanted. -/
inductive Found where
  | null
  | boolean (b : Bool)
  | number (n : Number)
  | string (s : String)
  | sequence
  | map
deriving DecidableEq

/-- What is wrong with a document. -/
inductive Error where
  /-- The text ends within something. -/
  | endOfInput (inside : Enclosure)
  | expectedValue
  /-- A word other than the three that JSON has. -/
  | expectedWord
  | expectedColon
  | expectedCommaOrBracket
  | expectedCommaOrBrace
  | trailingComma
  | trailingCharacters
  | keyNotString
  | invalidNumber
  | numberOutOfRange
  | invalidEscape
  | controlCharacter
  /-- A half of a surrogate pair in the wrong place. -/
  | loneSurrogate
  /-- A first half of a surrogate pair without a second one. -/
  | endOfEscape
  /-- A value of the wrong type. -/
  | wrongType (found : Found) (wanted : String)
  /-- A value of the right type that is not wanted. -/
  | wrongValue (found : Found) (wanted : String)
  /-- A list with more elements than there are fields. -/
  | wrongLength (length : Nat)
  | unknownVariant (name : String) (known : List String)
  | duplicateField (name : String)
  /-- A value that its own reader or writer refuses. -/
  | refused (message : String)
deriving DecidableEq

/-- The three ways to be wrong. -/
inductive Category where
  | eof
  | syntactic
  | data
deriving DecidableEq

/-- The name of a category in reports. -/
def Category.name : Category → String
  | eof => "eof"
  | syntactic => "syntax"
  | data => "data"

/-- The text of a number. -/
def Number.message : Number → String
  | integer n => "integer `" ++ toString n ++ "`"
  | floating negative x =>
    "floating point `" ++ (if negative then "-" else "") ++ String.ofList x.chars ++ "`"

/-- The name of what the text ends within. -/
def Enclosure.name : Enclosure → String
  | value => "a value"
  | string => "a string"
  | list => "a list"
  | object => "an object"

/-- The description of what stood there. -/
def Found.message : Found → String
  | null => "null"
  | boolean b => "boolean `" ++ toString b ++ "`"
  | number n => n.message
  | string s => "string " ++ Text.quoted s
  | sequence => "sequence"
  | map => "map"

namespace Error

/-- Whether the text is cut short, is no JSON or is not what is wanted. -/
def category : Error → Category
  | endOfInput _ => .eof
  | wrongType .. => .data
  | wrongValue .. => .data
  | wrongLength _ => .data
  | unknownVariant .. => .data
  | duplicateField _ => .data
  | refused _ => .data
  | _ => .syntactic

/-- The text of an error. -/
def message : Error → String
  | endOfInput inside => "EOF while parsing " ++ inside.name
  | expectedValue => "expected value"
  | expectedWord => "expected ident"
  | expectedColon => "expected `:`"
  | expectedCommaOrBracket => "expected `,` or `]`"
  | expectedCommaOrBrace => "expected `,` or `\x7d`"
  | trailingComma => "trailing comma"
  | trailingCharacters => "trailing characters"
  | keyNotString => "key must be a string"
  | invalidNumber => "invalid number"
  | numberOutOfRange => "number out of range"
  | invalidEscape => "invalid escape"
  | controlCharacter => "control character (\\u0000-\\u001F) found while parsing a string"
  | loneSurrogate => "lone leading surrogate in hex escape"
  | endOfEscape => "unexpected end of hex escape"
  | wrongType found wanted => "invalid type: " ++ found.message ++ ", expected " ++ wanted
  | wrongValue found wanted => "invalid value: " ++ found.message ++ ", expected " ++ wanted
  | wrongLength n => "invalid length " ++ toString n ++ ", expected fewer elements in array"
  | unknownVariant name known =>
    "unknown variant `" ++ name ++ "`, expected one of "
      ++ ", ".intercalate (known.map fun k => "`" ++ k ++ "`")
  | duplicateField name => "duplicate field `" ++ name ++ "`"
  | refused text => text

end Error

end Peering.Json
