import StyleSheet.Numeric.Numeral
import StyleSheet.Text.Quoted

/-!
# Errors in a JSON document

An error has a cause and a place, given by line and column.  Lines count from one; the
column is the number of bytes between the last line end before the place and the place
itself.

Inside the readers a place is the text that is left there (`Fault`), which needs no
counting while reading, and becomes a line and a column only once, when the whole
document is at hand (`Fault.locate`).  A place is given in bytes, and an error can lie
in the middle of a character, so a fault also says how many bytes past the start of the
text that is left it lies.
-/

namespace StyleSheet
namespace Json

/-- A value that was found where another kind of value belongs. -/
inductive Found where
  | null
  | boolean (value : Bool)
  | integer (value : Int)
  /-- A number with a fraction or an exponent, by sign and bits of the magnitude. -/
  | float (negative : Bool) (magnitude : Nat)
  | text (value : String)
  | sequence
  | map
  deriving DecidableEq

/-- The written form of a 64-bit number in a message; of two equally near decimals the
one with an even last digit. -/
def floatText (negative : Bool) (magnitude : Nat) : String :=
  let digits :=
    if magnitude = 0 then ['0', '.', '0']
    else (Numeric.binary64.shortest .even magnitude).scientific
  String.ofList (if negative then '-' :: digits else digits)

/-- A found value in words. -/
def Found.describe : Found → String
  | .null => "null"
  | .boolean true => "boolean `true`"
  | .boolean false => "boolean `false`"
  | .integer n => "integer `" ++ toString n ++ "`"
  | .float negative magnitude => "floating point `" ++ floatText negative magnitude ++ "`"
  | .text s => "string " ++ String.ofList (Text.quoted s.toList)
  | .sequence => "sequence"
  | .map => "map"

/-- What is wrong with a document. -/
inductive Cause where
  | endInValue
  | endInList
  | endInObject
  | endInString
  | expectedValue
  | expectedColon
  | expectedCommaOrBracket
  | expectedCommaOrBrace
  | expectedIdent
  | keyNotString
  | trailingComma
  | trailingCharacters
  | invalidNumber
  | numberOutOfRange
  | invalidEscape
  | endOfHexEscape
  | loneSurrogate
  | controlCharacter
  | invalidType (found : Found) (expected : String)
  | invalidLength (length : Nat) (expected : String)
  | unknownField (key : String) (known : List String)
  | duplicateField (key : String)
  | missingField (key : String)
  deriving DecidableEq

/-- A list of names as alternatives. -/
def alternatives (names : List String) : String :=
  String.intercalate " or " (names.map fun n => "`" ++ n ++ "`")

/-- A cause in words. -/
def Cause.describe : Cause → String
  | .endInValue => "EOF while parsing a value"
  | .endInList => "EOF while parsing a list"
  | .endInObject => "EOF while parsing an object"
  | .endInString => "EOF while parsing a string"
  | .expectedValue => "expected value"
  | .expectedColon => "expected `:`"
  | .expectedCommaOrBracket => "expected `,` or `]`"
  | .expectedCommaOrBrace => "expected `,` or `\x7d`"
  | .expectedIdent => "expected ident"
  | .keyNotString => "key must be a string"
  | .trailingComma => "trailing comma"
  | .trailingCharacters => "trailing characters"
  | .invalidNumber => "invalid number"
  | .numberOutOfRange => "number out of range"
  | .invalidEscape => "invalid escape"
  | .endOfHexEscape => "unexpected end of hex escape"
  | .loneSurrogate => "lone leading surrogate in hex escape"
  | .controlCharacter => "control character (\\u0000-\\u001F) found while parsing a string"
  | .invalidType found expected =>
    "invalid type: " ++ found.describe ++ ", expected " ++ expected
  | .invalidLength length expected =>
    "invalid length " ++ Nat.repr length ++ ", expected " ++ expected
  | .unknownField key known =>
    "unknown field `" ++ key ++ "`, expected " ++ alternatives known
  | .duplicateField key => "duplicate field `" ++ key ++ "`"
  | .missingField key => "missing field `" ++ key ++ "`"

/-- An error in a document. -/
structure Error where
  cause : Cause
  line : Nat
  column : Nat
  deriving DecidableEq

/-- What is reported about an error. -/
def Error.message (e : Error) : String :=
  e.cause.describe ++ " at line " ++ Nat.repr e.line ++ " column " ++ Nat.repr e.column

/-- An error as the readers raise it. -/
structure Fault where
  cause : Cause
  /-- The text that is left. -/
  rest : List Char
  /-- Bytes from the start of the text that is left to the place of the error. -/
  past : Nat
  deriving DecidableEq

namespace Fault

/-- A fault before the text that is left. -/
def here (cause : Cause) (rest : List Char) : Fault := ⟨cause, rest, 0⟩

/-- A fault about the next byte, if there is one. -/
def next (cause : Cause) (rest : List Char) : Fault := ⟨cause, rest, if rest = [] then 0 else 1⟩

/-- Number of bytes of a text. -/
def byteCount : List Char → Nat
  | [] => 0
  | c :: cs => c.utf8Size + byteCount cs

/-- Line and column after so many bytes of a text that starts at the given ones. -/
def advance (line column : Nat) : List Char → Nat → Nat × Nat
  | [], _ => (line, column)
  | c :: cs, n =>
    if n < c.utf8Size then (line, column + n)
    else if c = '\n' then advance (line + 1) 0 cs (n - 1)
    else advance line (column + c.utf8Size) cs (n - c.utf8Size)

/-- The fault as an error in the whole document. -/
def locate (f : Fault) (document : List Char) : Error :=
  let place := advance 1 0 document (byteCount document - byteCount f.rest + f.past)
  ⟨f.cause, place.1, place.2⟩

end Fault
end Json
end StyleSheet
