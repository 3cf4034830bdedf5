import StyleSheet.Text.Hex

/-!
# Names, escapes and the other lexical elements of a sheet

This module measures the elements whose end has to be searched for: names with their
escapes, quoted strings, comments and unquoted addresses.  Each function is given the
text from some point on and says how many of its characters belong to the element; a
name also has a value, since its escapes stand for characters.

No element fails.  A string ends before a line end that is not escaped, and whatever is
open at the end of the text ends there.

An escape is longer than one character, so functions that meet escapes have a first
argument `skip`: so many characters are already known to belong to an escape, and are
counted without being looked at.  With it, all of them recurse on the text alone.
-/

namespace StyleSheet
namespace Reader

open Text

/-- A blank between tokens. -/
def isBlank (c : Char) : Bool :=
  c == ' ' || c == '\t' || c == '\n' || c == '\r' || c == '\x0c'

/-- A character that ends a line. -/
def isNewline (c : Char) : Bool := c == '\n' || c == '\r' || c == '\x0c'

/-- Whether a line ends here. -/
def startsNewline : List Char → Bool
  | c :: _ => isNewline c
  | [] => false

/-- A character that can start a name: a letter, `_`, `NUL`, or any character beyond
ASCII. -/
def isNameStart (c : Char) : Bool :=
  c.isAlpha || c == '_' || c == '\x00' || 0x80 ≤ c.toNat

/-- A character that can go on a name. -/
def isNameChar (c : Char) : Bool := isNameStart c || c.isDigit || c == '-'

/-- Whether a name starts here.  After a hyphen only the next character is looked at. -/
def startsName : List Char → Bool
  | '-' :: c :: _ => isNameStart c || c == '-' || c == '\\'
  | '\\' :: cs => !startsNewline cs
  | c :: _ => isNameStart c
  | [] => false

/-- The character that a numeric escape stands for; `NUL` is none. -/
def escapedChar (n : Nat) : Char := if n = 0 then replacement else charOfNat n

/-- Length of the blank that ends a numeric escape: at most one, where a carriage return
and a line feed count as one. -/
def blankLength : List Char → Nat
  | '\r' :: '\n' :: _ => 2
  | c :: _ => if isBlank c then 1 else 0
  | [] => 0

/-- The character that an escape stands for, and the length of the escape after its
backslash: up to six hexadecimal digits and a blank, or any other character. -/
def escape : List Char → Char × Nat
  | [] => (replacement, 0)
  | c :: cs =>
    if isHexDigit c then
      let digits := ((c :: cs).take 6).takeWhile isHexDigit
      (escapedChar (hexNumber digits),
        digits.length + blankLength ((c :: cs).drop digits.length))
    else if c = '\x00' then (replacement, 1)
    else (c, 1)

/-- The value and the length of the longest run of name characters and escapes. -/
def name : Nat → List Char → List Char × Nat
  | _, [] => ([], 0)
  | skip + 1, _ :: cs =>
    let r := name skip cs
    (r.1, r.2 + 1)
  | 0, c :: cs =>
    if isNameChar c then
      let r := name 0 cs
      ((if c = '\x00' then replacement else c) :: r.1, r.2 + 1)
    else if c = '\\' ∧ !startsNewline cs then
      let e := escape cs
      let r := name e.2 cs
      (e.1 :: r.1, r.2 + 1)
    else ([], 0)

/-- Length of an escape in a string after its backslash; a line end can be escaped. -/
def stringEscape : List Char → Nat
  | '\r' :: '\n' :: _ => 2
  | c :: cs => if isNewline c then 1 else (escape (c :: cs)).2
  | [] => 0

/-- Length of a string after its opening quote. -/
def stringLength (quote : Char) : Nat → List Char → Nat
  | _, [] => 0
  | skip + 1, _ :: cs => stringLength quote skip cs + 1
  | 0, c :: cs =>
    if c = quote then 1
    else if isNewline c then 0
    else if c = '\\' then stringLength quote (stringEscape cs) cs + 1
    else stringLength quote 0 cs + 1

/-- Length of a comment after its opening. -/
def commentLength : List Char → Nat
  | [] => 0
  | '*' :: '/' :: _ => 2
  | _ :: cs => commentLength cs + 1

/-- Length of the rest of a malformed address. -/
def badUrlLength : List Char → Nat
  | [] => 0
  | ')' :: _ => 1
  | '\\' :: ')' :: cs => badUrlLength cs + 2
  | '\\' :: '\\' :: cs => badUrlLength cs + 2
  | _ :: cs => badUrlLength cs + 1

/-- Length of the rest of an address after a blank. -/
def urlEndLength : List Char → Nat
  | [] => 0
  | c :: cs =>
    if isBlank c then urlEndLength cs + 1
    else if c = ')' then 1
    else badUrlLength cs + 1

/-- A character that an address cannot hold. -/
def isRefusedInUrl (c : Char) : Bool :=
  (0x01 ≤ c.toNat && c.toNat ≤ 0x08) || c.toNat == 0x0B ||
    (0x0E ≤ c.toNat && c.toNat ≤ 0x1F) || c.toNat == 0x7F || c == '"' || c == '\x27' || c == '('

/-- Length of an address from its first character that is not blank. -/
def urlLength : Nat → List Char → Nat
  | _, [] => 0
  | skip + 1, _ :: cs => urlLength skip cs + 1
  | 0, c :: cs =>
    if isBlank c then urlEndLength cs + 1
    else if c = ')' then 1
    else if isRefusedInUrl c then badUrlLength cs + 1
    else if c = '\\' then
      if startsNewline cs then badUrlLength cs + 1
      else urlLength (escape cs).2 cs + 1
    else urlLength 0 cs + 1

/-- Length of an unquoted address after `url(`; an address in quotes is an ordinary
function with a string in it. -/
def unquotedUrl? (cs : List Char) : Option Nat :=
  let blanks := (cs.takeWhile isBlank).length
  let rest := cs.drop blanks
  if rest.head? = some '"' ∨ rest.head? = some '\x27' then none
  else some (blanks + urlLength 0 rest)

/-- Whether a name is `url`, capital or not. -/
def isUrlName (value : List Char) : Bool := value.map Char.toLower == ['u', 'r', 'l']

end Reader
end StyleSheet
