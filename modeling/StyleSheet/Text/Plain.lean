/-!
# Plain text

Text can hold characters that a terminal acts on instead of showing them, and such text
must not reach a terminal by way of a log.  `plain` takes them out: control characters
other than white space, and escape sequences with all that belongs to them.

## Escape sequences

An escape sequence starts with the escape character, and what comes next decides how far
it goes.

* After `[` it is a control sequence, which ends with a character from `@` to `~`.
* After `]` it is a command to the terminal, which ends with a bell.
* After `P` it is a device sequence: parameters, and then a string.
* After `X`, `^` or `_` it is a string, which ends with the byte `9C`.  Text is read by
  bytes here, so any character that has this byte in it will do.
* Otherwise it is at most a few characters before `0`, and one more character.

Another escape character starts anew, and the characters `18` and `1A` end everything.

## White space in a sequence

White space is shown even in a sequence, unless in a string or a command.  Text after it
is shown as well, up to the next control character, with which the sequence goes on; a
character outside of ASCII ends the sequence for good.
-/

namespace StyleSheet
namespace Text

/-- What a character of a text belongs to. -/
inductive Passage where
  | text
  | escape
  | intermediate
  | control
  | deviceStart
  | deviceParameters
  | deviceIntermediate
  | string
  | command
  deriving DecidableEq

/-- Whether a character is between two others. -/
def isBetween (first last c : Char) : Bool := first ≤ c && c ≤ last

/-- White space that controls where text is shown. -/
def isLayout (c : Char) : Bool := c == '\t' || c == '\n' || c == '\x0c' || c == '\r'

/-- Whether a character of a text is shown. -/
def isPlain (c : Char) : Bool := (' ' ≤ c && c != '\x7f') || isLayout c

/-- Whether a character ends a string. -/
def endsString (c : Char) : Bool := (String.utf8EncodeChar c).contains 0x9C

namespace Passage

/-- Whether a character is shown. -/
def shows : Passage → Char → Bool
  | text, c => isPlain c
  | escape, c => isLayout c
  | intermediate, c => isLayout c
  | control, c => isLayout c
  | _, _ => false

/-- What the character after `c` belongs to, where `c` is none that is the same
everywhere. -/
def advance : Passage → Char → Passage
  | text, _ => text
  | escape, c =>
    if c = '[' then control
    else if c = ']' then command
    else if c = 'P' then deviceStart
    else if c = 'X' ∨ c = '^' ∨ c = '_' then string
    else if isBetween ' ' '/' c then intermediate
    else if isBetween '0' '~' c then text
    else escape
  | intermediate, c => if isBetween '0' '~' c then text else intermediate
  | control, c => if isBetween '@' '~' c then text else control
  | deviceStart, c =>
    if isBetween ' ' '/' c then deviceIntermediate
    else if isBetween '0' '?' c then deviceParameters
    else if isBetween '@' '~' c then string
    else deviceStart
  | deviceParameters, c =>
    if isBetween ' ' '/' c then deviceIntermediate
    else if isBetween '<' '~' c then string
    else deviceParameters
  | deviceIntermediate, c => if isBetween '0' '~' c then string else deviceIntermediate
  | string, c => if endsString c then text else string
  | command, c => if c = '\x07' then text else command

/-- What the character after `c` belongs to. -/
def next (p : Passage) (c : Char) : Passage :=
  if c = '\x1b' then escape
  else if c = '\x18' ∨ c = '\x1a' then text
  else p.advance c

end Passage

/-- What is shown of a text from some character on.  The flag says that white space has
interrupted the passage. -/
def plainFrom : Passage → Bool → List Char → List Char
  | _, _, [] => []
  | p, true, c :: cs =>
    if isPlain c then c :: plainFrom (if c.val < 0x80 then p else .text) true cs
    else plainFrom (p.next c) false cs
  | p, false, c :: cs =>
    if p.shows c then c :: plainFrom p true cs else plainFrom (p.next c) false cs

/-- What is shown of a text. -/
def plain (s : List Char) : List Char := plainFrom .text false s

end Text
end StyleSheet
