import StyleSheet.Text.Hex
import StyleSheet.Text.Invisible

/-!
# Quoted text in messages

A message that quotes text shows every character of it: the quote, the backslash and the
common controls by a letter after a backslash, and characters that do not show, or that
would join the one before them, by their number.  A single quote needs no escape.
-/

namespace StyleSheet
namespace Text

/-- A character as it is shown between quotes. -/
def quotedChar (c : Char) : List Char :=
  if c = '"' then ['\\', '"']
  else if c = '\\' then ['\\', '\\']
  else if c = '\n' then ['\\', 'n']
  else if c = '\r' then ['\\', 'r']
  else if c = '\t' then ['\\', 't']
  else if c = '\x00' then ['\\', '0']
  else if isJoiningMark c || isUnprintable c || isIgnorable c then
    '\\' :: 'u' :: '{' :: (hexText c.toNat ++ ['}'])
  else [c]

/-- Text in quotes. -/
def quoted (s : List Char) : List Char := '"' :: (s.flatMap quotedChar ++ ['"'])

end Text
end StyleSheet
