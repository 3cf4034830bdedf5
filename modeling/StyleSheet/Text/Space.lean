/-!
# White space

The characters with the property `White_Space`, and the text between the white space at
both ends.  A style sheet's own blanks (`Reader.isBlank`) are only five of them.
-/

namespace StyleSheet
namespace Text

/-- Whether a character is white space. -/
def isSpace (c : Char) : Bool :=
  let n := c.toNat
  (0x09 ≤ n && n ≤ 0x0D) || n == 0x20 || n == 0x85 || n == 0xA0 || n == 0x1680 ||
    (0x2000 ≤ n && n ≤ 0x200A) || n == 0x2028 || n == 0x2029 || n == 0x202F || n == 0x205F ||
    n == 0x3000

/-- The text without white space at its start. -/
def trimStart (s : List Char) : List Char := s.dropWhile isSpace

/-- The text without white space at its end. -/
def trimEnd (s : List Char) : List Char := (trimStart s.reverse).reverse

/-- The text without white space at both ends. -/
def trim (s : List Char) : List Char := trimEnd (trimStart s)

@[simp] theorem trim_nil : trim [] = [] := rfl

end Text
end StyleSheet
