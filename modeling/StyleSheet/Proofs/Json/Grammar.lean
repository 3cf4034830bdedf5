import StyleSheet.Proofs.Json.Reader

/-!
# The texts of a JSON value

A value has many texts: white space can stand between any two tokens, and characters of strings
can be escaped in several ways.  `Tree.Spelled` says which texts a value has, as the grammar of
JSON does, and nothing here says how they are read.

Members of an object are a list of keys and values, in the order in which they are written, and
one key can be there more than once.  The grammar permits that, so it is for readers to refuse
it.  Numbers are kept as they are written, since no reader here takes one.
-/

namespace StyleSheet
namespace Json

open Text

/-! ## Strings -/

/-- Four hexadecimal digits of a number. -/
structure HexText (n : Nat) (u : List Char) : Prop where
  length : u.length = 4
  digits : u.all isHexDigit = true
  number : hexNumber u = n

/-- The letters and marks that stand for a character after a backslash. -/
def shortEscapes : List (Char × Char) :=
  [('"', '"'), ('\\', '\\'), ('/', '/'), ('b', '\x08'), ('f', '\x0c'), ('n', '\n'), ('r', '\r'),
    ('t', '\t')]

/-- The texts of a character in a string. -/
inductive CharText : Char → List Char → Prop
  | plain {c : Char} (hquote : c ≠ '"') (hbackslash : c ≠ '\\') (hcontrol : 0x20 ≤ c.toNat) :
    CharText c [c]
  | short {c e : Char} (h : (e, c) ∈ shortEscapes) : CharText c ['\\', e]
  | hex {c : Char} {u : List Char} (h : HexText c.toNat u) : CharText c ('\\' :: 'u' :: u)
  /-- A character beyond the first plane has an escape of two surrogates. -/
  | pair {c : Char} {high low : List Char} (hc : 0x10000 ≤ c.toNat)
    (hhigh : HexText (0xD800 + (c.toNat - 0x10000) / 0x400) high)
    (hlow : HexText (0xDC00 + (c.toNat - 0x10000) % 0x400) low) :
    CharText c ('\\' :: 'u' :: (high ++ '\\' :: 'u' :: low))

/-- The texts of a string after its opening quote. -/
inductive StringText : List Char → List Char → Prop
  | nil : StringText [] ['"']
  | cons {c : Char} {s u v : List Char} (hc : CharText c u) (hs : StringText s v) :
    StringText (c :: s) (u ++ v)

/-! ## Numbers -/

/-- Digits without leading zeros. -/
inductive IsWhole : List Char → Prop
  | zero : IsWhole ['0']
  | digits {c : Char} {u : List Char} (hc : c.isDigit = true) (hzero : c ≠ '0')
    (hu : ∀ d ∈ u, d.isDigit = true) : IsWhole (c :: u)

inductive IsFraction : List Char → Prop
  | none : IsFraction []
  | digits {u : List Char} (hempty : u ≠ []) (hu : ∀ d ∈ u, d.isDigit = true) :
    IsFraction ('.' :: u)

inductive IsExponent : List Char → Prop
  | none : IsExponent []
  | digits {mark : Char} {sign u : List Char} (hmark : mark = 'e' ∨ mark = 'E')
    (hsign : sign = [] ∨ sign = ['+'] ∨ sign = ['-']) (hempty : u ≠ [])
    (hu : ∀ d ∈ u, d.isDigit = true) : IsExponent (mark :: (sign ++ u))

/-- A written number. -/
inductive IsNumber : List Char → Prop
  | mk {sign whole fraction exponent : List Char} (hsign : sign = [] ∨ sign = ['-'])
    (hwhole : IsWhole whole) (hfraction : IsFraction fraction) (hexponent : IsExponent exponent) :
    IsNumber (sign ++ (whole ++ (fraction ++ exponent)))

/-! ## Values -/

/-- A value. -/
inductive Tree where
  | null
  | boolean (value : Bool)
  | number (text : List Char)
  | string (s : String)
  | list (items : List Tree)
  | object (members : List (String × Tree))

/-- The texts of items that are still to come, up to and with what closes them. -/
inductive ItemsText {α : Type} (close : Char) (Spelled : α → List Char → Prop) :
    Bool → List α → List Char → Prop
  | close {first : Bool} {w : List Char} (hw : IsSpaces w) :
    ItemsText close Spelled first [] (w ++ [close])
  | item {first : Bool} {w t u : List Char} {a : α} {as : List α} (hw : Separates first w)
    (ha : Spelled a t) (has : ItemsText close Spelled false as u) :
    ItemsText close Spelled first (a :: as) (w ++ (t ++ u))

/-- The texts of a member of an object. -/
inductive MemberText {α : Type} (Spelled : α → List Char → Prop) : String × α → List Char → Prop
  | mk {key : String} {a : α} {k w w' v : List Char} (hkey : StringText key.toList k)
    (hw : IsSpaces w) (hw' : IsSpaces w') (ha : Spelled a v) :
    MemberText Spelled (key, a) ('"' :: (k ++ (w ++ ':' :: (w' ++ v))))

/-- The texts of a value, without white space around it. -/
inductive Tree.Spelled : Tree → List Char → Prop
  | null : Spelled .null ['n', 'u', 'l', 'l']
  | true : Spelled (.boolean true) ['t', 'r', 'u', 'e']
  | false : Spelled (.boolean false) ['f', 'a', 'l', 's', 'e']
  | number {text : List Char} (h : IsNumber text) : Spelled (.number text) text
  | string {s : String} {u : List Char} (h : StringText s.toList u) : Spelled (.string s) ('"' :: u)
  | list {items : List Tree} {u : List Char} (h : ItemsText ']' Spelled true items u) :
    Spelled (.list items) ('[' :: u)
  | object {members : List (String × Tree)} {u : List Char}
    (h : ItemsText '}' (MemberText Spelled) true members u) :
    Spelled (.object members) ('\x7b' :: u)

/-- The value of a document. -/
def Tree.IsDocument (tree : Tree) (document : String) : Prop :=
  ∃ w t w', IsSpaces w ∧ tree.Spelled t ∧ IsSpaces w' ∧ document.toList = w ++ (t ++ w')

end Json
end StyleSheet
