import StyleSheet.Json.Error

/-!
# JSON strings

`readString` reads a string after its opening quote.  Characters stand for themselves,
except controls, which must be escaped; an escape is a letter or four hexadecimal
digits, and two of the latter together stand for a character beyond the first plane.

`stringText` writes a string, with the shortest escape of each character that needs one.
-/

namespace StyleSheet
namespace Json

open Text

/-- Four hexadecimal digits.  They are looked for in the next four bytes, which can be
fewer characters. -/
def hexEscape (s : List Char) : Except Fault Nat :=
  let digits := s.take 4
  if digits.length = 4 ∧ digits.all isHexDigit then .ok (hexNumber digits)
  else if Fault.byteCount digits < 4 then .error (.here .endInString [])
  else .error ⟨.invalidEscape, s, 4⟩

/-- Whether a number is that of a surrogate that comes first. -/
def isHighSurrogate (n : Nat) : Bool := 0xD800 ≤ n && n ≤ 0xDBFF

/-- Whether a number is that of a surrogate that comes second. -/
def isLowSurrogate (n : Nat) : Bool := 0xDC00 ≤ n && n ≤ 0xDFFF

/-- The character of two surrogates. -/
def surrogatePair (high low : Nat) : Char :=
  Char.ofNat ((high - 0xD800) * 0x400 + (low - 0xDC00) + 0x10000)

/-- The character of a numeric escape after its `u`, and the number of characters read. -/
def unicodeEscape (s : List Char) : Except Fault (Char × Nat) :=
  match hexEscape s with
  | .error f => .error f
  | .ok n =>
    let rest := s.drop 4
    if isLowSurrogate n then .error (.here .loneSurrogate rest)
    else if isHighSurrogate n then
      match rest with
      | [] => .error (.here .endInString [])
      | '\\' :: 'u' :: more =>
        match hexEscape more with
        | .error f => .error f
        | .ok low =>
          if isLowSurrogate low then .ok (surrogatePair n low, 10)
          else .error (.here .loneSurrogate (more.drop 4))
      | ['\\'] => .error (.here .endInString [])
      | '\\' :: more => .error ⟨.endOfHexEscape, more, 1⟩
      | _ => .error ⟨.endOfHexEscape, rest, 1⟩
    else .ok (Char.ofNat n, 4)

/-- The character of an escape after its backslash, and the number of characters read. -/
def readEscape : List Char → Except Fault (Char × Nat)
  | [] => .error (.here .endInString [])
  | '"' :: _ => .ok ('"', 1)
  | '\\' :: _ => .ok ('\\', 1)
  | '/' :: _ => .ok ('/', 1)
  | 'b' :: _ => .ok ('\x08', 1)
  | 'f' :: _ => .ok ('\x0c', 1)
  | 'n' :: _ => .ok ('\n', 1)
  | 'r' :: _ => .ok ('\r', 1)
  | 't' :: _ => .ok ('\t', 1)
  | 'u' :: cs =>
    match unicodeEscape cs with
    | .error f => .error f
    | .ok (c, n) => .ok (c, n + 1)
  | s => .error ⟨.invalidEscape, s, 1⟩

/-- The rest of a string of which the first `skip` characters are read already, and what
follows it. -/
def readStringFrom : Nat → List Char → Except Fault (List Char × List Char)
  | _, [] => .error (.here .endInString [])
  | skip + 1, _ :: cs => readStringFrom skip cs
  | 0, c :: cs =>
    if c = '"' then .ok ([], cs)
    else if c = '\\' then
      match readEscape cs with
      | .error f => .error f
      | .ok (e, n) =>
        match readStringFrom n cs with
        | .error f => .error f
        | .ok (s, rest) => .ok (e :: s, rest)
    else if c.toNat < 0x20 then .error (.here .controlCharacter cs)
    else
      match readStringFrom 0 cs with
      | .error f => .error f
      | .ok (s, rest) => .ok (c :: s, rest)

/-- A string after its opening quote, and what follows it. -/
def readString (s : List Char) : Except Fault (List Char × List Char) := readStringFrom 0 s

theorem readStringFrom_eq (n : Nat) (s : List Char) :
    readStringFrom n s = readString (s.drop n) := by
  induction s generalizing n with
  | nil => simp [readString, readStringFrom]
  | cons c cs ih =>
    cases n with
    | zero => rfl
    | succ n => simpa [readStringFrom] using ih n

/-- A character as it is written in a string. -/
def stringChar (c : Char) : List Char :=
  if c = '"' then ['\\', '"']
  else if c = '\\' then ['\\', '\\']
  else if c = '\x08' then ['\\', 'b']
  else if c = '\x0c' then ['\\', 'f']
  else if c = '\n' then ['\\', 'n']
  else if c = '\r' then ['\\', 'r']
  else if c = '\t' then ['\\', 't']
  else if c.toNat < 0x20 then
    ['\\', 'u', '0', '0', Nat.digitChar (c.toNat / 16), Nat.digitChar (c.toNat % 16)]
  else [c]

/-- A string as it is written. -/
def stringText (s : List Char) : List Char := '"' :: (s.flatMap stringChar ++ ['"'])

end Json
end StyleSheet
