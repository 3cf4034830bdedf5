import StyleSheet.Text.Hex

/-!
# Text from bytes

A file is bytes, and its text is their decoding as UTF-8.  Where a file is only compared
with what it should be, bytes that are no text must not stop the comparison: `lossy`
decodes what it can.  An invalid part becomes one replacement character; it is the
longest run of bytes that starts a character but does not end it, or a single byte that
starts none.
-/

namespace StyleSheet
namespace Text

/-- A byte that goes on a character. -/
def isTail (b : UInt8) : Bool := 0x80 ≤ b && b ≤ 0xBF

/-- For a byte that starts a character of several bytes: how many more it has, and the
least and the greatest value of the next one. -/
def leadByte? (b : UInt8) : Option (Nat × UInt8 × UInt8) :=
  if 0xC2 ≤ b && b ≤ 0xDF then some (1, 0x80, 0xBF)
  else if b == 0xE0 then some (2, 0xA0, 0xBF)
  else if b == 0xED then some (2, 0x80, 0x9F)
  else if 0xE1 ≤ b && b ≤ 0xEF then some (2, 0x80, 0xBF)
  else if b == 0xF0 then some (3, 0x90, 0xBF)
  else if 0xF1 ≤ b && b ≤ 0xF3 then some (3, 0x80, 0xBF)
  else if b == 0xF4 then some (3, 0x80, 0x8F)
  else none

/-- The bytes that go on a character, as far as they are right. -/
def tailBytes (count : Nat) (least greatest : UInt8) : List UInt8 → List UInt8
  | b :: bs =>
    if least ≤ b && b ≤ greatest then b :: (bs.take (count - 1)).takeWhile isTail else []
  | [] => []

/-- The character of the bits of its first byte and of the bytes that go on it, which
bring six bits each. -/
def decodeTail (bits : Nat) (tail : List UInt8) : Char :=
  Char.ofNat (tail.foldl (fun n t => n * 64 + t.toNat % 64) bits)

/-- The character that starts with the byte `b`, and how many more bytes it takes. -/
def decodeOne (b : UInt8) (bs : List UInt8) : Char × Nat :=
  if b < 0x80 then (Char.ofNat b.toNat, 0)
  else
    match leadByte? b with
    | none => (replacement, 0)
    | some (count, least, greatest) =>
      let tail := tailBytes count least greatest bs
      if tail.length = count then (decodeTail (b.toNat % Nat.pow 2 (6 - count)) tail, count)
      else (replacement, tail.length)

/-- The characters of bytes of which the first `skip` are read already. -/
def decodeFrom : Nat → List UInt8 → List Char
  | _, [] => []
  | skip + 1, _ :: bs => decodeFrom skip bs
  | 0, b :: bs =>
    let r := decodeOne b bs
    r.1 :: decodeFrom r.2 bs

/-- The text of bytes, if they are text. -/
def ofBytes? (bytes : ByteArray) : Option String := String.fromUTF8? bytes

/-- The text of bytes, with replacements for what is no text. -/
def lossy (bytes : ByteArray) : String :=
  match ofBytes? bytes with
  | some s => s
  | none => String.ofList (decodeFrom 0 bytes.data.toList)

theorem ofBytes?_toUTF8 (s : String) : ofBytes? s.toUTF8 = some s :=
  dif_pos s.isValidUTF8

theorem lossy_toUTF8 (s : String) : lossy s.toUTF8 = s := by
  rw [lossy, ofBytes?_toUTF8]

end Text
end StyleSheet
