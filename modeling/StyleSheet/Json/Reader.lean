import StyleSheet.Json.Number
import StyleSheet.Json.Text

/-!
# Reading JSON by shape

A document is read straight into the type it is for: a reader takes the text from some
point on, and gives a value and the text that is left, or a fault.

## Records

A record can be spelled as an object, with its members in any order, or as a list of
its members in their own order.  Members that are optional can be left out; the others
cannot, no member can be there twice, and no other member can be there at all.

A fault about the members of an object, other than one inside a member's value, is
reported only after the reader has tried to close the object: after white space, and
after the closing brace if it comes next.

## A value of the wrong kind

Such a value is read before it is reported, so that what is wrong inside it is reported
first; of a list or an object only the opening is looked at.
-/

namespace StyleSheet
namespace Json

/-- A reader of values. -/
abbrev Reader (α : Type) := List Char → Except Fault (α × List Char)

/-- White space between tokens. -/
def isSpace (c : Char) : Bool := c == ' ' || c == '\t' || c == '\n' || c == '\r'

/-- The text after white space. -/
def skipSpace (s : List Char) : List Char := s.dropWhile isSpace

/-- The text after the rest of a word. -/
def readWord : List Char → List Char → Except Fault (List Char)
  | [], s => .ok s
  | _ :: _, [] => .error (.here .endInValue [])
  | e :: es, c :: cs => if c = e then readWord es cs else .error ⟨.expectedIdent, c :: cs, 1⟩

/-- The fault of a value that has the wrong type. -/
def wrongType (expected : String) (read : Except Fault (Found × List Char)) : Fault :=
  match read with
  | .ok (found, rest) => .here (.invalidType found expected) rest
  | .error f => f

/-- A found word with the text after it. -/
def foundWord (found : Found) (word s : List Char) : Except Fault (Found × List Char) :=
  match readWord word s with
  | .ok rest => .ok (found, rest)
  | .error f => .error f

/-- The fault of a value of the wrong kind that starts here. -/
def mismatch (expected : String) (s : List Char) : Fault :=
  match s with
  | [] => .here .endInValue []
  | c :: cs =>
    if c = 'n' then wrongType expected (foundWord .null ['u', 'l', 'l'] cs)
    else if c = 't' then wrongType expected (foundWord (.boolean true) ['r', 'u', 'e'] cs)
    else if c = 'f' then wrongType expected (foundWord (.boolean false) ['a', 'l', 's', 'e'] cs)
    else if c = '-' then wrongType expected (readNumber true cs)
    else if c.isDigit then wrongType expected (readNumber false s)
    else if c = '"' then
      match readString cs with
      | .ok (t, rest) => .here (.invalidType (.text (String.ofList t)) expected) rest
      | .error f => f
    else if c = '[' then .here (.invalidType .sequence expected) s
    else if c = '{' then .here (.invalidType .map expected) s
    else .next .expectedValue s

/-- A string, where `expected` says what it is for. -/
def text (expected : String) : Reader String := fun s =>
  match skipSpace s with
  | '"' :: cs =>
    match readString cs with
    | .ok (t, rest) => .ok (String.ofList t, rest)
    | .error f => .error f
  | s => .error (mismatch expected s)

/-- What comes next in a list or an object. -/
inductive Next where
  /-- It is closed; the text after it. -/
  | closed (rest : List Char)
  /-- Another element, or the key of another member after its quote. -/
  | more (rest : List Char)

/-- What comes next in a list. -/
def nextElement (first : Bool) (s : List Char) : Except Fault Next :=
  match skipSpace s with
  | [] => .error (.here .endInList [])
  | ']' :: rest => .ok (.closed rest)
  | c :: cs =>
    if first then .ok (.more (c :: cs))
    else if c = ',' then
      match skipSpace cs with
      | [] => .error (.here .endInValue [])
      | ']' :: rest => .error (.next .trailingComma (']' :: rest))
      | s => .ok (.more s)
    else .error (.next .expectedCommaOrBracket (c :: cs))

/-- The end of a list of which every element is read. -/
def endList (s : List Char) : Except Fault (List Char) :=
  match skipSpace s with
  | [] => .error (.here .endInList [])
  | ']' :: rest => .ok rest
  | ',' :: cs =>
    match skipSpace cs with
    | ']' :: rest => .error (.next .trailingComma (']' :: rest))
    | s => .error (.next .trailingCharacters s)
  | s => .error (.next .trailingCharacters s)

/-- The elements of a list that are still to come, at most `fuel`. -/
def elements {α : Type} (item : Reader α) : Nat → Bool → Reader (List α)
  | 0, _, s => .error (.here .endInList s)
  | fuel + 1, first, s =>
    match nextElement first s with
    | .error f => .error f
    | .ok (.closed rest) => .ok ([], rest)
    | .ok (.more s) =>
      match item s with
      | .error f => .error f
      | .ok (a, s) =>
        match elements item fuel false s with
        | .error f => .error f
        | .ok (as, rest) => .ok (a :: as, rest)

/-- A list.  An element is at least one character, so the length of the text bounds their
number. -/
def list {α : Type} (item : Reader α) : Reader (List α) := fun s =>
  match skipSpace s with
  | '[' :: cs => elements item s.length true cs
  | s => .error (mismatch "a sequence" s)

/-- A member of a record that is read into the state `σ`. -/
structure RecordField (σ : Type) where
  key : String
  optional : Bool
  isSet : σ → Bool
  read : σ → Reader σ

/-- A record: its name in messages, its members, and the value they make. -/
structure Shape (σ α : Type) where
  name : String
  fields : List (RecordField σ)
  start : σ
  /-- The value, or the first member that is missing. -/
  finish : σ → Except String α

namespace Shape

variable {σ α : Type}

/-- The number of members in words. -/
def countText (n : Nat) : String :=
  if n = 1 then "1 element" else Nat.repr n ++ " elements"

/-- What a list that is too short should have been. -/
def lengthText (shape : Shape σ α) : String :=
  "struct " ++ shape.name ++ " with " ++ countText shape.fields.length

/-- Members from a list, the first of which has the number `index`. -/
def positional (shape : Shape σ α) : List (RecordField σ) → Nat → Bool → σ → Reader σ
  | [], _, _, state, s =>
    match endList s with
    | .error f => .error f
    | .ok rest => .ok (state, rest)
  | field :: fields, index, first, state, s =>
    match nextElement first s with
    | .error f => .error f
    | .ok (.closed rest) =>
      match (field :: fields).findIdx? (!·.optional) with
      | none => .ok (state, rest)
      | some k => .error (.here (.invalidLength (index + k) shape.lengthText) rest)
    | .ok (.more s) =>
      match field.read state s with
      | .error f => .error f
      | .ok (state, s) => positional shape fields (index + 1) false state s

/-- A fault about the members of an object, once the object is closed if it can be. -/
def memberFault (cause : Cause) (s : List Char) : Fault :=
  match skipSpace s with
  | '}' :: rest => .here cause rest
  | s => .here cause s

/-- The key of a member after its comma, from its opening quote on. -/
def nextKey (s : List Char) : Except Fault Next :=
  match s with
  | [] => .error (.here .endInValue [])
  | '"' :: cs => .ok (.more cs)
  | '}' :: rest => .error (.next .trailingComma ('}' :: rest))
  | s => .error (.next .keyNotString s)

/-- What comes next in an object. -/
def nextMember (first : Bool) (s : List Char) : Except Fault Next :=
  match skipSpace s with
  | [] => .error (.here .endInObject [])
  | '}' :: rest => .ok (.closed rest)
  | c :: cs =>
    if first then nextKey (c :: cs)
    else if c = ',' then nextKey (skipSpace cs)
    else .error (.next .expectedCommaOrBrace (c :: cs))

/-- The text after the colon of a member. -/
def afterColon (s : List Char) : Except Fault (List Char) :=
  match skipSpace s with
  | [] => .error (.here .endInObject [])
  | ':' :: rest => .ok rest
  | s => .error (.next .expectedColon s)

/-- One member with the given key, from the text after the key. -/
def member (shape : Shape σ α) (state : σ) (key : String) (s : List Char) :
    Except Fault (σ × List Char) :=
  match shape.fields.find? (·.key == key) with
  | none => .error (memberFault (.unknownField key (shape.fields.map (·.key))) s)
  | some field =>
    if field.isSet state then .error (memberFault (.duplicateField key) s)
    else
      match afterColon s with
      | .error f => .error f
      | .ok s => field.read state s

/-- The members of an object that are still to come, at most `fuel`. -/
def members (shape : Shape σ α) : Nat → Bool → σ → Reader σ
  | 0, _, _, s => .error (.here .endInObject s)
  | fuel + 1, first, state, s =>
    match nextMember first s with
    | .error f => .error f
    | .ok (.closed rest) => .ok (state, rest)
    | .ok (.more s) =>
      match readString s with
      | .error f => .error f
      | .ok (key, s) =>
        match shape.member state (String.ofList key) s with
        | .error f => .error f
        | .ok (state, s) => members shape fuel false state s

/-- The value of the members, once they are read. -/
def complete (shape : Shape σ α) (read : Except Fault (σ × List Char)) :
    Except Fault (α × List Char) :=
  match read with
  | .error f => .error f
  | .ok (state, rest) =>
    match shape.finish state with
    | .error key => .error (.here (.missingField key) rest)
    | .ok a => .ok (a, rest)

/-- A record.  A member is at least one character, so the length of the text bounds their
number. -/
def record (shape : Shape σ α) : Reader α := fun s =>
  match skipSpace s with
  | '{' :: cs => shape.complete (shape.members s.length true shape.start cs)
  | '[' :: cs => shape.complete (shape.positional shape.fields 0 true shape.start cs)
  | s => .error (mismatch ("struct " ++ shape.name) s)

end Shape

/-- The value of a whole document. -/
def readDocument {α : Type} (reader : Reader α) (document : String) : Except Error α :=
  let s := document.toList
  match reader s with
  | .error f => .error (f.locate s)
  | .ok (a, rest) =>
    match skipSpace rest with
    | [] => .ok a
    | rest => .error ((Fault.next .trailingCharacters rest).locate s)

end Json
end StyleSheet
