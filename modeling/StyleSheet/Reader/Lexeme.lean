import StyleSheet.Reader.Name

/-!
# Lexemes

The text of a sheet is cut into lexemes: pieces of text with the token that each stands
for.  Reading never fails and loses nothing, so that the selectors and values of a sheet
can be kept as they are written: `source_lexemes` says that the lexemes put
together again are the text.

Only boundaries matter to the reader of rules, so most tokens are one, `other`.  Every
blank is a lexeme of its own.  A function is an opening bracket, the text of which
includes its name; an unquoted address is one lexeme with all that is in it.
-/

namespace StyleSheet
namespace Reader

/-- The kinds of brackets. -/
inductive Bracket where
  | round
  | square
  | curly
  deriving DecidableEq

/-- What a lexeme stands for. -/
inductive Token where
  | blank
  | comment
  | name (value : List Char)
  | atWord
  | opening (b : Bracket)
  | closing (b : Bracket)
  | semicolon
  | colon
  /-- The marks `<!--` and `-->`, which can hide a sheet in a document. -/
  | markup
  | other
  deriving DecidableEq

/-- A token with its text. -/
structure Lexeme where
  token : Token
  text : List Char
  deriving DecidableEq

/-- Token and length of what starts with a name: a function, an address, or the name. -/
def scanName (s : List Char) : Token × Nat :=
  let r := name 0 s
  match s.drop r.2 with
  | '(' :: rest =>
    if isUrlName r.1 then
      match unquotedUrl? rest with
      | some n => (.other, r.2 + 1 + n)
      | none => (.opening .round, r.2 + 1)
    else (.opening .round, r.2 + 1)
  | _ => (.name r.1, r.2)

/-- Length of a number after its first digit: more digits and a unit. -/
def numberLength (cs : List Char) : Nat :=
  let digits := (cs.takeWhile Char.isDigit).length
  let rest := cs.drop digits
  if startsName rest then digits + (name 0 rest).2 else digits

/-- Whether the word of a `#` starts here. -/
def startsHashWord : List Char → Bool
  | c :: cs => startsName (c :: cs) || c.isDigit || c == '-'
  | [] => false

/-- The token that starts with the character `c` before the text `cs`, and how many
characters of `cs` belong to it. -/
def scan (c : Char) (cs : List Char) : Token × Nat :=
  if isBlank c then (.blank, 0)
  else if c = '"' ∨ c = '\x27' then (.other, stringLength c 0 cs)
  else if c = '(' then (.opening .round, 0)
  else if c = ')' then (.closing .round, 0)
  else if c = '[' then (.opening .square, 0)
  else if c = ']' then (.closing .square, 0)
  else if c = '{' then (.opening .curly, 0)
  else if c = '}' then (.closing .curly, 0)
  else if c = ';' then (.semicolon, 0)
  else if c = ':' then (.colon, 0)
  else if c = '/' ∧ cs.take 1 = ['*'] then (.comment, 1 + commentLength (cs.drop 1))
  else if c = '<' ∧ cs.take 3 = ['!', '-', '-'] then (.markup, 3)
  else if c = '-' ∧ cs.take 2 = ['-', '>'] then (.markup, 2)
  else if c = '#' then (.other, if startsHashWord cs then (name 0 cs).2 else 0)
  else if c = '@' then
    if startsName cs then (.atWord, (name 0 cs).2) else (.other, 0)
  else if c.isDigit then (.other, numberLength cs)
  else if startsName (c :: cs) then
    let r := scanName (c :: cs)
    (r.1, r.2 - 1)
  else (.other, 0)

/-- The lexemes of a text of which the first `skip` characters are read already. -/
def lexemesFrom : Nat → List Char → List Lexeme
  | _, [] => []
  | skip + 1, _ :: cs => lexemesFrom skip cs
  | 0, c :: cs =>
    let r := scan c cs
    ⟨r.1, c :: cs.take r.2⟩ :: lexemesFrom r.2 cs

/-- The lexemes of a text. -/
def lexemes (s : List Char) : List Lexeme := lexemesFrom 0 s

theorem lexemesFrom_eq (n : Nat) (s : List Char) : lexemesFrom n s = lexemes (s.drop n) := by
  induction s generalizing n with
  | nil => simp [lexemes, lexemesFrom]
  | cons c cs ih =>
    cases n with
    | zero => rfl
    | succ n => simpa [lexemesFrom] using ih n

@[simp] theorem lexemes_nil : lexemes [] = [] := rfl

theorem lexemes_cons (c : Char) (cs : List Char) :
    lexemes (c :: cs) =
      ⟨(scan c cs).1, c :: cs.take (scan c cs).2⟩ :: lexemes (cs.drop (scan c cs).2) := by
  rw [lexemes, lexemesFrom, lexemesFrom_eq]

/-- The text of several lexemes. -/
def source (xs : List Lexeme) : List Char := xs.flatMap Lexeme.text

theorem source_append (xs ys : List Lexeme) : source (xs ++ ys) = source xs ++ source ys :=
  List.flatMap_append

/-- Reading loses nothing. -/
theorem source_lexemes (s : List Char) : source (lexemes s) = s := by
  match s with
  | [] => rfl
  | c :: cs =>
    have ih := source_lexemes (cs.drop (scan c cs).2)
    rw [source] at ih
    rw [lexemes_cons, source, List.flatMap_cons, ih, List.cons_append, List.take_append_drop]
termination_by s.length
decreasing_by simp only [List.length_drop, List.length_cons]; omega

end Reader
end StyleSheet
