import StyleSheet.Reader.Lexeme
import StyleSheet.Rule
import StyleSheet.Text.Space

/-!
# Reading rules

The reader is lenient: it takes from any text the rules that can be made out, and skips
the rest.  At-rules are skipped, at the top and in a block; what is not a declaration is
skipped up to the next semicolon.  Selectors and values are text as written, trimmed.

## Nesting

Brackets hide what is between them: a semicolon in parentheses ends nothing.  The
brackets that are open are kept on a stack, and a closing bracket closes the top of the
stack or nothing.  `extent` counts the lexemes up to the first stop at which no bracket
is open, and every part of a sheet is found with it: the selector is what comes before
an opening curly bracket, the block what comes before the closing one, and a
declaration what comes before a semicolon.

## One rule is not taken

Text such as `--accent:hover { ... }` could be a custom property or a rule.  It is read
as a custom property that stands where none can stand, so it is no rule.
-/

namespace StyleSheet
namespace Reader

/-- The open brackets after one more token. -/
def nest (stack : List Bracket) : Token → List Bracket
  | .opening b => b :: stack
  | .closing b => if stack.head? = some b then stack.tail else stack
  | _ => stack

/-- Number of lexemes before the first stop outside of all brackets. -/
def extent (stop : Token → Bool) : List Bracket → List Lexeme → Nat
  | _, [] => 0
  | stack, x :: xs =>
    if stack.isEmpty && stop x.token then 0 else extent stop (nest stack x.token) xs + 1

/-- Length of an at-rule after its first word: through its semicolon or its block. -/
def atRuleLength (xs : List Lexeme) : Nat :=
  let n := extent (fun t => t == .semicolon || t == .opening .curly) [] xs
  match xs.drop n with
  | [] => n
  | x :: rest =>
    if x.token = .semicolon then n + 1
    else n + 2 + extent (· == .closing .curly) [] rest

/-- Blanks and comments. -/
def isGap (x : Lexeme) : Bool := x.token == .blank || x.token == .comment

/-- What follows a colon, if the lexemes start with one after gaps. -/
def afterColon? (xs : List Lexeme) : Option (List Lexeme) :=
  match xs.dropWhile isGap with
  | x :: rest => if x.token = .colon then some rest else none
  | [] => none

/-- The trimmed text of lexemes. -/
def trimmedText (xs : List Lexeme) : String := String.ofList (Text.trim (source xs))

theorem toList_trimmedText (xs : List Lexeme) :
    (trimmedText xs).toList = Text.trim (source xs) := String.toList_ofList

/-- The declarations of a block of which the first `skip` lexemes are read already. -/
def declarationsFrom : Nat → List Lexeme → List Property
  | _, [] => []
  | skip + 1, _ :: xs => declarationsFrom skip xs
  | 0, x :: xs =>
    match x.token with
    | .blank => declarationsFrom 0 xs
    | .comment => declarationsFrom 0 xs
    | .semicolon => declarationsFrom 0 xs
    | .atWord => declarationsFrom (atRuleLength xs) xs
    | .name value =>
      let n := extent (· == .semicolon) [] xs
      match afterColon? (xs.take n) with
      | some written =>
        ⟨String.ofList value, trimmedText written⟩ :: declarationsFrom n xs
      | none => declarationsFrom n xs
    | t => declarationsFrom (extent (· == .semicolon) (nest [] t) xs) xs

/-- The declarations of a block. -/
def declarations (xs : List Lexeme) : List Property := declarationsFrom 0 xs

/-- Whether a rule starts like a custom property. -/
def startsCustom : List Lexeme → Bool
  | ⟨.name ('-' :: '-' :: _), _⟩ :: xs => (afterColon? xs).isSome
  | _ => false

/-- The rules of a sheet of which the first `skip` lexemes are read already. -/
def rulesFrom : Nat → List Lexeme → List Rule
  | _, [] => []
  | skip + 1, _ :: xs => rulesFrom skip xs
  | 0, x :: xs =>
    match x.token with
    | .blank => rulesFrom 0 xs
    | .comment => rulesFrom 0 xs
    | .markup => rulesFrom 0 xs
    | .atWord => rulesFrom (atRuleLength xs) xs
    | _ =>
      let n := extent (· == .opening .curly) [] (x :: xs)
      match (x :: xs).drop n with
      | [] => []
      | _ :: rest =>
        let m := extent (· == .closing .curly) [] rest
        if startsCustom (x :: xs) then rulesFrom (n + m + 1) xs
        else
          ⟨trimmedText ((x :: xs).take n), declarations (rest.take m)⟩ ::
            rulesFrom (n + m + 1) xs

/-- The rules of a sheet. -/
def rules (xs : List Lexeme) : List Rule := rulesFrom 0 xs

theorem declarationsFrom_eq (n : Nat) (xs : List Lexeme) :
    declarationsFrom n xs = declarations (xs.drop n) := by
  induction xs generalizing n with
  | nil => simp [declarations, declarationsFrom]
  | cons x xs ih =>
    cases n with
    | zero => rfl
    | succ n => simpa [declarationsFrom] using ih n

theorem rulesFrom_eq (n : Nat) (xs : List Lexeme) : rulesFrom n xs = rules (xs.drop n) := by
  induction xs generalizing n with
  | nil => simp [rules, rulesFrom]
  | cons x xs ih =>
    cases n with
    | zero => rfl
    | succ n => simpa [rulesFrom] using ih n

@[simp] theorem declarations_nil : declarations [] = [] := rfl

@[simp] theorem rules_nil : rules [] = [] := rfl

end Reader

/-- The rules that can be made out in the text of a sheet. -/
def readSheet (text : String) : List Rule := Reader.rules (Reader.lexemes text.toList)

end StyleSheet
