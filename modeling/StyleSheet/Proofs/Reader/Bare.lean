import StyleSheet.Proofs.Reader.Rules

/-!
# What is told by tokens alone

The reader goes by tokens.  The texts of lexemes only go into the selectors and values that it
reads, and decide nothing: not where a rule or a declaration ends, and not which there are.  So
lexemes with the same tokens give rules with the same names, in number and order
(`names_rules_of_tokens`).
-/

namespace StyleSheet

/-- The names of the declarations of a rule. -/
def Rule.names (r : Rule) : List String := r.properties.map Property.name

namespace Reader

variable {xs ys : List Lexeme}

/-- The names of the declarations of a block. -/
def namesOf (xs : List Lexeme) : List String := (declarations xs).map Property.name

/-- A lexeme without its text. -/
def Lexeme.bare (x : Lexeme) : Lexeme := ⟨x.token, []⟩

theorem extent_bare (stop : Token → Bool) (stack : List Bracket) (xs : List Lexeme) :
    extent stop stack (xs.map Lexeme.bare) = extent stop stack xs := by
  induction xs generalizing stack with
  | nil => rfl
  | cons x xs ih => simp only [List.map_cons, extent, Lexeme.bare, ih]

theorem atRuleLength_bare (xs : List Lexeme) :
    atRuleLength (xs.map Lexeme.bare) = atRuleLength xs := by
  simp only [atRuleLength, extent_bare, ← List.map_drop]
  cases xs.drop (extent (fun t => t == .semicolon || t == .opening .curly) [] xs) with
  | nil => rfl
  | cons x rest => simp only [List.map_cons, Lexeme.bare, extent_bare]

theorem isSome_afterColon?_bare (xs : List Lexeme) :
    (afterColon? (xs.map Lexeme.bare)).isSome = (afterColon? xs).isSome := by
  have hgap : isGap ∘ Lexeme.bare = isGap := rfl
  rw [afterColon?, afterColon?, List.dropWhile_map, hgap]
  cases xs.dropWhile isGap with
  | nil => rfl
  | cons x rest =>
    show (if x.token = .colon then some _ else none).isSome =
      (if x.token = .colon then some _ else none).isSome
    split <;> rfl

theorem startsCustom_bare (xs : List Lexeme) :
    startsCustom (xs.map Lexeme.bare) = startsCustom xs := by
  cases xs with
  | nil => rfl
  | cons x xs =>
    rw [List.map_cons, startsCustom_cons, startsCustom_cons, isSome_afterColon?_bare, Lexeme.bare]

theorem names_declarationsFrom_bare (n : Nat) (xs : List Lexeme) :
    (declarationsFrom n (xs.map Lexeme.bare)).map Property.name =
      (declarationsFrom n xs).map Property.name := by
  induction xs generalizing n with
  | nil => cases n <;> rfl
  | cons x xs ih =>
    cases n with
    | succ n => exact ih n
    | zero =>
      obtain ⟨t, text⟩ := x
      cases t with
      | name value =>
        have hcolon := isSome_afterColon?_bare (xs.take (extent (· == .semicolon) [] xs))
        simp only [List.map_cons, Lexeme.bare, declarationsFrom, extent_bare, ← List.map_take]
        cases hbare : afterColon? ((xs.take (extent (· == .semicolon) [] xs)).map Lexeme.bare) <;>
          cases hwritten : afterColon? (xs.take (extent (· == .semicolon) [] xs)) <;>
            simp_all
      | _ =>
        simp only [List.map_cons, Lexeme.bare, declarationsFrom, extent_bare, atRuleLength_bare, ih]

theorem namesOf_bare (xs : List Lexeme) : namesOf (xs.map Lexeme.bare) = namesOf xs :=
  names_declarationsFrom_bare 0 xs

theorem names_rulesFrom_bare (n : Nat) (xs : List Lexeme) :
    (rulesFrom n (xs.map Lexeme.bare)).map Rule.names = (rulesFrom n xs).map Rule.names := by
  induction xs generalizing n with
  | nil => cases n <;> rfl
  | cons x xs ih =>
    cases n with
    | succ n => exact ih n
    | zero =>
      by_cases hstarts : x.token.startsRule = true
      · have hbare := rulesFrom_cons (x := x.bare) hstarts (xs.map Lexeme.bare)
        rw [← List.map_cons, extent_bare, startsCustom_bare, ← List.map_drop] at hbare
        rw [hbare, rulesFrom_cons hstarts]
        cases (x :: xs).drop (extent (· == .opening .curly) [] (x :: xs)) with
        | nil => rfl
        | cons y rest =>
          simp only [List.map_cons, extent_bare]
          split
          · exact ih _
          · have hblock := namesOf_bare (rest.take (extent (· == .closing .curly) [] rest))
            rw [List.map_take] at hblock
            rw [List.map_cons, List.map_cons, ih]
            exact congrArg (· :: _) hblock
      · obtain ⟨t, text⟩ := x
        cases t with
        | atWord =>
          simp only [List.map_cons, Lexeme.bare, rulesFrom, atRuleLength_bare]
          exact ih _
        | blank => exact ih 0
        | comment => exact ih 0
        | markup => exact ih 0
        | _ => exact absurd rfl hstarts

/-- The names in the rules are told by the tokens. -/
theorem names_rules_of_tokens (h : xs.map Lexeme.token = ys.map Lexeme.token) :
    (rules xs).map Rule.names = (rules ys).map Rule.names := by
  have hbare : ∀ zs : List Lexeme, zs.map Lexeme.bare = (zs.map Lexeme.token).map (⟨·, []⟩) :=
    fun zs => by rw [List.map_map]; rfl
  rw [rules, rules, ← names_rulesFrom_bare 0 xs, hbare, h, ← hbare, names_rulesFrom_bare]

end Reader
end StyleSheet
