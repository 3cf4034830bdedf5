import StyleSheet.Proofs.Reader.Nesting

/-!
# One rule, one declaration

What the reader makes of the first thing in a list of lexemes, and with what it goes on.
Gaps are skipped; a stretch before a curly bracket is a selector, and the stretch to the
closing one its block; in a block, a name, a colon and a stretch before a semicolon are a
declaration.  Each statement leaves the lexemes after it arbitrary.
-/

namespace StyleSheet
namespace Reader

variable {x : Lexeme} {xs ys : List Lexeme}

theorem isGap_iff : isGap x = true ↔ x.token = .blank ∨ x.token = .comment := by
  simp [isGap]

theorem isFlat_of_isGap (h : isGap x = true) : x.token.isFlat = true := by
  rcases isGap_iff.mp h with h | h <;> rw [h] <;> rfl

/-! ## Rules -/

/-- Whether a token starts a rule at the top of a sheet. -/
def Token.startsRule : Token → Bool
  | .blank => false
  | .comment => false
  | .markup => false
  | .atWord => false
  | _ => true

theorem rules_cons_gap (h : isGap x = true) (xs : List Lexeme) : rules (x :: xs) = rules xs := by
  rw [rules, rulesFrom]
  rcases isGap_iff.mp h with h | h <;> rw [h] <;> rfl

/-- Gaps before a rule are skipped. -/
theorem rules_gap (h : ∀ x ∈ xs, isGap x = true) (ys : List Lexeme) :
    rules (xs ++ ys) = rules ys := by
  induction xs with
  | nil => rfl
  | cons x xs ih =>
    rw [List.cons_append, rules_cons_gap (h x List.mem_cons_self)]
    exact ih fun y hy => h y (List.mem_cons_of_mem x hy)

theorem rulesFrom_cons (h : x.token.startsRule = true) (xs : List Lexeme) :
    rulesFrom 0 (x :: xs) =
      match (x :: xs).drop (extent (· == .opening .curly) [] (x :: xs)) with
      | [] => []
      | _ :: rest =>
        let n := extent (· == .opening .curly) [] (x :: xs)
        let m := extent (· == .closing .curly) [] rest
        if startsCustom (x :: xs) then rulesFrom (n + m + 1) xs
        else
          ⟨trimmedText ((x :: xs).take n), declarations (rest.take m)⟩ ::
            rulesFrom (n + m + 1) xs := by
  obtain ⟨t, text⟩ := x
  rw [rulesFrom]
  cases t <;> first | rfl | cases h

/-- The rules after a rule that starts with the lexeme `x`. -/
theorem rules_cons (h : x.token.startsRule = true) (xs : List Lexeme) :
    rules (x :: xs) =
      match (x :: xs).drop (extent (· == .opening .curly) [] (x :: xs)) with
      | [] => []
      | _ :: rest =>
        let m := extent (· == .closing .curly) [] rest
        if startsCustom (x :: xs) then rules (rest.drop (m + 1))
        else
          ⟨trimmedText ((x :: xs).take (extent (· == .opening .curly) [] (x :: xs))),
            declarations (rest.take m)⟩ :: rules (rest.drop (m + 1)) := by
  rw [rules, rulesFrom_cons h]
  cases hdrop : (x :: xs).drop (extent (· == .opening .curly) [] (x :: xs)) with
  | nil => rfl
  | cons y rest =>
    have hskip : ∀ m, rulesFrom (extent (· == .opening .curly) [] (x :: xs) + m + 1) xs =
        rules (rest.drop (m + 1)) := fun m => by
      have hrest := congrArg (List.drop 1) hdrop
      rw [List.drop_drop, List.drop_succ_cons] at hrest
      rw [rulesFrom_eq, Nat.add_assoc, ← List.drop_drop, hrest]
      rfl
    simp only [hskip]

/-- Whether a colon follows gaps is not changed by lexemes in which none does. -/
theorem isSome_afterColon?_append (hys : afterColon? ys = none) (xs : List Lexeme) :
    (afterColon? (xs ++ ys)).isSome = (afterColon? xs).isSome := by
  simp only [afterColon?, List.dropWhile_append] at hys ⊢
  cases hd : xs.dropWhile isGap with
  | nil => simp [hys]
  | cons y rest => cases hy : decide (y.token = .colon) <;> simp_all

theorem afterColon?_opening {o : Lexeme} {b : Bracket} (ho : o.token = .opening b)
    (xs : List Lexeme) : afterColon? (o :: xs) = none := by
  have hgap : isGap o = false := by rw [isGap, ho]; rfl
  rw [afterColon?, List.dropWhile_cons_of_neg (by simp [hgap])]
  exact if_neg (by simp [ho])

theorem afterColon?_of_gap (h : ∀ x ∈ xs, isGap x = true) : afterColon? xs = none := by
  have hnil : (xs ++ []).dropWhile isGap = [] := List.dropWhile_append_of_pos h
  rw [List.append_nil] at hnil
  rw [afterColon?, hnil]

/-- Whether a token is a name that starts with two hyphens. -/
def Token.isCustomName : Token → Bool
  | .name ('-' :: '-' :: _) => true
  | _ => false

theorem startsCustom_cons (x : Lexeme) (xs : List Lexeme) :
    startsCustom (x :: xs) = (x.token.isCustomName && (afterColon? xs).isSome) := by
  unfold startsCustom Token.isCustomName
  split
  next heq =>
    cases heq
    rfl
  next hne =>
    split
    next v hv => exact absurd (by rw [← hv]) (hne v x.text xs)
    next => rfl

theorem startsCustom_append (hys : afterColon? ys = none) (hcustom : startsCustom ys = false)
    (xs : List Lexeme) : startsCustom (xs ++ ys) = startsCustom xs := by
  cases xs with
  | nil => exact hcustom
  | cons x xs =>
    rw [List.cons_append, startsCustom_cons, startsCustom_cons, isSome_afterColon?_append hys]

theorem startsCustom_opening {o : Lexeme} {b : Bracket} (ho : o.token = .opening b)
    (xs : List Lexeme) : startsCustom (o :: xs) = false := by
  rw [startsCustom_cons, ho]
  rfl

theorem startsCustom_of_gap (h : ∀ x ∈ xs, isGap x = true) : startsCustom xs = false := by
  cases xs with
  | nil => rfl
  | cons x xs =>
    rw [startsCustom_cons, afterColon?_of_gap fun y hy => h y (List.mem_cons_of_mem x hy)]
    exact Bool.and_false _

/-- The rules of what comes after the opening bracket of a block, if `skipped` says whether the
rule of the block is left out.  The block goes up to its closing bracket or to the end. -/
def blockRules (skipped : Bool) (selector : String) (xs : List Lexeme) : List Rule :=
  (if skipped then []
    else [⟨selector, declarations (xs.take (extent (· == .closing .curly) [] xs))⟩]) ++
    rules (xs.drop (extent (· == .closing .curly) [] xs + 1))

/-- A block, and what comes after it. -/
theorem blockRules_closed {body : List Lexeme} {c : Lexeme} (skipped : Bool) (selector : String)
    (hbody : Sealed (· == .closing .curly) body) (hc : c.token = .closing .curly)
    (rest : List Lexeme) :
    blockRules skipped selector (body ++ c :: rest) =
      if skipped then rules rest else ⟨selector, declarations body⟩ :: rules rest := by
  have hdrop : (body ++ c :: rest).drop (body.length + 1) = rest := by
    rw [← List.drop_drop, List.drop_left]
    rfl
  rw [blockRules, hbody.extent_stop (by simp [hc]), List.take_left, hdrop]
  cases skipped <;> rfl

/-- A block that is not closed. -/
theorem blockRules_unclosed {body : List Lexeme} (skipped : Bool) (selector : String)
    (hbody : passes (· == .closing .curly) [] body = true) :
    blockRules skipped selector body =
      if skipped then [] else [⟨selector, declarations body⟩] := by
  rw [blockRules, extent_of_passes hbody, List.take_length,
    List.drop_of_length_le (Nat.le_succ _), rules_nil, List.append_nil]

section Selector

variable {sel : List Lexeme} {o : Lexeme} (hstart : ∀ x ∈ sel.head?, x.token.startsRule = true)
  (hsel : Sealed (· == .opening .curly) sel) (ho : o.token = .opening .curly)

include hstart hsel ho

/-- A selector before the bracket of its block. -/
theorem rules_opening (rest : List Lexeme) :
    rules (sel ++ o :: rest) = blockRules (startsCustom sel) (trimmedText sel) rest := by
  have hopen : extent (· == .opening .curly) [] (sel ++ o :: rest) = sel.length :=
    hsel.extent_stop (by simp [ho]) _
  have hcustom : startsCustom (sel ++ o :: rest) = startsCustom sel :=
    startsCustom_append (afterColon?_opening ho _) (startsCustom_opening ho _) sel
  obtain ⟨x, xs, hx, hcons⟩ : ∃ x xs, x.token.startsRule = true ∧ sel ++ o :: rest = x :: xs := by
    cases sel with
    | nil => exact ⟨o, _, by rw [ho]; rfl, rfl⟩
    | cons x xs => exact ⟨x, _, hstart x rfl, rfl⟩
  rw [hcons, rules_cons hx, ← hcons, hopen, List.drop_left, blockRules]
  simp only [hcustom, List.take_left]
  split <;> rfl

/-- A selector, its block, and what comes after them. -/
theorem rules_block {body : List Lexeme} {c : Lexeme} (hbody : Sealed (· == .closing .curly) body)
    (hc : c.token = .closing .curly) (rest : List Lexeme) :
    rules (sel ++ o :: (body ++ c :: rest)) =
      if startsCustom sel then rules rest
      else ⟨trimmedText sel, declarations body⟩ :: rules rest := by
  rw [rules_opening hstart hsel ho, blockRules_closed _ _ hbody hc]

end Selector

/-! ## Declarations -/

theorem declarations_cons_gap (h : isGap x = true) (xs : List Lexeme) :
    declarations (x :: xs) = declarations xs := by
  rw [declarations, declarationsFrom]
  rcases isGap_iff.mp h with h | h <;> rw [h] <;> rfl

/-- Gaps before a declaration are skipped. -/
theorem declarations_gap (h : ∀ x ∈ xs, isGap x = true) (ys : List Lexeme) :
    declarations (xs ++ ys) = declarations ys := by
  induction xs with
  | nil => rfl
  | cons x xs ih =>
    rw [List.cons_append, declarations_cons_gap (h x List.mem_cons_self)]
    exact ih fun y hy => h y (List.mem_cons_of_mem x hy)

theorem declarations_semicolon (text : List Char) (xs : List Lexeme) :
    declarations (⟨.semicolon, text⟩ :: xs) = declarations xs := rfl

/-- What follows a colon after gaps. -/
theorem afterColon?_gap (h : ∀ x ∈ xs, isGap x = true) {colon : Lexeme}
    (hcolon : colon.token = .colon) (ys : List Lexeme) :
    afterColon? (xs ++ colon :: ys) = some ys := by
  have hgap : isGap colon = false := by rw [isGap, hcolon]; rfl
  rw [afterColon?, List.dropWhile_append_of_pos h, List.dropWhile_cons_of_neg (by simp [hgap])]
  exact if_pos hcolon

theorem declarations_cons_name (value text : List Char) (xs : List Lexeme) :
    declarations (⟨.name value, text⟩ :: xs) =
      match afterColon? (xs.take (extent (· == .semicolon) [] xs)) with
      | some written => ⟨String.ofList value, trimmedText written⟩ ::
          declarations (xs.drop (extent (· == .semicolon) [] xs))
      | none => declarations (xs.drop (extent (· == .semicolon) [] xs)) := by
  simp only [← declarationsFrom_eq]
  rfl

section Declaration

variable {gap written : List Lexeme} {colon : Lexeme}
  (hgap : ∀ x ∈ gap, isGap x = true) (hcolon : colon.token = .colon)
  (hwritten : Sealed (· == .semicolon) written)

include hgap hcolon

/-- What leads to the value of a declaration is flat. -/
theorem isFlat_lead : ∀ x ∈ gap ++ [colon], x.token.isFlat = true := by
  intro x hx
  rcases List.mem_append.mp hx with hx | hx
  · exact isFlat_of_isGap (hgap x hx)
  · rw [List.mem_singleton.mp hx, hcolon]
    rfl

include hwritten

theorem sealed_written : Sealed (· == .semicolon) (gap ++ colon :: written) := by
  have hflat : Sealed (· == .semicolon) (gap ++ [colon]) :=
    Sealed.of_flat (Token.isDelimiter_of_beq rfl) (isFlat_lead hgap hcolon)
  have happ := hflat.append hwritten
  rwa [List.append_assoc] at happ

/-- A declaration that ends with a semicolon, and what comes after it. -/
theorem declarations_declaration (value text : List Char) {semicolon : Lexeme}
    (hsemicolon : semicolon.token = .semicolon) (rest : List Lexeme) :
    declarations (⟨.name value, text⟩ :: (gap ++ colon :: written ++ semicolon :: rest)) =
      ⟨String.ofList value, trimmedText written⟩ :: declarations rest := by
  have hextent := (sealed_written hgap hcolon hwritten).extent_stop
    (x := semicolon) (by simp [hsemicolon]) rest
  rw [declarations_cons_name, hextent, List.take_left, List.drop_left,
    afterColon?_gap hgap hcolon]
  obtain ⟨t, s⟩ := semicolon
  cases hsemicolon
  rw [declarations_semicolon]

/-- A declaration that ends with its block. -/
theorem declarations_last (value text : List Char) :
    declarations (⟨.name value, text⟩ :: (gap ++ colon :: written)) =
      [⟨String.ofList value, trimmedText written⟩] := by
  rw [declarations_cons_name, (sealed_written hgap hcolon hwritten).extent_eq, List.take_length,
    List.drop_length, afterColon?_gap hgap hcolon]
  rfl

end Declaration

end Reader
end StyleSheet
