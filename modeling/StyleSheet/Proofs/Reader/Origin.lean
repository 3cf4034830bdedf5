import Mathlib.Data.List.TakeWhile
import StyleSheet.Proofs.Reader.Rules

/-!
# Where rules come from

In lexemes with all brackets closed, the reader's counts find what they look for: a bracket
that opens a block has one that closes it (`exists_block`), and what the reader skips leaves
no bracket open.  So a rule that is read stands somewhere in the sheet as a selector with its
block (`Block`), and a declaration somewhere in its block as a name, a colon and what is
written after it (`Declaration`).

These are the converses of `rules_block` and `declarations_declaration`.
-/

namespace StyleSheet
namespace Reader

variable {stop : Token → Bool} {stack : List Bracket} {x : Lexeme} {xs ys : List Lexeme}

/-! ## The first stop -/

/-- Either there is no stop outside of all brackets, or there is a first one. -/
theorem passes_or_exists_stop (stop : Token → Bool) (stack : List Bracket) (xs : List Lexeme) :
    passes stop stack xs = true ∨ ∃ pre y rest, xs = pre ++ y :: rest ∧
      passes stop stack pre = true ∧ nestAll stack pre = [] ∧ stop y.token = true := by
  induction xs generalizing stack with
  | nil => exact .inl rfl
  | cons x xs ih =>
    cases hx : stack.isEmpty && stop x.token with
    | true =>
      rw [Bool.and_eq_true, List.isEmpty_iff] at hx
      exact .inr ⟨[], x, xs, rfl, rfl, hx.1, hx.2⟩
    | false =>
      have hpasses : ∀ zs, passes stop stack (x :: zs) = passes stop (nest stack x.token) zs :=
        fun zs => by rw [passes_cons, hx, Bool.not_false, Bool.true_and]
      rcases ih (nest stack x.token) with h | ⟨pre, y, rest, rfl, hpre, hclosed, hy⟩
      · exact .inl ((hpasses xs).trans h)
      · exact .inr ⟨x :: pre, y, rest, rfl, (hpasses pre).trans hpre, hclosed, hy⟩

/-- Closed lexemes are sealed, or there is a first stop, with a sealed stretch before it. -/
theorem sealed_or_exists_stop (hclosed : nestAll [] xs = []) (stop : Token → Bool) :
    Sealed stop xs ∨ ∃ pre y rest, xs = pre ++ y :: rest ∧ Sealed stop pre ∧
      stop y.token = true ∧ nestAll [] (y :: rest) = [] := by
  rcases passes_or_exists_stop stop [] xs with h | ⟨pre, y, rest, rfl, hpre, hnest, hy⟩
  · exact .inl ⟨h, hclosed⟩
  · rw [nestAll_append, hnest] at hclosed
    exact .inr ⟨pre, y, rest, rfl, ⟨hpre, hnest⟩, hy, hclosed⟩

/-! ## Blocks -/

/-- A curly bracket stays open below other brackets, and unless it is closed itself. -/
theorem nest_append_curly {t : Token} (h : stack = [] → t ≠ .closing .curly) :
    nest (stack ++ [.curly]) t = nest stack t ++ [.curly] := by
  cases t with
  | closing b =>
    cases stack with
    | nil =>
      have hb : b ≠ .curly := by
        rintro rfl
        exact h rfl rfl
      simp [nest, hb.symm]
    | cons top stack =>
      by_cases hb : top = b
      · simp [nest, hb]
      · simp [nest, hb]
  | _ => rfl

/-- A curly bracket stays open below a stretch that does not close it. -/
theorem nestAll_append_curly (h : passes (· == .closing .curly) stack xs = true) :
    nestAll (stack ++ [.curly]) xs = nestAll stack xs ++ [.curly] := by
  induction xs generalizing stack with
  | nil => rfl
  | cons x xs ih =>
    rw [passes_cons, Bool.and_eq_true] at h
    have hx : stack = [] → x.token ≠ .closing .curly := by
      rintro rfl
      simpa using h.1
    rw [nestAll_cons, nestAll_cons, nest_append_curly hx, ih h.2]

/-- Below a curly bracket that it does not close, a stretch holds no stop of any kind. -/
theorem passes_append_curly (h : passes (· == .closing .curly) stack xs = true)
    (stop : Token → Bool) : passes stop (stack ++ [.curly]) xs = true := by
  induction xs generalizing stack with
  | nil => rfl
  | cons x xs ih =>
    rw [passes_cons, Bool.and_eq_true] at h
    have hx : stack = [] → x.token ≠ .closing .curly := by
      rintro rfl
      simpa using h.1
    rw [passes_cons, nest_append_curly hx, ih h.2]
    simp

/-- A curly bracket that does not stay open has a block. -/
theorem exists_block (h : nestAll [.curly] xs = []) :
    ∃ body c rest, xs = body ++ c :: rest ∧ Sealed (· == .closing .curly) body ∧
      c.token = .closing .curly ∧ nestAll [] rest = [] := by
  rcases passes_or_exists_stop (· == .closing .curly) [] xs with
    hpasses | ⟨body, c, rest, rfl, hbody, hnest, hc⟩
  · have hopen := nestAll_append_curly hpasses
    rw [List.nil_append, h] at hopen
    exact absurd hopen (by simp)
  · have hopen := nestAll_append_curly hbody
    rw [beq_iff_eq] at hc
    rw [List.nil_append, hnest] at hopen
    rw [nestAll_append, hopen, nestAll_cons, hc] at h
    exact ⟨body, c, rest, rfl, ⟨hbody, hnest⟩, hc, h⟩

/-- A block with its brackets leaves none open. -/
theorem closed_block {o c : Lexeme} (ho : o.token = .opening .curly)
    (hxs : Sealed (· == .closing .curly) xs) (hc : c.token = .closing .curly) :
    nestAll [] (o :: (xs ++ [c])) = [] := by
  have hopen := nestAll_append_curly hxs.passes
  rw [List.nil_append, hxs.closed] at hopen
  rw [nestAll_cons, ho, nestAll_append]
  show nestAll (nestAll [.curly] xs) [c] = []
  rw [hopen, nestAll_cons, hc]
  rfl

/-- A block with its brackets is passed over whole. -/
theorem sealed_block {o c : Lexeme} (ho : o.token = .opening .curly)
    (hxs : Sealed (· == .closing .curly) xs) (hc : c.token = .closing .curly) :
    Sealed (· == .closing .curly) (o :: (xs ++ [c])) where
  passes := by
    have hpasses := passes_append_curly hxs.passes (· == .closing .curly)
    have hopen := nestAll_append_curly hxs.passes
    rw [List.nil_append] at hpasses hopen
    rw [passes_cons, ho, nest, passes_append, hpasses, hopen, hxs.closed]
    rfl
  closed := closed_block ho hxs hc

/-! ## At-rules -/

section AtRule

variable {pre rest : List Lexeme} {y : Lexeme}
  (hpre : Sealed (fun t => t == .semicolon || t == .opening .curly) pre)

include hpre

theorem atRuleLength_of_sealed : atRuleLength pre = pre.length := by
  simp only [atRuleLength, hpre.extent_eq, List.drop_length]

theorem atRuleLength_of_semicolon (hy : y.token = .semicolon) :
    atRuleLength (pre ++ y :: rest) = pre.length + 1 := by
  simp only [atRuleLength, hpre.extent_stop (x := y) (by simp [hy]) rest, List.drop_left, if_pos hy]

theorem atRuleLength_of_block {body : List Lexeme} {c : Lexeme} (hy : y.token = .opening .curly)
    (hbody : Sealed (· == .closing .curly) body) (hc : c.token = .closing .curly) :
    atRuleLength (pre ++ y :: (body ++ c :: rest)) = pre.length + 2 + body.length := by
  have hne : ¬ y.token = .semicolon := by simp [hy]
  simp only [atRuleLength, hpre.extent_stop (x := y) (by simp [hy]) _, List.drop_left, if_neg hne,
    hbody.extent_stop (x := c) (by simp [hc]) _]

end AtRule

/-- An at-rule goes up to the end, or through a semicolon or a block. -/
theorem sealed_or_exists_atRule (hclosed : nestAll [] xs = []) :
    Sealed (fun t => t == .semicolon || t == .opening .curly) xs ∨
      ∃ pre y rest, xs = pre ++ y :: rest ∧ (y.token = .semicolon ∨ y.token = .closing .curly) ∧
        nestAll [] (pre ++ [y]) = [] ∧ ∀ ys, atRuleLength (pre ++ y :: ys) = pre.length + 1 := by
  refine (sealed_or_exists_stop hclosed _).imp_right ?_
  rintro ⟨pre, y, rest, rfl, hpre, hy, hrest⟩
  rw [Bool.or_eq_true, beq_iff_eq, beq_iff_eq] at hy
  rcases hy with hy | hy
  · refine ⟨pre, y, rest, rfl, .inl hy, ?_, fun ys => atRuleLength_of_semicolon hpre hy⟩
    rw [nestAll_append, hpre.closed, nestAll_cons, hy]
    rfl
  · rw [nestAll_cons, hy] at hrest
    obtain ⟨body, c, after, rfl, hbody, hc, -⟩ := exists_block hrest
    refine ⟨pre ++ y :: body, c, after, by simp, .inr hc, ?_, fun ys => ?_⟩
    · rw [List.append_assoc, List.cons_append, nestAll_append, hpre.closed,
        closed_block hy hbody hc]
    · rw [List.append_assoc, List.cons_append, atRuleLength_of_block hpre hy hbody hc,
        List.length_append, List.length_cons]
      omega

/-- An at-rule leaves no bracket open. -/
theorem exists_atRule (hclosed : nestAll [] xs = []) :
    ∃ pre rest, xs = pre ++ rest ∧ nestAll [] pre = [] ∧ atRuleLength xs = pre.length := by
  rcases sealed_or_exists_atRule hclosed with hsealed | ⟨pre, y, rest, rfl, -, hpre, hlength⟩
  · exact ⟨xs, [], (List.append_nil xs).symm, hclosed, atRuleLength_of_sealed hsealed⟩
  · refine ⟨pre ++ [y], rest, by simp, hpre, ?_⟩
    rw [hlength, List.length_append, List.length_singleton]

/-! ## Reading in steps -/

/-- A reader that goes through closed lexemes in steps.  Each time it skips some that leave
no bracket open, or makes something of them; and what it makes of lexemes further on is what
it makes of all. -/
structure ReadsInSteps {α : Type} (read : List Lexeme → List α)
    (From : List Lexeme → α → Prop) : Prop where
  nil : read [] = []
  append : ∀ {xs ys a}, nestAll [] xs = [] → From ys a → From (xs ++ ys) a
  step : ∀ {x xs}, nestAll [] (x :: xs) = [] → ∃ pre rest, x :: xs = pre ++ rest ∧ pre ≠ [] ∧
    nestAll [] pre = [] ∧ (read (x :: xs) = read rest ∨
      ∃ a, From (x :: xs) a ∧ read (x :: xs) = a :: read rest)

/-- Everything that is read comes from the lexemes. -/
theorem ReadsInSteps.of_mem {α : Type} {read : List Lexeme → List α}
    {From : List Lexeme → α → Prop} (h : ReadsInSteps read From) {xs : List Lexeme}
    (hclosed : nestAll [] xs = []) {a : α} (ha : a ∈ read xs) : From xs a := by
  match xs with
  | [] =>
    rw [h.nil] at ha
    cases ha
  | x :: xs =>
    obtain ⟨pre, rest, hsplit, hne, hpre, hstep⟩ := h.step hclosed
    have hless : rest.length < (x :: xs).length := by
      have hpos := List.length_pos_iff.mpr hne
      rw [hsplit, List.length_append]
      omega
    have hrest : a ∈ read rest → From (x :: xs) a := by
      intro ha
      rw [hsplit, nestAll_append, hpre] at hclosed
      rw [hsplit]
      exact h.append hpre (h.of_mem hclosed ha)
    rcases hstep with hskip | ⟨b, hb, hread⟩
    · exact hrest (hskip ▸ ha)
    · rw [hread] at ha
      rcases List.mem_cons.mp ha with rfl | ha
      · exact hb
      · exact hrest ha
termination_by xs.length
decreasing_by exact hless

/-! ## Declarations -/

/-- A declaration in a block: a name outside of all brackets, a colon after gaps, and what is
written up to a semicolon or to the end. -/
structure Declaration (xs : List Lexeme) where
  before : List Lexeme
  name : List Char
  text : List Char
  gap : List Lexeme
  colon : Lexeme
  written : List Lexeme
  after : List Lexeme
  eq : xs = before ++ ⟨.name name, text⟩ :: (gap ++ colon :: (written ++ after))
  closed : nestAll [] before = []
  isGap : ∀ x ∈ gap, isGap x = true
  isColon : colon.token = .colon
  isSealed : Sealed (· == .semicolon) written
  ends : ∀ x ∈ after.head?, x.token = .semicolon

/-- The property that is read from a declaration. -/
def Declaration.property (d : Declaration xs) : Property :=
  ⟨String.ofList d.name, trimmedText d.written⟩

/-- A declaration further on in a block. -/
def Declaration.append (d : Declaration ys) (hxs : nestAll [] xs = []) :
    Declaration (xs ++ ys) where
  before := xs ++ d.before
  name := d.name
  text := d.text
  gap := d.gap
  colon := d.colon
  written := d.written
  after := d.after
  eq := by rw [List.append_assoc, ← d.eq]
  closed := by rw [nestAll_append, hxs, d.closed]
  isGap := d.isGap
  isColon := d.isColon
  isSealed := d.isSealed
  ends := d.ends

/-- Whether a token starts no declaration, and is skipped with all that comes before the next
semicolon. -/
def Token.isMisplaced : Token → Bool
  | .blank => false
  | .comment => false
  | .semicolon => false
  | .atWord => false
  | .name _ => false
  | _ => true

theorem declarations_cons_misplaced (h : x.token.isMisplaced = true) (xs : List Lexeme) :
    declarations (x :: xs) =
      declarations ((x :: xs).drop (extent (· == .semicolon) [] (x :: xs))) := by
  obtain ⟨t, text⟩ := x
  have hstop : (t == .semicolon) = false := by
    cases t <;> first | rfl | cases h
  have hextent : extent (· == .semicolon) [] (⟨t, text⟩ :: xs) =
      extent (· == .semicolon) (nest [] t) xs + 1 := by
    simp [extent, hstop]
  rw [hextent, List.drop_succ_cons, ← declarationsFrom_eq, declarations, declarationsFrom]
  cases t <;> first | rfl | cases h

theorem declarations_cons_atWord (h : x.token = .atWord) (xs : List Lexeme) :
    declarations (x :: xs) = declarations (xs.drop (atRuleLength xs)) := by
  rw [← declarationsFrom_eq, declarations, declarationsFrom, h]

/-- What stands after the name of a declaration, if there is a colon. -/
theorem exists_of_afterColon? {written : List Lexeme} (h : afterColon? xs = some written) :
    ∃ gap colon, xs = gap ++ colon :: written ∧ (∀ x ∈ gap, isGap x = true) ∧
      colon.token = .colon := by
  have hsplit := List.takeWhile_append_dropWhile (p := isGap) (l := xs)
  unfold afterColon? at h
  split at h
  · next colon rest hdrop =>
    split at h
    · next hcolon =>
      cases h
      rw [hdrop] at hsplit
      exact ⟨_, colon, hsplit.symm, fun x hx => List.mem_takeWhile_imp hx, hcolon⟩
    · cases h
  · cases h

/-- The stretch up to a semicolon or to the end. -/
theorem exists_extent_semicolon (hclosed : nestAll [] xs = []) :
    ∃ pre rest, xs = pre ++ rest ∧ Sealed (· == .semicolon) pre ∧
      extent (· == .semicolon) [] xs = pre.length ∧ ∀ y ∈ rest.head?, y.token = .semicolon := by
  rcases sealed_or_exists_stop hclosed (· == .semicolon) with
    hsealed | ⟨pre, y, rest, rfl, hpre, hy, -⟩
  · exact ⟨xs, [], (List.append_nil xs).symm, hsealed, hsealed.extent_eq, by simp⟩
  · exact ⟨pre, y :: rest, rfl, hpre, hpre.extent_stop hy rest, by simpa using hy⟩

/-- One step of reading a block: some lexemes that leave no bracket open are skipped, or they
are a declaration. -/
theorem declarations_step (hclosed : nestAll [] (x :: xs) = []) :
    ∃ pre rest, x :: xs = pre ++ rest ∧ pre ≠ [] ∧ nestAll [] pre = [] ∧
      (declarations (x :: xs) = declarations rest ∨ ∃ p,
        (∃ d : Declaration (x :: xs), d.property = p) ∧
          declarations (x :: xs) = p :: declarations rest) := by
  by_cases hmisplaced : x.token.isMisplaced = true
  · obtain ⟨pre, rest, hsplit, hpre, hextent, hends⟩ := exists_extent_semicolon hclosed
    refine ⟨pre, rest, hsplit, ?_, hpre.closed, .inl ?_⟩
    · rintro rfl
      rw [hends x (by rw [← List.nil_append rest, ← hsplit]; rfl)] at hmisplaced
      cases hmisplaced
    · rw [declarations_cons_misplaced hmisplaced, hextent, hsplit, List.drop_left]
  · have hxs : x.token.isFlat = true → nestAll [] xs = [] := fun hflat => by
      rwa [nestAll_cons, nest_of_flat hflat] at hclosed
    obtain ⟨t, text⟩ := x
    cases t with
    | blank => exact ⟨[_], xs, rfl, by simp, rfl, .inl (declarations_cons_gap rfl xs)⟩
    | comment => exact ⟨[_], xs, rfl, by simp, rfl, .inl (declarations_cons_gap rfl xs)⟩
    | semicolon => exact ⟨[_], xs, rfl, by simp, rfl, .inl (declarations_semicolon text xs)⟩
    | atWord =>
      obtain ⟨pre, rest, rfl, hpre, hlength⟩ := exists_atRule (hxs rfl)
      refine ⟨⟨.atWord, text⟩ :: pre, rest, rfl, by simp, hpre, .inl ?_⟩
      rw [declarations_cons_atWord rfl, hlength, List.drop_left]
    | name value =>
      obtain ⟨pre, rest, rfl, hpre, hextent, hends⟩ := exists_extent_semicolon (hxs rfl)
      refine ⟨⟨.name value, text⟩ :: pre, rest, rfl, by simp, hpre.closed, ?_⟩
      rw [declarations_cons_name, hextent, List.take_left, List.drop_left]
      cases hcolon : afterColon? pre with
      | none => exact .inl rfl
      | some written =>
        obtain ⟨gap, colon, rfl, hgap, htoken⟩ := exists_of_afterColon? hcolon
        have hwritten : Sealed (· == .semicolon) written := by
          rw [List.append_cons] at hpre
          exact hpre.right (nestAll_of_flat (isFlat_lead hgap htoken))
        refine .inr ⟨_, ⟨⟨[], value, text, gap, colon, written, rest, ?_, rfl, hgap, htoken,
          hwritten, hends⟩, rfl⟩, rfl⟩
        rw [List.append_assoc]
        rfl
    | _ => exact absurd rfl hmisplaced

theorem declarations_readsInSteps :
    ReadsInSteps declarations fun xs p => ∃ d : Declaration xs, d.property = p where
  nil := rfl
  append := by
    rintro xs ys p hxs ⟨d, rfl⟩
    exact ⟨d.append hxs, rfl⟩
  step := declarations_step

/-- Every property of a closed block is read from a declaration in it. -/
theorem exists_declaration_of_mem (hclosed : nestAll [] xs = []) {p : Property}
    (hp : p ∈ declarations xs) : ∃ d : Declaration xs, d.property = p :=
  declarations_readsInSteps.of_mem hclosed hp

/-! ## Rules -/

/-- A selector with its block, in a sheet. -/
structure Block (xs : List Lexeme) where
  before : List Lexeme
  selector : List Lexeme
  opening : Lexeme
  body : List Lexeme
  closing : Lexeme
  after : List Lexeme
  eq : xs = before ++ (selector ++ opening :: (body ++ closing :: after))
  starts : ∀ x ∈ selector.head?, x.token.startsRule = true
  isRead : startsCustom selector = false
  selectorSealed : Sealed (· == .opening .curly) selector
  isOpening : opening.token = .opening .curly
  bodySealed : Sealed (· == .closing .curly) body
  isClosing : closing.token = .closing .curly

/-- The rule that is read from a selector with its block. -/
def Block.rule (b : Block xs) : Rule := ⟨trimmedText b.selector, declarations b.body⟩

/-- A block further on in a sheet. -/
def Block.append (b : Block ys) (xs : List Lexeme) : Block (xs ++ ys) where
  before := xs ++ b.before
  selector := b.selector
  opening := b.opening
  body := b.body
  closing := b.closing
  after := b.after
  eq := by rw [List.append_assoc, ← b.eq]
  starts := b.starts
  isRead := b.isRead
  selectorSealed := b.selectorSealed
  isOpening := b.isOpening
  bodySealed := b.bodySealed
  isClosing := b.isClosing

theorem rules_cons_markup (h : x.token = .markup) (xs : List Lexeme) :
    rules (x :: xs) = rules xs := by
  rw [rules, rulesFrom, h]
  rfl

theorem rules_cons_atWord (h : x.token = .atWord) (xs : List Lexeme) :
    rules (x :: xs) = rules (xs.drop (atRuleLength xs)) := by
  rw [← rulesFrom_eq, rules, rulesFrom, h]

/-- One step of reading a sheet: some lexemes that leave no bracket open are skipped, or they
are a selector with its block. -/
theorem rules_step (hclosed : nestAll [] (x :: xs) = []) :
    ∃ pre rest, x :: xs = pre ++ rest ∧ pre ≠ [] ∧ nestAll [] pre = [] ∧
      (rules (x :: xs) = rules rest ∨ ∃ r, (∃ b : Block (x :: xs), b.rule = r) ∧
        rules (x :: xs) = r :: rules rest) := by
  by_cases hstarts : x.token.startsRule = true
  · rcases sealed_or_exists_stop hclosed (· == .opening .curly) with
      hsealed | ⟨sel, o, rest, hsplit, hsel, ho, hrest⟩
    · refine ⟨x :: xs, [], (List.append_nil _).symm, by simp, hclosed, .inl ?_⟩
      rw [rules_cons hstarts, hsealed.extent_eq, List.drop_length]
      rfl
    · rw [beq_iff_eq] at ho
      rw [nestAll_cons, ho] at hrest
      obtain ⟨body, c, after, rfl, hbody, hc, -⟩ := exists_block hrest
      have hhead : ∀ y ∈ sel.head?, y.token.startsRule = true := by
        intro y hy
        cases sel with
        | nil => cases hy
        | cons z zs =>
          cases hy
          rwa [← (List.cons.inj hsplit).1]
      refine ⟨sel ++ o :: (body ++ [c]), after, by rw [hsplit]; simp, by simp, ?_, ?_⟩
      · rw [nestAll_append, hsel.closed, closed_block ho hbody hc]
      · rw [hsplit, rules_block hhead hsel ho hbody hc]
        cases hcustom : startsCustom sel with
        | true => exact .inl rfl
        | false =>
          exact .inr ⟨_, ⟨⟨[], sel, o, body, c, after, rfl, hhead, hcustom, hsel, ho, hbody, hc⟩,
            rfl⟩, rfl⟩
  · have hxs : x.token.isFlat = true → nestAll [] xs = [] := fun hflat => by
      rwa [nestAll_cons, nest_of_flat hflat] at hclosed
    obtain ⟨t, text⟩ := x
    cases t with
    | blank => exact ⟨[_], xs, rfl, by simp, rfl, .inl (rules_cons_gap rfl xs)⟩
    | comment => exact ⟨[_], xs, rfl, by simp, rfl, .inl (rules_cons_gap rfl xs)⟩
    | markup => exact ⟨[_], xs, rfl, by simp, rfl, .inl (rules_cons_markup rfl xs)⟩
    | atWord =>
      obtain ⟨pre, rest, rfl, hpre, hlength⟩ := exists_atRule (hxs rfl)
      refine ⟨⟨.atWord, text⟩ :: pre, rest, rfl, by simp, hpre, .inl ?_⟩
      rw [rules_cons_atWord rfl, hlength, List.drop_left]
    | _ => exact absurd rfl hstarts

theorem rules_readsInSteps : ReadsInSteps rules fun xs r => ∃ b : Block xs, b.rule = r where
  nil := rfl
  append := by
    rintro xs ys r - ⟨b, rfl⟩
    exact ⟨b.append xs, rfl⟩
  step := rules_step

/-- Every rule of a closed sheet is read from a selector with its block in it. -/
theorem exists_block_of_mem (hclosed : nestAll [] xs = []) {r : Rule} (hr : r ∈ rules xs) :
    ∃ b : Block xs, b.rule = r :=
  rules_readsInSteps.of_mem hclosed hr

end Reader
end StyleSheet
