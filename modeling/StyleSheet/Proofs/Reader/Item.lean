import Mathlib.Data.List.Basic
import StyleSheet.Proofs.Reader.Bare
import StyleSheet.Proofs.Reader.Origin

/-!
# Items of a block

The reader goes through a block item by item: a declaration, an at-rule or something misplaced,
and the gaps and semicolons between them.  When a part of a block is read together with what
comes after it, all depends on whether its last item is finished there.

* A part with all brackets closed that ends with a semicolon is finished, and what comes after
  it is read by itself (`declarations_append`).
* A part with all brackets closed that ends with anything that ends no item is not finished.
  Then its last item takes in what comes after it, up to a semicolon, and nothing that stands
  there is read (`exists_namesOf_append`).

Both are told from what one item does, whatever comes after the part (`finishes_or_absorbs`).
-/

namespace StyleSheet
namespace Reader

variable {x : Lexeme} {xs : List Lexeme}

/-- Whether an item of a block can end with a token. -/
def Token.endsItem : Token → Bool
  | .blank => true
  | .comment => true
  | .semicolon => true
  | .closing .curly => true
  | _ => false

/-- Lexemes that can be taken in by an item: they are flat, and no colon comes first. -/
structure IsAbsorbed (zs : List Lexeme) : Prop where
  flat : ∀ z ∈ zs, z.token.isFlat = true
  noColon : afterColon? zs = none

/-- The first item of a part of a block is finished in it, so that it is read without what comes
after it.  If it is the last one, then it ends with the part. -/
def Finishes (xs : List Lexeme) : Prop :=
  ∃ pre rest ps, xs = pre ++ rest ∧ pre ≠ [] ∧ nestAll [] pre = [] ∧
    (rest = [] → ∃ y ∈ xs.getLast?, y.token.endsItem = true) ∧
      ∀ ys, declarations (xs ++ ys) = ps ++ declarations (rest ++ ys)

/-- The last item of a part of a block takes in what comes after it, up to a semicolon.  Only
values can change by that. -/
structure Absorbs (xs : List Lexeme) : Prop where
  last : ∀ y ∈ xs.getLast?, y.token ≠ .semicolon
  names : ∃ names, ∀ zs, IsAbsorbed zs → ∀ y : Lexeme, y.token = .semicolon → ∀ ys,
    namesOf (xs ++ (zs ++ y :: ys)) = names ++ namesOf ys

theorem IsAbsorbed.sealed {zs : List Lexeme} (h : IsAbsorbed zs) {stop : Token → Bool}
    (hstop : ∀ t, stop t = true → t.isDelimiter = true) : Sealed stop zs :=
  Sealed.of_flat hstop h.flat

/-- There is no semicolon at the end of a stretch that is sealed against semicolons. -/
theorem Sealed.last_ne_semicolon (h : Sealed (· == .semicolon) xs) :
    ∀ y ∈ xs.getLast?, y.token ≠ .semicolon := by
  intro y hy htoken
  obtain ⟨front, rfl⟩ := List.getLast?_eq_some_iff.mp hy
  have hclosed := h.closed
  have hpasses := h.passes
  rw [nestAll_append, nestAll_cons, htoken] at hclosed
  have hfront : nestAll [] front = [] := hclosed
  rw [passes_append, hfront, passes_cons, htoken] at hpasses
  simp at hpasses

/-! ## One item -/

/-- What is misplaced goes up to a semicolon. -/
theorem finishes_or_absorbs_misplaced (hx : x.token.isMisplaced = true)
    (hclosed : nestAll [] (x :: xs) = []) : Finishes (x :: xs) ∨ Absorbs (x :: xs) := by
  rcases sealed_or_exists_stop hclosed (· == .semicolon) with
    hsealed | ⟨pre, y, rest, hsplit, hpre, hy, -⟩
  · refine .inr ⟨hsealed.last_ne_semicolon, [], fun zs hzs y hy ys => ?_⟩
    have hextent := (hsealed.append (hzs.sealed (Token.isDelimiter_of_beq rfl))).extent_stop
      (x := y) (by simp [hy]) ys
    obtain ⟨t, text⟩ := y
    cases hy
    rw [← List.append_assoc, namesOf, List.cons_append, List.cons_append,
      declarations_cons_misplaced hx, ← List.cons_append, ← List.cons_append, hextent,
      List.drop_left, declarations_semicolon]
    rfl
  · refine .inl ⟨pre, y :: rest, [], hsplit, ?_, hpre.closed,
      fun h => absurd h (List.cons_ne_nil y rest), fun ys => ?_⟩
    · rintro rfl
      obtain ⟨rfl, -⟩ := List.cons.inj hsplit
      rw [beq_iff_eq.mp hy] at hx
      cases hx
    · have hextent := hpre.extent_stop hy (rest ++ ys)
      have htext : x :: xs ++ ys = pre ++ y :: (rest ++ ys) := by simp [hsplit]
      rw [List.cons_append] at htext
      rw [List.cons_append, declarations_cons_misplaced hx, htext, hextent, List.drop_left]
      rfl

/-- A name goes up to a semicolon, with what is declared or not. -/
theorem finishes_or_absorbs_name (value text : List Char) (hclosed : nestAll [] xs = []) :
    Finishes (⟨.name value, text⟩ :: xs) ∨ Absorbs (⟨.name value, text⟩ :: xs) := by
  rcases sealed_or_exists_stop hclosed (· == .semicolon) with
    hsealed | ⟨pre, y, rest, rfl, hpre, hy, -⟩
  · have hlast : Sealed (· == .semicolon) ([⟨.name value, text⟩] ++ xs) :=
      Sealed.append ⟨rfl, rfl⟩ hsealed
    refine .inr ⟨hlast.last_ne_semicolon,
      if (afterColon? xs).isSome then [String.ofList value] else [], fun zs hzs y hy ys => ?_⟩
    have hextent := (hsealed.append (hzs.sealed (Token.isDelimiter_of_beq rfl))).extent_stop
      (x := y) (by simp [hy]) ys
    have hcolon := isSome_afterColon?_append hzs.noColon xs
    obtain ⟨t, semicolon⟩ := y
    cases hy
    rw [← List.append_assoc, namesOf, List.cons_append, List.cons_append, declarations_cons_name,
      hextent, List.take_left, List.drop_left, declarations_semicolon, ← hcolon]
    cases afterColon? (xs ++ zs) <;> rfl
  · refine .inl ⟨⟨.name value, text⟩ :: pre, y :: rest,
      (afterColon? pre).toList.map fun written => ⟨String.ofList value, trimmedText written⟩, rfl,
      List.cons_ne_nil _ _, hpre.closed, fun h => absurd h (List.cons_ne_nil y rest), fun ys => ?_⟩
    have hextent := hpre.extent_stop hy (rest ++ ys)
    rw [List.cons_append, List.append_assoc, List.cons_append, declarations_cons_name, hextent,
      List.take_left, List.drop_left]
    cases afterColon? pre <;> rfl

/-- An at-rule goes through a semicolon or a block. -/
theorem finishes_or_absorbs_atWord (hx : x.token = .atWord) (hclosed : nestAll [] xs = []) :
    Finishes (x :: xs) ∨ Absorbs (x :: xs) := by
  rcases sealed_or_exists_atRule hclosed with
    hsealed | ⟨pre, y, rest, rfl, hy, hpre, hlength⟩
  · have hfirst : Sealed (· == .semicolon) [x] := by
      rw [show x = ⟨.atWord, x.text⟩ by rw [← hx]]
      exact ⟨rfl, rfl⟩
    have hlast := hfirst.append (hsealed.mono fun t ht => by simp_all)
    refine .inr ⟨hlast.last_ne_semicolon, [], fun zs hzs y hy ys => ?_⟩
    have hstop : ∀ t : Token, (t == .semicolon || t == .opening .curly) = true →
        t.isDelimiter = true := fun t ht => by
      rcases (Bool.or_eq_true _ _).mp ht with ht | ht
      · exact Token.isDelimiter_of_beq rfl t ht
      · exact Token.isDelimiter_of_beq rfl t ht
    have hlength : atRuleLength (xs ++ zs ++ y :: ys) = (xs ++ zs).length + 1 :=
      atRuleLength_of_semicolon (hsealed.append (hzs.sealed hstop)) hy
    rw [← List.append_assoc, namesOf, List.cons_append, List.cons_append,
      declarations_cons_atWord hx, hlength, ← List.drop_drop, List.drop_left]
    rfl
  · refine .inl ⟨x :: (pre ++ [y]), rest, [], by simp, List.cons_ne_nil _ _, ?_, fun h => ?_,
      fun ys => ?_⟩
    · rw [nestAll_cons, hx]
      exact hpre
    · subst h
      refine ⟨y, List.getLast?_concat (l := x :: pre), ?_⟩
      rcases hy with hy | hy <;> rw [hy] <;> rfl
    · rw [List.cons_append, declarations_cons_atWord hx, List.append_assoc, List.cons_append,
        hlength, ← List.drop_drop, List.drop_left]
      rfl

/-- The first item of a part of a block that leaves no bracket open. -/
theorem finishes_or_absorbs (hclosed : nestAll [] (x :: xs) = []) :
    Finishes (x :: xs) ∨ Absorbs (x :: xs) := by
  by_cases hmisplaced : x.token.isMisplaced = true
  · exact finishes_or_absorbs_misplaced hmisplaced hclosed
  · have hxs : x.token.isFlat = true → nestAll [] xs = [] := fun hflat => by
      rwa [nestAll_cons, nest_of_flat hflat] at hclosed
    have hone : nest [] x.token = [] → x.token.endsItem = true →
        (∀ ys, declarations (x :: ys) = declarations ys) → Finishes (x :: xs) :=
      fun hflat hends hread => ⟨[x], xs, [], rfl, List.cons_ne_nil _ _, hflat,
        fun h => ⟨x, by rw [h]; rfl, hends⟩, fun ys => hread (xs ++ ys)⟩
    obtain ⟨t, text⟩ := x
    cases t with
    | blank => exact .inl (hone rfl rfl (declarations_cons_gap rfl))
    | comment => exact .inl (hone rfl rfl (declarations_cons_gap rfl))
    | semicolon =>
      refine .inl (hone ?_ rfl (declarations_semicolon text))
      rfl
    | atWord => exact finishes_or_absorbs_atWord rfl (hxs rfl)
    | name value => exact finishes_or_absorbs_name value text (hxs rfl)
    | _ => exact absurd rfl hmisplaced

/-! ## A part of a block -/

/-- A part of a block that leaves no bracket open is finished, or its last item takes in what comes
after it. -/
theorem isFinished_or_absorbs {xs : List Lexeme} (hclosed : nestAll [] xs = []) :
    (∃ ps, (∀ y ∈ xs.getLast?, y.token.endsItem = true) ∧
        ∀ ys, declarations (xs ++ ys) = ps ++ declarations ys) ∨
      ∃ pre x rest ps, xs = pre ++ x :: rest ∧ Absorbs (x :: rest) ∧
        ∀ ys, declarations (xs ++ ys) = ps ++ declarations (x :: rest ++ ys) := by
  match xs with
  | [] => exact .inl ⟨[], fun y hy => (by cases hy), fun ys => rfl⟩
  | x :: xs =>
    rcases finishes_or_absorbs hclosed with
      ⟨pre, rest, ps, hsplit, hne, hpre, hends, hread⟩ | habsorbs
    · have hless : rest.length < (x :: xs).length := by
        have hpos := List.length_pos_iff.mpr hne
        rw [hsplit, List.length_append]
        omega
      rw [hsplit, nestAll_append, hpre] at hclosed
      rcases isFinished_or_absorbs hclosed with
        ⟨qs, hlast, hfinished⟩ | ⟨pre', z, rest', qs, rfl, habsorbs, hread'⟩
      · refine .inl ⟨ps ++ qs, fun y hy => ?_, fun ys => ?_⟩
        · cases rest with
          | nil =>
            obtain ⟨z, hz, hz'⟩ := hends rfl
            cases Option.mem_unique hy hz
            exact hz'
          | cons z rest =>
            rw [hsplit, List.getLast?_append_of_ne_nil _ (List.cons_ne_nil _ _)] at hy
            exact hlast y hy
        · rw [hread, hfinished, List.append_assoc]
      · refine .inr ⟨pre ++ pre', z, rest', ps ++ qs, ?_, habsorbs, fun ys => ?_⟩
        · rw [hsplit, List.append_assoc]
        · rw [hread, hread', List.append_assoc]
    · exact .inr ⟨[], x, xs, [], rfl, habsorbs, fun ys => rfl⟩
termination_by xs.length
decreasing_by exact hless

/-- A part of a block that leaves no bracket open and ends with a semicolon is read by itself. -/
theorem declarations_append (hclosed : nestAll [] xs = [])
    (hlast : ∃ y ∈ xs.getLast?, y.token = .semicolon) (ys : List Lexeme) :
    declarations (xs ++ ys) = declarations xs ++ declarations ys := by
  rcases isFinished_or_absorbs hclosed with ⟨ps, -, hread⟩ | ⟨pre, x, rest, ps, rfl, habsorbs, -⟩
  · have hself := hread []
    rw [List.append_nil, declarations_nil, List.append_nil] at hself
    rw [hread, hself]
  · obtain ⟨y, hy, htoken⟩ := hlast
    rw [List.getLast?_append_of_ne_nil _ (List.cons_ne_nil _ _)] at hy
    exact absurd htoken (habsorbs.last y hy)

/-- A part of a block that leaves no bracket open, and does not end as an item does, takes in
what comes after it up to a semicolon. -/
theorem exists_namesOf_append (hclosed : nestAll [] xs = [])
    (hlast : ∃ y ∈ xs.getLast?, y.token.endsItem = false) :
    ∃ names, ∀ zs, IsAbsorbed zs → ∀ y : Lexeme, y.token = .semicolon → ∀ ys,
      namesOf (xs ++ (zs ++ y :: ys)) = names ++ namesOf ys := by
  rcases isFinished_or_absorbs hclosed with
    ⟨ps, hends, -⟩ | ⟨pre, x, rest, ps, rfl, habsorbs, hread⟩
  · obtain ⟨y, hy, hy'⟩ := hlast
    rw [hends y hy] at hy'
    cases hy'
  · obtain ⟨names, hnames⟩ := habsorbs.names
    refine ⟨ps.map Property.name ++ names, fun zs hzs y hy ys => ?_⟩
    have hrest := hnames zs hzs y hy ys
    rw [namesOf] at hrest ⊢
    rw [hread, List.map_append, hrest, List.append_assoc]

end Reader
end StyleSheet
