import StyleSheet.Reader.Rules

/-!
# Nesting

Every part of a sheet is found by `extent`, which counts lexemes up to a stop outside of
all brackets.  This module says when a stretch of lexemes is counted whole, whatever
comes after it.

Two things decide that: no lexeme of the stretch is itself such a stop (`passes`), and
the brackets that the stretch leaves open (`nestAll`), with which the count goes on.  A
stretch that passes and leaves no bracket open is `Sealed`: it is counted whole, and the
count goes on as if nothing had been before it.

* `extent_append`: the count of a stretch and of what follows it.
* `Sealed.extent_stop`: the count of a sealed stretch before a stop.
* `Sealed.append`, `Sealed.of_flat`, `Sealed.bracketed`: how sealed stretches are made.
-/

namespace StyleSheet
namespace Reader

variable {stop : Token → Bool} {stack : List Bracket} {xs ys : List Lexeme}

/-- The open brackets after several more lexemes. -/
def nestAll (stack : List Bracket) (xs : List Lexeme) : List Bracket :=
  xs.foldl (fun s x => nest s x.token) stack

@[simp] theorem nestAll_nil (stack : List Bracket) : nestAll stack [] = stack := rfl

@[simp] theorem nestAll_cons (stack : List Bracket) (x : Lexeme) (xs : List Lexeme) :
    nestAll stack (x :: xs) = nestAll (nest stack x.token) xs := rfl

theorem nestAll_append (stack : List Bracket) (xs ys : List Lexeme) :
    nestAll stack (xs ++ ys) = nestAll (nestAll stack xs) ys :=
  List.foldl_append

/-- Whether no lexeme of several is a stop outside of all brackets. -/
def passes (stop : Token → Bool) : List Bracket → List Lexeme → Bool
  | _, [] => true
  | stack, x :: xs => !(stack.isEmpty && stop x.token) && passes stop (nest stack x.token) xs

@[simp] theorem passes_nil (stop : Token → Bool) (stack : List Bracket) :
    passes stop stack [] = true := rfl

theorem passes_cons (stop : Token → Bool) (stack : List Bracket) (x : Lexeme)
    (xs : List Lexeme) :
    passes stop stack (x :: xs) =
      (!(stack.isEmpty && stop x.token) && passes stop (nest stack x.token) xs) := rfl

theorem passes_append (stop : Token → Bool) (stack : List Bracket) (xs ys : List Lexeme) :
    passes stop stack (xs ++ ys) = (passes stop stack xs && passes stop (nestAll stack xs) ys) := by
  induction xs generalizing stack with
  | nil => simp
  | cons x xs ih =>
    rw [List.cons_append, passes_cons, passes_cons, ih, nestAll_cons, Bool.and_assoc]

theorem passes_left (h : passes stop stack (xs ++ ys) = true) : passes stop stack xs = true := by
  rw [passes_append, Bool.and_eq_true] at h
  exact h.1

/-- What passes two kinds of stops passes stops of either kind. -/
theorem passes_or {stop₁ stop₂ : Token → Bool}
    (hor : ∀ t, stop t = true → stop₁ t = true ∨ stop₂ t = true)
    (h₁ : passes stop₁ stack xs = true) (h₂ : passes stop₂ stack xs = true) :
    passes stop stack xs = true := by
  induction xs generalizing stack with
  | nil => rfl
  | cons x xs ih =>
    rw [passes_cons, Bool.and_eq_true, Bool.not_eq_true', Bool.and_eq_false_iff] at h₁ h₂ ⊢
    refine ⟨?_, ih h₁.2 h₂.2⟩
    rcases h₁.1 with hempty | hx₁
    · exact .inl hempty
    · refine h₂.1.imp_right fun hx₂ => Bool.eq_false_iff.mpr fun hx => ?_
      rcases hor _ hx with hx | hx
      · exact Bool.false_ne_true (hx₁.symm.trans hx)
      · exact Bool.false_ne_true (hx₂.symm.trans hx)

/-- Fewer stops are passed more easily. -/
theorem passes_mono {stop' : Token → Bool} (hle : ∀ t, stop' t = true → stop t = true)
    (h : passes stop stack xs = true) : passes stop' stack xs = true := by
  induction xs generalizing stack with
  | nil => rfl
  | cons x xs ih =>
    rw [passes_cons, Bool.and_eq_true, Bool.not_eq_true', Bool.and_eq_false_iff] at h ⊢
    refine ⟨h.1.imp_right fun hx => ?_, ih h.2⟩
    exact Bool.eq_false_iff.mpr fun hx' => absurd (hle _ hx') (by simp [hx])

/-- A stretch that passes is counted whole, and the count goes on with its brackets. -/
theorem extent_append (h : passes stop stack xs = true) (ys : List Lexeme) :
    extent stop stack (xs ++ ys) = xs.length + extent stop (nestAll stack xs) ys := by
  induction xs generalizing stack with
  | nil => simp
  | cons x xs ih =>
    rw [passes_cons, Bool.and_eq_true, Bool.not_eq_true'] at h
    rw [List.cons_append, extent, h.1, if_neg Bool.false_ne_true, ih h.2, nestAll_cons,
      List.length_cons]
    omega

theorem extent_cons_stop {x : Lexeme} (h : stop x.token = true) (xs : List Lexeme) :
    extent stop [] (x :: xs) = 0 := by
  simp [extent, h]

theorem extent_of_passes (h : passes stop stack xs = true) : extent stop stack xs = xs.length := by
  have hnil := extent_append h []
  rwa [List.append_nil, extent, Nat.add_zero] at hnil

/-- Lexemes with no stop among them. -/
theorem passes_of_forall (h : ∀ x ∈ xs, stop x.token = false) : passes stop stack xs = true := by
  induction xs generalizing stack with
  | nil => rfl
  | cons x xs ih =>
    obtain ⟨hx, hxs⟩ := List.forall_mem_cons.mp h
    rw [passes_cons, hx, ih hxs, Bool.and_false]
    rfl

/-! ## Sealed stretches -/

/-- Lexemes that hold no stop outside of brackets and leave no bracket open. -/
structure Sealed (stop : Token → Bool) (xs : List Lexeme) : Prop where
  passes : passes stop [] xs = true
  closed : nestAll [] xs = []

namespace Sealed

theorem nil (stop : Token → Bool) : Sealed stop [] := ⟨rfl, rfl⟩

theorem append (hxs : Sealed stop xs) (hys : Sealed stop ys) : Sealed stop (xs ++ ys) where
  passes := by rw [passes_append, hxs.closed, hxs.passes, hys.passes, Bool.and_self]
  closed := by rw [nestAll_append, hxs.closed, hys.closed]

theorem mono {stop' : Token → Bool} (hle : ∀ t, stop' t = true → stop t = true)
    (h : Sealed stop xs) : Sealed stop' xs :=
  ⟨passes_mono hle h.passes, h.closed⟩

/-- What is left of a sealed stretch after a part with no open brackets. -/
theorem right (h : Sealed stop (xs ++ ys)) (hxs : nestAll [] xs = []) : Sealed stop ys where
  passes := by
    have hpasses := h.passes
    rw [passes_append, hxs, Bool.and_eq_true] at hpasses
    exact hpasses.2
  closed := by
    have hclosed := h.closed
    rwa [nestAll_append, hxs] at hclosed

theorem extent_append (h : Sealed stop xs) (ys : List Lexeme) :
    extent stop [] (xs ++ ys) = xs.length + extent stop [] ys := by
  rw [Reader.extent_append h.passes, h.closed]

theorem extent_eq (h : Sealed stop xs) : extent stop [] xs = xs.length :=
  extent_of_passes h.passes

/-- A sealed stretch is what comes before the stop after it. -/
theorem extent_stop (h : Sealed stop xs) {x : Lexeme} (hx : stop x.token = true)
    (ys : List Lexeme) : extent stop [] (xs ++ x :: ys) = xs.length := by
  rw [h.extent_append, extent_cons_stop hx, Nat.add_zero]

end Sealed

/-! ## Flat stretches -/

/-- Whether a token is neither a bracket nor a semicolon. -/
def Token.isFlat : Token → Bool
  | .opening _ => false
  | .closing _ => false
  | .semicolon => false
  | _ => true

/-- Whether a token can end a part of a sheet: a semicolon or a curly bracket. -/
def Token.isDelimiter : Token → Bool
  | .opening .curly => true
  | .closing .curly => true
  | .semicolon => true
  | _ => false

theorem Token.isDelimiter_eq_false {t : Token} (h : t.isFlat = true) : t.isDelimiter = false := by
  cases t <;> simp_all [isFlat, isDelimiter]

/-- A stop at one delimiter is a stop at delimiters. -/
theorem Token.isDelimiter_of_beq {d : Token} (hd : d.isDelimiter = true) (t : Token)
    (ht : (t == d) = true) : t.isDelimiter = true := by
  rw [beq_iff_eq.mp ht]
  exact hd

@[simp] theorem nest_of_flat {t : Token} (h : t.isFlat = true) : nest stack t = stack := by
  cases t <;> simp_all [Token.isFlat, nest]

/-- Flat lexemes leave the brackets as they are. -/
theorem nestAll_of_flat (h : ∀ x ∈ xs, x.token.isFlat = true) : nestAll stack xs = stack := by
  induction xs with
  | nil => rfl
  | cons x xs ih =>
    rw [nestAll_cons, nest_of_flat (h x List.mem_cons_self)]
    exact ih fun y hy => h y (List.mem_cons_of_mem x hy)

theorem passes_of_flat (hstop : ∀ t, stop t = true → t.isDelimiter = true)
    (h : ∀ x ∈ xs, x.token.isFlat = true) : passes stop stack xs = true := by
  induction xs with
  | nil => rfl
  | cons x xs ih =>
    have hx := h x List.mem_cons_self
    have hne : stop x.token = false :=
      Bool.eq_false_iff.mpr fun ht =>
        absurd (hstop _ ht) (by simp [Token.isDelimiter_eq_false hx])
    rw [passes_cons, hne, nest_of_flat hx, Bool.and_false, Bool.not_false, Bool.true_and]
    exact ih fun y hy => h y (List.mem_cons_of_mem x hy)

namespace Sealed

theorem of_flat (hstop : ∀ t, stop t = true → t.isDelimiter = true)
    (h : ∀ x ∈ xs, x.token.isFlat = true) : Sealed stop xs :=
  ⟨passes_of_flat hstop h, nestAll_of_flat h⟩

/-- Flat lexemes in round brackets. -/
theorem bracketed (hstop : ∀ t, stop t = true → t.isDelimiter = true) {x y : Lexeme}
    (hx : x.token = .opening .round) (hy : y.token = .closing .round)
    (h : ∀ z ∈ xs, z.token.isFlat = true) : Sealed stop (x :: (xs ++ [y])) := by
  have hround : stop (.opening .round) = false :=
    Bool.eq_false_iff.mpr fun ht => absurd (hstop _ ht) (by simp [Token.isDelimiter])
  constructor
  · rw [passes_cons, passes_append, hx, passes_of_flat hstop h, nestAll_of_flat h, passes_cons, hy]
    simp [hround, nest]
  · rw [nestAll_cons, nestAll_append, nestAll_of_flat h, hx, nestAll_cons, hy]
    rfl

end Sealed

end Reader
end StyleSheet
