import StyleSheet.Proofs.Reader.Fragment

/-!
# Curly brackets in text

In quiet text without round and square brackets that open, the nesting of lexemes can be
followed in the characters: `openCurly` counts the curly brackets that are open, and agrees
with `nestAll` (`nestAll_lexemes`).

Text is balanced if it closes what it opens, and nothing else.  The lexemes of such text can
stand in a block: none of them closes it (`IsBalanced.sealed`).
-/

namespace StyleSheet
namespace Reader

variable {c : Char} {v cs : List Char}

/-! ## Open brackets -/

/-- The number of open curly brackets after one more character.  A bracket that closes
nothing changes nothing. -/
def countCurly (n : Nat) (c : Char) : Nat :=
  if c = '\x7b' then n + 1 else if c = '\x7d' then n - 1 else n

/-- The number of open curly brackets after a text, if `n` are open before it. -/
def openCurly (n : Nat) (v : List Char) : Nat := v.foldl countCurly n

theorem openCurly_append (n : Nat) (u v : List Char) :
    openCurly n (u ++ v) = openCurly (openCurly n u) v :=
  List.foldl_append

theorem openCurly_of_goesOn (hv : ∀ c ∈ v, goesOn c = true) (n : Nat) : openCurly n v = n := by
  induction v with
  | nil => rfl
  | cons c cs ih =>
    have hc := hv c List.mem_cons_self
    have hopen : c ≠ '\x7b' := by rintro rfl; exact absurd hc (by decide)
    have hclose : c ≠ '\x7d' := by rintro rfl; exact absurd hc (by decide)
    rw [openCurly, List.foldl_cons, countCurly, if_neg hopen, if_neg hclose]
    exact ih fun d hd => hv d (List.mem_cons_of_mem c hd)

/-- A lexeme opens and closes what its first character does. -/
theorem nest_scan (h : Quiet (c :: cs)) (hsquare : c ≠ '[') (n : Nat) :
    nest (List.replicate n .curly) (scan c cs).1 = List.replicate (countCurly n c) .curly := by
  by_cases hopen : c = '\x7b'
  · subst hopen
    rfl
  by_cases hclose : c = '\x7d'
  · subst hclose
    cases n <;> rfl
  rw [countCurly, if_neg hopen, if_neg hclose]
  have hother : ∀ b : Bracket, b ≠ .curly →
      nest (List.replicate n .curly) (.closing b) = List.replicate n .curly := by
    intro b hb
    cases n with
    | zero => rfl
    | succ n => simp [nest, List.replicate_succ, hb.symm]
  have hs := scans c cs
  generalize scan c cs = r at hs ⊢
  cases hs with
  | opening b hb =>
    cases b with
    | round => exact absurd hb h.head.2.2.1
    | square => exact absurd hb hsquare
    | curly => exact absurd hb hopen
  | closing b hb =>
    cases b with
    | round => exact hother _ (by decide)
    | square => exact hother _ (by decide)
    | curly => exact absurd hb hclose
  | name => rw [h.scanName_eq_name]; rfl
  | _ => rfl

/-- After a lexeme the brackets are counted as after its first character. -/
theorem openCurly_scan (h : Quiet (c :: cs)) (n : Nat) (u : List Char) :
    openCurly n (c :: (cs.take (scan c cs).2 ++ u)) = openCurly (countCurly n c) u := by
  show openCurly (countCurly n c) (cs.take (scan c cs).2 ++ u) = _
  rw [openCurly_append, openCurly_of_goesOn fun d => h.goesOn_of_mem_scan]

/-- In text without round and square opening brackets, the open brackets are counted. -/
theorem nestAll_lexemes {v : List Char} (h : Quiet v) (hsquare : '[' ∉ v) (n : Nat) :
    nestAll (List.replicate n .curly) (lexemes v) = List.replicate (openCurly n v) .curly := by
  match v with
  | [] => rfl
  | c :: cs =>
    have hne : c ≠ '[' := fun heq => hsquare (heq ▸ List.mem_cons_self)
    have hrest : '[' ∉ cs.drop (scan c cs).2 := fun hmem =>
      hsquare (List.mem_cons_of_mem c (List.mem_of_mem_drop hmem))
    have hquiet : Quiet (cs.drop (scan c cs).2) := h.tail.of_suffix (List.drop_suffix _ cs)
    have hcount := openCurly_scan h n (cs.drop (scan c cs).2)
    rw [List.take_append_drop] at hcount
    rw [lexemes_cons, nestAll_cons, nest_scan h hne, nestAll_lexemes hquiet hrest, hcount]
termination_by v.length
decreasing_by simp only [List.length_drop, List.length_cons]; omega

/-- In such text the semicolons are passed over if all of them are inside of brackets. -/
theorem passes_semicolon {v : List Char} (h : Quiet v) (hsquare : '[' ∉ v) {n : Nat}
    (hinside : ∀ u, u ++ [';'] <+: v → openCurly n u ≠ 0) :
    passes (· == .semicolon) (List.replicate n .curly) (lexemes v) = true := by
  match v with
  | [] => rfl
  | c :: cs =>
    have hne : c ≠ '[' := fun heq => hsquare (heq ▸ List.mem_cons_self)
    have hrest : '[' ∉ cs.drop (scan c cs).2 := fun hmem =>
      hsquare (List.mem_cons_of_mem c (List.mem_of_mem_drop hmem))
    have hquiet : Quiet (cs.drop (scan c cs).2) := h.tail.of_suffix (List.drop_suffix _ cs)
    have hlater : ∀ u, u ++ [';'] <+: cs.drop (scan c cs).2 →
        openCurly (countCurly n c) u ≠ 0 := by
      intro u hu
      have hwhole : (c :: (cs.take (scan c cs).2 ++ u)) ++ [';'] <+: c :: cs := by
        rw [List.cons_append, List.append_assoc, List.prefix_cons_inj]
        have hprefix := (List.prefix_append_right_inj (cs.take (scan c cs).2)).mpr hu
        rwa [List.take_append_drop] at hprefix
      rw [← openCurly_scan h]
      exact hinside _ hwhole
    have hfirst : (scan c cs).1 = .semicolon → n ≠ 0 := by
      intro hsemicolon
      have hc : c = ';' := eq_of_first? (by rw [hsemicolon]; rfl)
      refine hinside [] ⟨cs, ?_⟩
      rw [hc]
      rfl
    rw [lexemes_cons, passes_cons, nest_scan h hne, passes_semicolon hquiet hrest hlater]
    cases n with
    | zero => simpa using hfirst
    | succ n => rfl
termination_by v.length
decreasing_by simp only [List.length_drop, List.length_cons]; omega

/-! ## Balanced text -/

/-- Text whose curly brackets are balanced: there are as many of both kinds, and nowhere were
more closed than opened before. -/
structure IsBalanced (v : List Char) : Prop where
  count_eq : v.count '\x7b' = v.count '\x7d'
  count_le : ∀ u, u <+: v → u.count '\x7d' ≤ u.count '\x7b'

instance (v : List Char) : Decidable (IsBalanced v) :=
  decidable_of_iff (v.count '\x7b' = v.count '\x7d' ∧
      ∀ u ∈ v.inits, u.count '\x7d' ≤ u.count '\x7b')
    ⟨fun h => ⟨h.1, fun u hu => h.2 u ((List.mem_inits u v).mpr hu)⟩,
      fun h => ⟨h.count_eq, fun u hu => h.count_le u ((List.mem_inits u v).mp hu)⟩⟩

theorem countCurly_add_count {n : Nat} (h : [c].count '\x7d' ≤ n + [c].count '\x7b') :
    countCurly n c + [c].count '\x7d' = n + [c].count '\x7b' := by
  by_cases hopen : c = '\x7b'
  · subst hopen
    rfl
  by_cases hclose : c = '\x7d'
  · subst hclose
    have hpos : 1 ≤ n := h
    show n - 1 + 1 = n
    omega
  · have hzero : ∀ d, c ≠ d → [c].count d = 0 := fun d hd =>
      List.count_eq_zero.mpr fun hmem => hd (List.mem_singleton.mp hmem).symm
    rw [countCurly, if_neg hopen, if_neg hclose, hzero _ hopen, hzero _ hclose]

/-- The count of open brackets, if enough are open for those that close. -/
theorem openCurly_add_count {n : Nat} (h : ∀ u, u <+: v → u.count '\x7d' ≤ n + u.count '\x7b') :
    openCurly n v + v.count '\x7d' = n + v.count '\x7b' := by
  induction v generalizing n with
  | nil => rfl
  | cons c cs ih =>
    have hcons : ∀ d u, (c :: u).count d = [c].count d + u.count d := fun d u => by
      rw [← List.singleton_append, List.count_append]
    have hfirst := countCurly_add_count (h [c] (List.prefix_append [c] cs))
    have hrest : ∀ u, u <+: cs → u.count '\x7d' ≤ countCurly n c + u.count '\x7b' := by
      intro u hu
      have hprefix := h (c :: u) ((List.prefix_cons_inj c).mpr hu)
      rw [hcons _ u, hcons _ u] at hprefix
      omega
    have hopen : openCurly n (c :: cs) = openCurly (countCurly n c) cs := rfl
    have ih := ih hrest
    rw [hcons _ cs, hcons _ cs, hopen]
    omega

namespace IsBalanced

/-- Balanced text leaves as many brackets open as were open before it. -/
theorem openCurly_eq (h : IsBalanced v) (n : Nat) : openCurly n v = n := by
  have hcount := openCurly_add_count (n := n) (v := v) fun u hu =>
    (h.count_le u hu).trans (Nat.le_add_left _ n)
  rw [h.count_eq] at hcount
  exact Nat.add_right_cancel hcount

/-- Balanced text ends no block. -/
theorem sealed (h : IsBalanced v) (hv : Quiet v) (hsquare : '[' ∉ v) :
    Sealed (· == .closing .curly) (lexemes v) := by
  have hnest : ∀ n, nestAll (List.replicate n .curly) (lexemes v) = List.replicate n .curly :=
    fun n => by rw [nestAll_lexemes hv hsquare, h.openCurly_eq]
  rcases passes_or_exists_stop (· == .closing .curly) [] (lexemes v) with
    hpasses | ⟨pre, y, rest, hsplit, hpre, hclosed, hy⟩
  · exact ⟨hpasses, hnest 0⟩
  · -- a bracket that closes nothing would close one that is open before the text
    have hnone : nestAll [] (pre ++ y :: rest) = [] := hsplit ▸ hnest 0
    have hone : nestAll [.curly] (pre ++ y :: rest) = [.curly] := hsplit ▸ hnest 1
    have hopen := nestAll_append_curly hpre
    rw [beq_iff_eq] at hy
    rw [List.nil_append, hclosed] at hopen
    rw [nestAll_append, hopen, nestAll_cons, hy] at hone
    rw [nestAll_append, hclosed, nestAll_cons, hy] at hnone
    exact absurd (hnone.symm.trans hone) (by decide)

end IsBalanced
end Reader
end StyleSheet
