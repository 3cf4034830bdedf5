import StyleSheet.Proofs.Reader.Plain

/-!
# What a sheet says of its styles

Each part of a generated sheet goes up to a mark: a selector to its curly bracket, a name to
its colon, a value to its semicolon.  If no part holds its own mark (`Style.IsDelimited`),
the text of a sheet tells what its styles are: equal sheets come from styles with equal
selectors and declarations (`Style.generate_eq_iff`).

This needs no reader, and so it is also true of the selectors that the reader skips.
-/

namespace StyleSheet

variable {u u' r r' : List Char}

/-- A text up to its first mark, and what comes after the mark, are determined. -/
theorem append_mark_eq_iff {mark : Char} (hu : mark ∉ u) (hu' : mark ∉ u') :
    u ++ mark :: r = u' ++ mark :: r' ↔ u = u' ∧ r = r' := by
  induction u generalizing u' with
  | nil =>
    cases u' with
    | nil => simp
    | cons c cs =>
      have hne : mark ≠ c := fun h => hu' (h ▸ List.mem_cons_self)
      simp [hne]
  | cons c cs ih =>
    have hne : c ≠ mark := fun h => hu (h ▸ List.mem_cons_self)
    cases u' with
    | nil => simp [hne]
    | cons d ds =>
      rw [List.cons_append, List.cons_append, List.cons.injEq, List.cons.injEq,
        ih (fun h => hu (List.mem_cons_of_mem c h)) fun h => hu' (List.mem_cons_of_mem d h),
        and_assoc]

theorem Property.eq_iff {p q : Property} :
    p = q ↔ p.name.toList = q.name.toList ∧ p.value.toList = q.value.toList := by
  rw [String.toList_inj, String.toList_inj]
  cases p
  cases q
  rw [mk.injEq]

/-- A declaration whose parts do not hold the marks that end them. -/
structure Property.IsDelimited (p : Property) : Prop where
  name : ':' ∉ p.name.toList
  value : ';' ∉ p.value.toList

/-- A style whose parts do not hold the marks that end them. -/
structure Style.IsDelimited (s : Style) : Prop where
  selector : '\x7b' ∉ s.selector.text.toList
  properties : ∀ p ∈ s.properties, p.IsDelimited

theorem Property.IsPlain.isDelimited {p : Property} (h : p.IsPlain) : p.IsDelimited where
  name hmem := absurd (Reader.isIdentifierChar_of_mem h.name hmem) (by decide)
  value hmem := absurd (h.value.chars _ hmem) (by decide)

theorem Style.IsPlain.isDelimited {s : Style} (h : s.IsPlain) : s.IsDelimited where
  selector hmem := absurd (h.selector.chars _ hmem) (by decide)
  properties p hp := (h.properties p hp).isDelimited

namespace Style

/-! ## Blocks -/

theorem linesText_cons_append (p : Property) (ps : List Property) (r : List Char) :
    (linesText (p :: ps)).toList ++ r = ' ' :: ' ' :: ' ' :: ' ' :: (p.name.toList ++ ':' ::
      (' ' :: p.value.toList ++ ';' :: ('\n' :: (linesText ps).toList ++ r))) := by
  simp [linesText, Property.text]

/-- The declarations of a block, and what comes after it, are determined. -/
theorem linesText_append_eq_iff {ps ps' : List Property} (h : ∀ p ∈ ps, p.IsDelimited)
    (h' : ∀ p ∈ ps', p.IsDelimited) :
    (linesText ps).toList ++ '\x7d' :: r = (linesText ps').toList ++ '\x7d' :: r' ↔
      ps = ps' ∧ r = r' := by
  induction ps generalizing ps' with
  | nil =>
    cases ps' with
    | nil => simp [linesText]
    | cons q qs =>
      rw [linesText_cons_append]
      simp [linesText]
  | cons p ps ih =>
    cases ps' with
    | nil =>
      rw [linesText_cons_append]
      simp [linesText]
    | cons q qs =>
      obtain ⟨hp, hps⟩ := List.forall_mem_cons.mp h
      obtain ⟨hq, hqs⟩ := List.forall_mem_cons.mp h'
      have hvalue : ∀ q : Property, q.IsDelimited → ';' ∉ ' ' :: q.value.toList := fun q hq => by
        simpa using hq.value
      rw [linesText_cons_append, linesText_cons_append]
      simp only [List.cons.injEq, true_and]
      rw [append_mark_eq_iff hp.name hq.name, append_mark_eq_iff (hvalue p hp) (hvalue q hq),
        List.cons_append, List.cons_append, List.cons.injEq, List.cons.injEq, ih hps hqs]
      simp only [true_and, Property.eq_iff, and_assoc]

theorem text_append (s : Style) (r : List Char) :
    s.text.toList ++ r = (s.selector.text.toList ++ [' ']) ++ '\x7b' ::
      ('\n' :: ((linesText s.properties).toList ++ '\x7d' :: r)) := by
  simp [text]

/-- The rule of a block, and what comes after the block, are determined. -/
theorem text_append_eq_iff {s s' : Style} (h : s.IsDelimited) (h' : s'.IsDelimited) :
    s.text.toList ++ r = s'.text.toList ++ r' ↔ s.rule = s'.rule ∧ r = r' := by
  have hselector : ∀ s : Style, s.IsDelimited → '\x7b' ∉ s.selector.text.toList ++ [' '] :=
    fun s hs => by simpa using hs.selector
  rw [text_append, text_append, append_mark_eq_iff (hselector s h) (hselector s' h'),
    List.append_cancel_right_eq, String.toList_inj, List.cons.injEq,
    linesText_append_eq_iff h.properties h'.properties, rule, rule, Rule.mk.injEq]
  simp only [true_and, and_assoc]

/-! ## Sheets -/

theorem toList_generate_cons (s : Style) (styles : List Style) :
    (generate (s :: styles)).toList = s.text.toList ++ '\n' ::
      if styles = [] then [] else '\n' :: (generate styles).toList := by
  cases styles with
  | nil => simp
  | cons t styles => simp [generate_cons_cons]

/-- Equal sheets come from styles with equal selectors and declarations. -/
theorem generate_eq_iff {styles styles' : List Style} (h : ∀ s ∈ styles, s.IsDelimited)
    (h' : ∀ s ∈ styles', s.IsDelimited) :
    generate styles = generate styles' ↔ styles.map rule = styles'.map rule := by
  rw [← String.toList_inj]
  induction styles generalizing styles' with
  | nil =>
    cases styles' with
    | nil => simp
    | cons s' rest' =>
      rw [toList_generate_cons]
      simp
  | cons s rest ih =>
    cases styles' with
    | nil =>
      rw [toList_generate_cons]
      simp
    | cons s' rest' =>
      obtain ⟨hs, hrest⟩ := List.forall_mem_cons.mp h
      obtain ⟨hs', hrest'⟩ := List.forall_mem_cons.mp h'
      rw [toList_generate_cons, toList_generate_cons, text_append_eq_iff hs hs', List.map_cons,
        List.map_cons, List.cons.injEq, List.cons.injEq, ← ih hrest hrest']
      refine and_congr_right fun _ => ?_
      cases rest <;> cases rest' <;> simp [toList_generate_cons]

end Style
end StyleSheet
