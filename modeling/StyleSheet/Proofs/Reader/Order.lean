import StyleSheet.Proofs.Reader.Element
import StyleSheet.Proofs.Reader.Origin
import StyleSheet.Proofs.Text.Trim

/-!
# Everything that is read stands in the text, in order

The reader invents nothing and moves nothing, whatever text it is given: the selectors and
values of the rules are trimmed slices of the text, which do not overlap and come in the order
in which they are listed (`readSheet_rulesIn`).  `RulesIn` and `PropertiesIn` say so by taking
the text apart: what comes before a slice, the slice, and the text after it, in which the rest
is to be found.  A selector has the bracket of its block after it, and a value a colon before
it.

Only names are not slices, since escapes in them stand for other characters.  In text without
backslashes and `NUL` they are, and each stands before the colon of its value.

## Text with all its brackets open

`Proofs/Reader/Origin` finds rules in text with all brackets closed, and says more of them.
Here nothing is known of the brackets: a part goes as far as the reader counts, through the end
of the text if nothing stops it.  The counts themselves do not matter then, only that each part
starts where the one before it ends (`declarations_cases`, `rules_cases`).
-/

namespace StyleSheet
namespace Reader

variable {literal : Prop} {x : Lexeme} {xs : List Lexeme} {s cs u v : List Char} {c : Char}

/-! ## Slices in order -/

/-- The values of properties are trimmed slices of a text, in order, each with a colon before
it.  No name is empty; and if names are `literal`, each is a slice between the value before it
and its own colon. -/
inductive PropertiesIn (literal : Prop) : List Property → List Char → Prop
  | nil (v : List Char) : PropertiesIn literal [] v
  | cons {p : Property} {ps : List Property} {before slice rest : List Char}
    (hname : p.name ≠ "") (hliteral : literal → p.name.toList <:+: before)
    (hvalue : p.value.toList = Text.trim slice) (hrest : PropertiesIn literal ps rest) :
    PropertiesIn literal (p :: ps) (before ++ ':' :: (slice ++ rest))

/-- The selectors and values of rules are trimmed slices of a text, in order.  The bracket of
its block comes after a selector, and the values of a block before the next selector. -/
inductive RulesIn (literal : Prop) : List Rule → List Char → Prop
  | nil (v : List Char) : RulesIn literal [] v
  | cons {r : Rule} {rs : List Rule} {before slice body rest : List Char}
    (hselector : r.selector.toList = Text.trim slice)
    (hbody : PropertiesIn literal r.properties body) (hrest : RulesIn literal rs rest) :
    RulesIn literal (r :: rs) (before ++ (slice ++ '\x7b' :: (body ++ rest)))

theorem PropertiesIn.append {ps : List Property} (h : PropertiesIn literal ps v) (u : List Char) :
    PropertiesIn literal ps (u ++ v) := by
  cases h with
  | nil => exact .nil _
  | cons hname hliteral hvalue hrest =>
    rw [← List.append_assoc]
    exact .cons hname (fun h => (hliteral h).trans (List.suffix_append u _).isInfix) hvalue hrest

theorem RulesIn.append {rs : List Rule} (h : RulesIn literal rs v) (u : List Char) :
    RulesIn literal rs (u ++ v) := by
  cases h with
  | nil => exact .nil _
  | cons hselector hbody hrest =>
    rw [← List.append_assoc]
    exact .cons hselector hbody hrest

theorem PropertiesIn.trimmed {ps : List Property} (h : PropertiesIn literal ps v) :
    ∀ p ∈ ps, Text.Trimmed p.value.toList := by
  induction h with
  | nil => exact List.forall_mem_nil _
  | cons _ _ hvalue _ ih =>
    refine List.forall_mem_cons.mpr ⟨?_, ih⟩
    rw [hvalue]
    exact Text.trimmed_trim _

theorem RulesIn.trimmed {rs : List Rule} (h : RulesIn literal rs v) :
    ∀ r ∈ rs, Text.Trimmed r.selector.toList ∧
      ∀ p ∈ r.properties, Text.Trimmed p.value.toList := by
  induction h with
  | nil => exact List.forall_mem_nil _
  | cons hselector hbody _ ih =>
    refine List.forall_mem_cons.mpr ⟨⟨?_, hbody.trimmed⟩, ih⟩
    rw [hselector]
    exact Text.trimmed_trim _

/-! ## Texts of lexemes -/

/-- What the text of a lexeme says of its token. -/
structure Lexeme.IsFaithful (literal : Prop) (x : Lexeme) : Prop where
  nonempty : ∀ value, x.token = .name value → value ≠ []
  literal : ∀ value, x.token = .name value → literal → value = x.text
  colon : x.token = .colon → x.text = [':']
  curly : x.token = .opening .curly → x.text = ['\x7b']

/-- Where a name starts there is one. -/
theorem name_ne_nil (h : startsName s = true) : (name 0 s).1 ≠ [] := by
  cases s with
  | nil => cases h
  | cons c cs =>
    rw [name]
    split
    · exact List.cons_ne_nil _ _
    · next hchar =>
      split
      · exact List.cons_ne_nil _ _
      · next hslash =>
        -- a character that starts a name goes on one, a hyphen too
        refine absurd h (Bool.eq_false_iff.mp ?_)
        have hdash : c ≠ '-' := by
          rintro rfl
          exact hchar rfl
        have hstart : isNameStart c = false :=
          Bool.eq_false_iff.mpr fun hs => hchar (by simp [isNameChar, hs])
        by_cases hc : c = '\\'
        · subst hc
          simpa [startsName] using hslash
        · rw [startsName_cons hdash hc, hstart]

/-- Without escapes and `NUL` a name is what is written. -/
theorem name_eq_take (hslash : '\\' ∉ s) (hnul : '\x00' ∉ s) :
    (name 0 s).1 = s.take (name 0 s).2 := by
  induction s with
  | nil => rfl
  | cons c cs ih =>
    have hc : ¬ (c = '\\' ∧ (!startsNewline cs) = true) := fun h =>
      List.ne_of_not_mem_cons hslash h.1.symm
    have hvalue : ¬ c = '\x00' := fun h => List.ne_of_not_mem_cons hnul h.symm
    have htail := ih (List.not_mem_of_not_mem_cons hslash) (List.not_mem_of_not_mem_cons hnul)
    by_cases hchar : isNameChar c = true
    · rw [name, if_pos hchar]
      show (if c = '\x00' then Text.replacement else c) :: (name 0 cs).1 =
        c :: cs.take (name 0 cs).2
      rw [if_neg hvalue, htail]
    · rw [name, if_neg hchar, if_neg hc, List.take_zero]

theorem scanName_of_name {value : List Char} (h : (scanName s).1 = .name value) :
    value = (name 0 s).1 ∧ (scanName s).2 = (name 0 s).2 := by
  simp only [scanName] at h ⊢
  split at h
  · split at h
    · split at h <;> cases h
    · cases h
  · exact ⟨(Token.name.inj h).symm, rfl⟩

/-- A token of one character, with nothing that goes on it. -/
theorem text_of_first? {d : Char} (h : (scan c cs).1.first? = some d) (hd : d ≠ '@') :
    c :: cs.take (scan c cs).2 = [d] := by
  have hc := eq_of_first? h
  have hs := scans c cs
  generalize scan c cs = r at h hs ⊢
  subst hc
  cases hs with
  | opening b => rfl
  | closing b => rfl
  | semicolon => rfl
  | colon => rfl
  | atWord hat => exact absurd hat hd
  | name =>
    rw [first?_scanName] at h
    cases h
  | _ => cases h

/-- Every lexeme of a text is faithful; names are literal if the text has no backslash and no
`NUL`. -/
theorem isFaithful_of_mem_lexemes (hx : x ∈ lexemes s) :
    x.IsFaithful ('\\' ∉ s ∧ '\x00' ∉ s) := by
  obtain ⟨c, cs, hsuffix, rfl⟩ := exists_scan_of_mem_lexemes hx
  have hname : ∀ value, (scan c cs).1 = .name value → startsName (c :: cs) = true ∧
      value = (Reader.name 0 (c :: cs)).1 ∧ (scan c cs).2 = (Reader.name 0 (c :: cs)).2 - 1 := by
    intro value h
    have hs := scans c cs
    generalize scan c cs = r at h hs ⊢
    cases hs with
    | name hstart =>
      obtain ⟨hvalue, hlength⟩ := scanName_of_name h
      exact ⟨hstart, hvalue, congrArg (· - 1) hlength⟩
    | _ => cases h
  refine ⟨fun value h => ?_, fun value h hliteral => ?_, fun h => ?_, fun h => ?_⟩
  · obtain ⟨hstart, rfl, -⟩ := hname value h
    exact name_ne_nil hstart
  · obtain ⟨hstart, rfl, hlength⟩ := hname value h
    have htake := name_eq_take (fun hmem => hliteral.1 (hsuffix.subset hmem))
      fun hmem => hliteral.2 (hsuffix.subset hmem)
    have hpos : (Reader.name 0 (c :: cs)).2 ≠ 0 := by
      intro hzero
      rw [hzero] at htake
      exact name_ne_nil hstart htake
    obtain ⟨n, hn⟩ := Nat.exists_eq_succ_of_ne_zero hpos
    rw [htake, hlength, hn]
    rfl
  · exact text_of_first? (by rw [show (scan c cs).1 = .colon from h]; rfl) (by decide)
  · exact text_of_first? (by rw [show (scan c cs).1 = .opening .curly from h]; rfl) (by decide)

/-! ## One step, whatever is open -/

/-- One step of reading a block: some lexemes are skipped, or they start a declaration. -/
theorem declarations_cases (x : Lexeme) (xs : List Lexeme) :
    (∃ n, declarations (x :: xs) = declarations (xs.drop n)) ∨
      ∃ value n gap colon written, x.token = .name value ∧
        xs.take n = gap ++ colon :: written ∧ colon.token = .colon ∧
        declarations (x :: xs) =
          ⟨String.ofList value, trimmedText written⟩ :: declarations (xs.drop n) := by
  obtain ⟨t, text⟩ := x
  cases t with
  | name value =>
    rw [declarations_cons_name]
    cases hcolon : afterColon? (xs.take (extent (· == .semicolon) [] xs)) with
    | none => exact .inl ⟨_, rfl⟩
    | some written =>
      obtain ⟨gap, colon, hsplit, -, htoken⟩ := exists_of_afterColon? hcolon
      exact .inr ⟨value, _, gap, colon, written, rfl, hsplit, htoken, rfl⟩
  | _ => exact .inl ⟨_, by rw [← declarationsFrom_eq]; rfl⟩

/-- One step of reading a sheet: some lexemes are skipped, or they are a selector and start a
block, which goes on for some lexemes. -/
theorem rules_cases (x : Lexeme) (xs : List Lexeme) :
    (∃ n, rules (x :: xs) = rules (xs.drop n)) ∨
      ∃ selector opening rest n, x :: xs = selector ++ opening :: rest ∧
        opening.token = .opening .curly ∧
        rules (x :: xs) =
          ⟨trimmedText selector, declarations (rest.take n)⟩ :: rules (rest.drop (n + 1)) := by
  by_cases hstarts : x.token.startsRule = true
  · rcases passes_or_exists_stop (· == .opening .curly) [] (x :: xs) with
      hpasses | ⟨selector, opening, rest, hsplit, hselector, hclosed, hopening⟩
    · refine .inl ⟨xs.length, ?_⟩
      rw [rules_cons hstarts, extent_of_passes hpasses, List.drop_length, List.drop_length]
      rfl
    · have hextent : extent (· == .opening .curly) [] (x :: xs) = selector.length := by
        rw [hsplit, Sealed.extent_stop ⟨hselector, hclosed⟩ hopening]
      have hrules := rules_cons hstarts xs
      rw [hextent, hsplit, List.drop_left, List.take_left, ← hsplit] at hrules
      dsimp only at hrules
      cases hcustom : startsCustom (x :: xs) with
      | true =>
        rw [hcustom, if_pos rfl] at hrules
        have hdrop : ∀ m, xs.drop (selector.length + (m + 1)) = rest.drop (m + 1) := fun m => by
          rw [← List.drop_succ_cons, hsplit, Nat.add_assoc, ← List.drop_drop, List.drop_left]
          rfl
        exact .inl ⟨_, hrules.trans (congrArg rules (hdrop _).symm)⟩
      | false =>
        rw [hcustom] at hrules
        exact .inr ⟨selector, opening, rest, _, hsplit, beq_iff_eq.mp hopening, hrules⟩
  · obtain ⟨t, text⟩ := x
    cases t with
    | blank => exact .inl ⟨0, rules_cons_gap rfl xs⟩
    | comment => exact .inl ⟨0, rules_cons_gap rfl xs⟩
    | markup => exact .inl ⟨0, rules_cons_markup rfl xs⟩
    | atWord => exact .inl ⟨_, rules_cons_atWord rfl xs⟩
    | _ => exact absurd rfl hstarts

/-! ## The whole text -/

/-- The properties of a block are found in its text, in order. -/
theorem propertiesIn_declarations {xs : List Lexeme} (hxs : ∀ x ∈ xs, x.IsFaithful literal) :
    PropertiesIn literal (declarations xs) (source xs) := by
  match xs with
  | [] => exact .nil _
  | x :: xs =>
    obtain ⟨hx, htail⟩ := List.forall_mem_cons.mp hxs
    have hsource : ∀ n, source (x :: xs) =
        (x.text ++ source (xs.take n)) ++ source (xs.drop n) := fun n => by
      rw [List.append_assoc, ← source_append, List.take_append_drop]
      rfl
    have hrest : ∀ n, PropertiesIn literal (declarations (xs.drop n)) (source (xs.drop n)) :=
      fun n => propertiesIn_declarations fun y hy => htail y (List.mem_of_mem_drop hy)
    rcases declarations_cases x xs with ⟨n, hskip⟩ |
      ⟨value, n, gap, colon, written, hname, hsplit, hcolon, hread⟩
    · rw [hskip, hsource n]
      exact (hrest n).append _
    · have hmem : colon ∈ xs.take n := by
        rw [hsplit]
        exact List.mem_append_right gap List.mem_cons_self
      have htext : source (x :: xs) = (x.text ++ source gap) ++ ':' ::
          (source written ++ source (xs.drop n)) := by
        rw [hsource n, hsplit, source_append]
        simp [source, (htail colon (List.mem_of_mem_take hmem)).colon hcolon]
      rw [hread, htext]
      refine .cons (fun hempty => ?_) (fun h => ?_) (toList_trimmedText written) (hrest n)
      · exact hx.nonempty value hname (String.ofList_eq_empty_iff.mp hempty)
      · rw [String.toList_ofList, hx.literal value hname h]
        exact (List.prefix_append _ _).isInfix
termination_by xs.length
decreasing_by simp only [List.length_drop, List.length_cons]; omega

/-- The rules of a sheet are found in its text, in order. -/
theorem rulesIn_rules {xs : List Lexeme} (hxs : ∀ x ∈ xs, x.IsFaithful literal) :
    RulesIn literal (rules xs) (source xs) := by
  match xs with
  | [] => exact .nil _
  | x :: xs =>
    rcases rules_cases x xs with ⟨n, hskip⟩ |
      ⟨selector, opening, rest, n, hsplit, hopening, hread⟩
    · have hsource : source (x :: xs) = source (x :: xs.take n) ++ source (xs.drop n) := by
        rw [← source_append, List.cons_append, List.take_append_drop]
      rw [hskip, hsource]
      exact (rulesIn_rules fun y hy =>
        hxs y (List.mem_cons_of_mem x (List.mem_of_mem_drop hy))).append _
    · rw [hsplit] at hxs
      have hrest : ∀ y ∈ rest, y.IsFaithful literal := fun y hy =>
        hxs y (List.mem_append_right selector (List.mem_cons_of_mem opening hy))
      have hless : (rest.drop (n + 1)).length < (x :: xs).length := by
        rw [hsplit, List.length_drop, List.length_append, List.length_cons]
        omega
      have hcurly : opening.text = ['\x7b'] :=
        (hxs opening (List.mem_append_right selector List.mem_cons_self)).curly hopening
      -- the lexeme that closes the block belongs to neither part
      have htext : source (x :: xs) = [] ++ (source selector ++ '\x7b' ::
          (source (rest.take n) ++ (source ((rest.drop n).take 1) ++
            source (rest.drop (n + 1))))) := by
        rw [← source_append, ← List.drop_drop, List.take_append_drop, ← source_append,
          List.take_append_drop, hsplit, source_append]
        simp [source, hcurly]
      rw [hread, htext]
      exact .cons (toList_trimmedText selector)
        (propertiesIn_declarations fun y hy => hrest y (List.mem_of_mem_take hy))
        ((rulesIn_rules fun y hy => hrest y (List.mem_of_mem_drop hy)).append _)
termination_by xs.length
decreasing_by
  · simp only [List.length_drop, List.length_cons]; omega
  · exact hless

end Reader

open Reader

/-- From any text, the selectors and values that are read are trimmed slices of it, in order,
with no white space at their ends.  Names are not empty, and are slices too unless there are
backslashes or `NUL` in the text. -/
theorem readSheet_rulesIn (text : String) :
    RulesIn ('\\' ∉ text.toList ∧ '\x00' ∉ text.toList) (readSheet text) text.toList ∧
      ∀ r ∈ readSheet text, Text.Trimmed r.selector.toList ∧
        ∀ p ∈ r.properties, Text.Trimmed p.value.toList := by
  have hrules := rulesIn_rules fun x (hx : x ∈ lexemes text.toList) => isFaithful_of_mem_lexemes hx
  rw [source_lexemes] at hrules
  exact ⟨hrules, hrules.trimmed⟩

end StyleSheet
