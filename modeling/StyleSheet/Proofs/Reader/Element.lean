import StyleSheet.Proofs.Reader.Boundary
import StyleSheet.Proofs.Text.Ascii

/-!
# Elements by themselves

The lexemes of the elements that sheets are put together from, each before arbitrary
text: blanks, comments, single marks, words, quoted text, and calls.  Only a word asks
for something of the text after it.
-/

namespace StyleSheet
namespace Reader

variable {c : Char} {u v r w cs : List Char}

/-! ## Marks and blanks -/

/-- The lexeme of a blank. -/
def blankLexeme (c : Char) : Lexeme := ⟨.blank, [c]⟩

theorem lexemes_blank (h : isBlank c = true) (r : List Char) :
    lexemes (c :: r) = blankLexeme c :: lexemes r := by
  rw [lexemes_cons, scan, if_pos h]
  rfl

theorem lexemes_blanks (hw : ∀ c ∈ w, isBlank c = true) (r : List Char) :
    lexemes (w ++ r) = w.map blankLexeme ++ lexemes r := by
  induction w with
  | nil => rfl
  | cons c cs ih =>
    rw [List.cons_append, lexemes_blank (hw c List.mem_cons_self),
      ih fun d hd => hw d (List.mem_cons_of_mem c hd)]
    rfl

/-- The blank between two parts of a generated text. -/
theorem isBlank_space : ∀ c ∈ [' '], isBlank c = true := List.all_eq_true.mp rfl

/-- The blanks at the start of a text are read first. -/
theorem lexemes_dropWhile_isBlank (v : List Char) :
    lexemes v = (v.takeWhile isBlank).map blankLexeme ++ lexemes (v.dropWhile isBlank) := by
  rw [← lexemes_blanks fun c hc => List.mem_takeWhile_imp hc, List.takeWhile_append_dropWhile]

theorem lexemes_semicolon (r : List Char) :
    lexemes (';' :: r) = ⟨.semicolon, [';']⟩ :: lexemes r :=
  lexemes_cons ';' r

theorem lexemes_colon (r : List Char) : lexemes (':' :: r) = ⟨.colon, [':']⟩ :: lexemes r :=
  lexemes_cons ':' r

theorem lexemes_openCurly (r : List Char) :
    lexemes ('{' :: r) = ⟨.opening .curly, ['{']⟩ :: lexemes r :=
  lexemes_cons '{' r

theorem lexemes_closeCurly (r : List Char) :
    lexemes ('}' :: r) = ⟨.closing .curly, ['}']⟩ :: lexemes r :=
  lexemes_cons '}' r

theorem lexemes_closeRound (r : List Char) :
    lexemes (')' :: r) = ⟨.closing .round, [')']⟩ :: lexemes r :=
  lexemes_cons ')' r

/-! ## Comments -/

/-- A comment ends at its first `*/`. -/
theorem commentLength_append (h : ¬ ['*', '/'] <:+: v) (r : List Char) :
    commentLength (v ++ '*' :: '/' :: r) = v.length + 2 := by
  induction v with
  | nil => rfl
  | cons c cs ih =>
    have hcs : ¬ ['*', '/'] <:+: cs := fun hin =>
      h (hin.trans (List.suffix_cons c cs).isInfix)
    have hne : ∀ rest, c = '*' → cs ++ '*' :: '/' :: r ≠ '/' :: rest := by
      rintro rest rfl heq
      cases cs with
      | nil => exact absurd (List.cons.inj heq).1 (by decide)
      | cons d ds =>
        refine h ⟨[], ds, ?_⟩
        rw [(List.cons.inj heq).1]
        rfl
    rw [List.cons_append, commentLength.eq_3 _ _ hne, ih hcs, List.length_cons]

/-- The text of a comment. -/
def commentText (body : List Char) : List Char := '/' :: '*' :: (body ++ ['*', '/'])

theorem lexemes_comment (h : ¬ ['*', '/'] <:+: v) (r : List Char) :
    lexemes (commentText v ++ r) = ⟨.comment, commentText v⟩ :: lexemes r := by
  have hlen : commentLength (v ++ '*' :: '/' :: r) = v.length + 2 := commentLength_append h r
  have hscan : scan '/' ('*' :: (v ++ '*' :: '/' :: r)) = (.comment, 1 + (v.length + 2)) := by
    rw [← hlen]
    rfl
  have htext : commentText v ++ r = '/' :: ('*' :: (v ++ '*' :: '/' :: r)) := by
    simp [commentText]
  have hsplit : '*' :: (v ++ '*' :: '/' :: r) = ('*' :: (v ++ ['*', '/'])) ++ r := by simp
  have hcount : 1 + (v.length + 2) = ('*' :: (v ++ ['*', '/'])).length := by
    rw [List.length_cons, List.length_append, List.length_cons, List.length_singleton]
    omega
  rw [htext, lexemes_cons, hscan, hsplit, hcount, List.take_left, List.drop_left]
  rfl

/-! ## Words -/

theorem isNameStart_of_isDigit (h : c.isDigit = true) : isNameStart c = false :=
  Text.of_ascii (P := fun d => d.isDigit = true → isNameStart d = false) (by decide)
    (Text.toNat_lt_of_isDigit h) h

/-- What starts with the start of a name is scanned as one, unless it is a mark. -/
theorem scan_of_startsName (h : startsName (c :: cs) = true) (hslash : c ≠ '\\')
    (hmark : ¬ (c = '-' ∧ cs.take 2 = ['-', '>'])) :
    scan c cs = ((scanName (c :: cs)).1, (scanName (c :: cs)).2 - 1) := by
  have hstart : isNameStart c = true ∨ c = '-' := by
    by_cases hdash : c = '-'
    · exact .inr hdash
    · exact .inl (startsName_cons hdash hslash cs ▸ h)
  have hne : ∀ d, isNameStart d = false → d ≠ '-' → c ≠ d := by
    rintro d hd hdash rfl
    rcases hstart with hs | hs
    · exact absurd hs (by simp [hd])
    · exact hdash hs
  have hs := scans c cs
  generalize scan c cs = r at hs ⊢
  cases hs with
  | name => rfl
  | blank hb =>
    simp only [isBlank, Bool.or_eq_true, beq_iff_eq] at hb
    rcases hb with (((hb | hb) | hb) | hb) | hb <;> exact absurd hb (hne _ (by decide) (by decide))
  | string hq => rcases hq with hq | hq <;> exact absurd hq (hne _ (by decide) (by decide))
  | opening b hb => cases b <;> exact absurd hb (hne _ (by decide) (by decide))
  | closing b hb => cases b <;> exact absurd hb (hne _ (by decide) (by decide))
  | semicolon hc => exact absurd hc (hne _ (by decide) (by decide))
  | colon hc => exact absurd hc (hne _ (by decide) (by decide))
  | comment hc => exact absurd hc.1 (hne _ (by decide) (by decide))
  | markupOpen hc => exact absurd hc.1 (hne _ (by decide) (by decide))
  | markupClose hc => exact absurd hc hmark
  | hash hc => exact absurd hc (hne _ (by decide) (by decide))
  | atWord hc => exact absurd hc (hne _ (by decide) (by decide))
  | atSign hc => exact absurd hc (hne _ (by decide) (by decide))
  | number hd =>
    rcases hstart with hs | rfl
    · exact absurd hs (by simp [isNameStart_of_isDigit hd])
    · exact absurd hd (by decide)
  | other ho => exact absurd h ho

/-- A run of name characters that starts a name is scanned as one, unless it is a mark. -/
theorem scan_of_run (hu : ∀ d ∈ c :: cs, isNameChar d = true) (hstart : startsName (c :: cs) = true)
    (hmark : ¬ (c :: (cs ++ r)).take 3 = ['-', '-', '>']) :
    scan c (cs ++ r) = ((scanName (c :: (cs ++ r))).1, (scanName (c :: (cs ++ r))).2 - 1) := by
  have hslash : c ≠ '\\' := by
    rintro rfl
    exact absurd (hu _ List.mem_cons_self) (by decide)
  refine scan_of_startsName ?_ hslash ?_
  · by_cases hdash : c = '-'
    · subst hdash
      cases cs with
      | nil => exact absurd hstart (by decide)
      | cons d ds => exact hstart
    · rwa [startsName_cons hdash hslash] at hstart ⊢
  · rintro ⟨rfl, htake⟩
    refine hmark ?_
    rw [List.take_succ_cons, htake]

/-- A run of name characters that starts a name is one lexeme, before a text with which
neither a name nor a call goes on. -/
theorem lexemes_word (hu : ∀ c ∈ u, isNameChar c = true) (hstart : startsName u = true)
    (hend : endsName r = true) (hcall : ∀ rest, r ≠ '(' :: rest)
    (hmark : ¬ (u ++ r).take 3 = ['-', '-', '>']) :
    lexemes (u ++ r) = ⟨.name (u.map nameValue), u⟩ :: lexemes r := by
  cases u with
  | nil => cases hstart
  | cons c cs =>
    have hname : name 0 (c :: (cs ++ r)) = ((c :: cs).map nameValue, (c :: cs).length) :=
      name_run hu hend
    have hscan : scanName (c :: (cs ++ r)) =
        (.name ((c :: cs).map nameValue), (c :: cs).length) := by
      rw [scanName_eq, hname]
      rw [hname]
      intro rest
      rw [← List.cons_append, List.drop_left]
      exact hcall rest
    rw [List.cons_append, lexemes_cons, scan_of_run hu hstart hmark, hscan,
      List.length_cons, Nat.add_sub_cancel, List.take_left, List.drop_left]

theorem Quiet.startsName_takeWhile (h : Quiet v) (hstart : startsName v = true) :
    startsName (v.takeWhile isNameChar) = true := by
  cases v with
  | nil => cases hstart
  | cons c cs =>
    have hslash : c ≠ '\\' := h.head.2.2.2
    by_cases hdash : c = '-'
    · subst hdash
      cases cs with
      | nil => cases hstart
      | cons d ds =>
        have hd : isNameStart d = true ∨ d = '-' := by
          simpa [startsName, h.tail.head.2.2.2] using hstart
        have hchar : isNameChar d = true := by
          rcases hd with hd | rfl
          · simp [isNameChar, hd]
          · rfl
        rw [List.takeWhile_cons_of_pos rfl, List.takeWhile_cons_of_pos hchar]
        exact hstart
    · rw [startsName_cons hdash hslash] at hstart
      rw [List.takeWhile_cons_of_pos (by simp [isNameChar, hstart]), startsName_cons hdash hslash]
      exact hstart

/-- Quiet text that starts a name starts with a run of name characters. -/
theorem Quiet.lexemes_name (h : Quiet v) (hstart : startsName v = true)
    (hmark : v.take 3 ≠ ['-', '-', '>']) :
    lexemes v = ⟨.name ((v.takeWhile isNameChar).map nameValue), v.takeWhile isNameChar⟩ ::
      lexemes (v.dropWhile isNameChar) := by
  have hcall : ∀ rest, v.dropWhile isNameChar ≠ '(' :: rest := by
    intro rest heq
    exact (h.of_suffix (heq ▸ List.dropWhile_suffix isNameChar)).head.2.2.1 rfl
  have hword := lexemes_word (fun c hc => List.mem_takeWhile_imp hc) (h.startsName_takeWhile hstart)
    h.endsName_dropWhile hcall (by rwa [List.takeWhile_append_dropWhile])
  rwa [List.takeWhile_append_dropWhile] at hword

/-! ## Identifiers -/

/-- A character that can start an identifier: a letter, `_`, or one beyond ASCII. -/
def isIdentifierStart (c : Char) : Bool := c.isAlpha || c == '_' || 0x80 ≤ c.toNat

/-- A character of an identifier. -/
def isIdentifierChar (c : Char) : Bool := isIdentifierStart c || c.isDigit || c == '-'

/-- A name that is written without escapes. -/
def isIdentifier : List Char → Bool
  | '-' :: c :: cs => (isIdentifierStart c || c == '-') && cs.all isIdentifierChar
  | c :: cs => isIdentifierStart c && cs.all isIdentifierChar
  | [] => false

theorem isNameStart_of_isIdentifierStart (h : isIdentifierStart c = true) :
    isNameStart c = true := by
  simp only [isIdentifierStart, isNameStart, Bool.or_eq_true] at h ⊢
  exact h.imp_left .inl

theorem isNameChar_of_isIdentifierChar (h : isIdentifierChar c = true) : isNameChar c = true := by
  simp only [isIdentifierChar, isNameChar, Bool.or_eq_true] at h ⊢
  exact h.imp_left (Or.imp_left isNameStart_of_isIdentifierStart)

/-- An identifier stands for itself. -/
theorem nameValue_eq_self (h : isIdentifierChar c = true) : nameValue c = c := by
  refine if_neg ?_
  rintro rfl
  exact absurd h (by decide)

theorem isIdentifierChar_of_mem (h : isIdentifier u = true) (hc : c ∈ u) :
    isIdentifierChar c = true := by
  have hstart : ∀ d, isIdentifierStart d = true → isIdentifierChar d = true := fun d hd => by
    simp [isIdentifierChar, hd]
  unfold isIdentifier at h
  split at h
  next d ds =>
    rw [Bool.and_eq_true, List.all_eq_true, Bool.or_eq_true, beq_iff_eq] at h
    rcases List.mem_cons.mp hc with rfl | hc
    · decide
    · rcases List.mem_cons.mp hc with rfl | hc
      · rcases h.1 with hd | rfl
        · exact hstart _ hd
        · decide
      · exact h.2 c hc
  next d ds _ =>
    rw [Bool.and_eq_true, List.all_eq_true] at h
    rcases List.mem_cons.mp hc with rfl | hc
    · exact hstart _ h.1
    · exact h.2 c hc
  next => cases hc

theorem startsName_of_isIdentifier (h : isIdentifier u = true) : startsName u = true := by
  unfold isIdentifier at h
  split at h
  next d ds =>
    rw [Bool.and_eq_true, Bool.or_eq_true] at h
    rw [startsName, Bool.or_eq_true, Bool.or_eq_true]
    exact .inl (h.1.imp_left isNameStart_of_isIdentifierStart)
  next d ds hne =>
    rw [Bool.and_eq_true] at h
    have hdash : d ≠ '-' := by rintro rfl; exact absurd h.1 (by decide)
    have hslash : d ≠ '\\' := by rintro rfl; exact absurd h.1 (by decide)
    rw [startsName_cons hdash hslash]
    exact isNameStart_of_isIdentifierStart h.1
  next => cases h

theorem isNameChar_of_isIdentifier (h : isIdentifier u = true) :
    ∀ c ∈ u, isNameChar c = true :=
  fun _ hc => isNameChar_of_isIdentifierChar (isIdentifierChar_of_mem h hc)

theorem map_nameValue_of_isIdentifier (h : isIdentifier u = true) : u.map nameValue = u :=
  (List.map_congr_left fun _ hc => nameValue_eq_self (isIdentifierChar_of_mem h hc)).trans
    (List.map_id u)

/-- An identifier is one lexeme, and its own value. -/
theorem lexemes_identifier (h : isIdentifier u = true) (hr : startsApart r = true) :
    lexemes (u ++ r) = ⟨.name u, u⟩ :: lexemes r := by
  have hcall : ∀ rest, r ≠ '(' :: rest := by
    rintro rest rfl
    exact absurd hr (by simp [goesOn])
  have hmark : ¬ (u ++ r).take 3 = ['-', '-', '>'] := by
    intro happ
    have htake : u.take 3 = ['-', '-', '>'] :=
      (take_append_eq_iff hr ['-', '-', '>'] (by decide)).mp happ
    have hmem : '>' ∈ u := List.mem_of_mem_take (htake ▸ by decide : '>' ∈ u.take 3)
    exact absurd (isIdentifierChar_of_mem h hmem) (by decide)
  rw [lexemes_word (isNameChar_of_isIdentifier h) (startsName_of_isIdentifier h)
    (endsName_of_startsApart hr) hcall hmark, map_nameValue_of_isIdentifier h]

/-- The word of an at-rule is one lexeme. -/
theorem lexemes_atWord (h : isIdentifier u = true) (hr : startsApart r = true) :
    lexemes ('@' :: (u ++ r)) = ⟨.atWord, '@' :: u⟩ :: lexemes r := by
  have hquiet : Quiet u := by
    have hchar : ∀ d, isIdentifierChar d = false → d ∉ u := fun d hd hmem =>
      absurd (isIdentifierChar_of_mem h hmem) (by simp [hd])
    refine ⟨fun c hc => ?_, fun hcomment => hchar '/' (by decide) ?_⟩
    · have hne : ∀ d, isIdentifierChar d = false → c ≠ d := fun d hd heq => hchar d hd (heq ▸ hc)
      simp [isQuietChar, hne '"' (by decide), hne '\x27' (by decide), hne '(' (by decide),
        hne '\\' (by decide)]
    · exact hcomment.subset List.mem_cons_self
  have hname : name 0 (u ++ r) = (u.map nameValue, u.length) :=
    name_run (isNameChar_of_isIdentifier h) (endsName_of_startsApart hr)
  have hstart : startsName (u ++ r) = true := by
    rw [hquiet.startsName_append hr, startsName_of_isIdentifier h]
  have hscan : scan '@' (u ++ r) = (.atWord, u.length) := by
    have hat : scan '@' (u ++ r) =
        if startsName (u ++ r) = true then (.atWord, (name 0 (u ++ r)).2) else (.other, 0) := rfl
    rw [hat, if_pos hstart, hname]
  rw [lexemes_cons, hscan, List.take_left, List.drop_left]

/-! ## Calls and strings -/

/-- The name of a function and its bracket are one lexeme. -/
theorem lexemes_call (h : isIdentifier u = true) (hurl : isUrlName u = false) (r : List Char) :
    lexemes (u ++ '(' :: r) = ⟨.opening .round, u ++ ['(']⟩ :: lexemes r := by
  cases u with
  | nil => cases h
  | cons c cs =>
    have hname : name 0 (c :: (cs ++ '(' :: r)) = (c :: cs, (c :: cs).length) := by
      have hrun := name_run (r := '(' :: r) (isNameChar_of_isIdentifier h) rfl
      rwa [map_nameValue_of_isIdentifier h] at hrun
    have hscan : scanName (c :: (cs ++ '(' :: r)) = (.opening .round, cs.length + 2) := by
      have hdrop : (c :: (cs ++ '(' :: r)).drop (c :: cs).length = '(' :: r := List.drop_left
      simp only [scanName, hname, hdrop, hurl, Bool.false_eq_true, ↓reduceIte]
      rfl
    have hmark : ¬ (c :: (cs ++ '(' :: r)).take 3 = ['-', '-', '>'] := by
      intro htake
      rcases cs with _ | ⟨d, _ | ⟨e, es⟩⟩
      · simp at htake
      · simp at htake
      · have hmem : '>' ∈ c :: d :: e :: es := by simp_all
        exact absurd (isIdentifierChar_of_mem h hmem) (by decide)
    have hsplit : cs ++ '(' :: r = (cs ++ ['(']) ++ r := by simp
    have hcount : cs.length + 2 - 1 = (cs ++ ['(']).length := by
      rw [List.length_append, List.length_singleton]
      rfl
    rw [List.cons_append, lexemes_cons,
      scan_of_run (isNameChar_of_isIdentifier h) (startsName_of_isIdentifier h) hmark, hscan,
      hsplit, hcount, List.take_left, List.drop_left]
    rfl

/-- Whether a character stands for itself in single quotes. -/
def isQuotable (c : Char) : Bool := c != '\x27' && c != '\\' && !isNewline c

theorem stringLength_append (hu : ∀ c ∈ u, isQuotable c = true) (r : List Char) :
    stringLength '\x27' 0 (u ++ '\x27' :: r) = u.length + 1 := by
  induction u with
  | nil => rfl
  | cons c cs ih =>
    have hc := hu c List.mem_cons_self
    simp only [isQuotable, Bool.and_eq_true, bne_iff_ne, Bool.not_eq_true'] at hc
    rw [List.cons_append, stringLength, if_neg hc.1.1, if_neg (by simp [hc.2]), if_neg hc.1.2,
      ih fun d hd => hu d (List.mem_cons_of_mem c hd)]
    rfl

/-- A string in single quotes is one lexeme. -/
theorem lexemes_string (hu : ∀ c ∈ u, isQuotable c = true) (r : List Char) :
    lexemes ('\x27' :: (u ++ '\x27' :: r)) =
      ⟨.other, '\x27' :: (u ++ ['\x27'])⟩ :: lexemes r := by
  have hscan : scan '\x27' (u ++ '\x27' :: r) = (.other, u.length + 1) := by
    rw [← stringLength_append hu r]
    rfl
  have hsplit : u ++ '\x27' :: r = (u ++ ['\x27']) ++ r := by simp
  have hcount : u.length + 1 = (u ++ ['\x27']).length := by
    rw [List.length_append, List.length_singleton]
  rw [lexemes_cons, hscan, hsplit, hcount, List.take_left, List.drop_left]

end Reader
end StyleSheet
