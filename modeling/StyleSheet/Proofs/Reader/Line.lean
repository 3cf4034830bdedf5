import StyleSheet.Proofs.Reader.Element
import StyleSheet.Proofs.Reader.Item

/-!
# Lines that close a string and a call

Text can be put between quotes in a call without a look at it: then it is followed by a quote, a
bracket and a semicolon, and by the end of the line.  Whatever the text is, no element but a
comment goes past that end.  An escape can take the quote, but not the bracket after it, with
which names and addresses end; and a string that is open there ends with the line.

So the line is cut off from what comes after it, unless a comment is open at its end
(`IsLineEnd.isCutOff_or_endsInComment`).

The quote and the bracket alone are enough for most elements, and what comes after these two
does not matter then; strings need the whole end of the line.
-/

namespace StyleSheet
namespace Reader

open Text

variable {c : Char} {u v w s cs : List Char}

/-! ## Elements before a quote -/

theorem startsNewline_quoted (u s : List Char) :
    startsNewline (u ++ '\x27' :: s) = startsNewline u := by
  cases u with
  | nil => rfl
  | cons c cs => rfl

/-- A quote does not go on the start of a name. -/
theorem startsName_quoted (u s : List Char) : startsName (u ++ '\x27' :: s) = startsName u := by
  match u with
  | [] => rfl
  | [c] =>
    by_cases hdash : c = '-'
    · subst hdash
      rfl
    · by_cases hslash : c = '\\'
      · subst hslash
        rfl
      · exact (startsName_cons hdash hslash _).trans (startsName_cons hdash hslash []).symm
  | c :: d :: cs =>
    by_cases hdash : c = '-'
    · subst hdash
      rfl
    · by_cases hslash : c = '\\'
      · subst hslash
        rfl
      · exact (startsName_cons hdash hslash _).trans (startsName_cons hdash hslash _).symm

theorem startsHashWord_quoted (u s : List Char) :
    startsHashWord (u ++ '\x27' :: s) = startsHashWord u := by
  cases u with
  | nil => rfl
  | cons c cs =>
    have hname := startsName_quoted (c :: cs) s
    rw [List.cons_append] at hname
    simp only [List.cons_append, startsHashWord, hname]

theorem takeWhile_quoted {p : Char → Bool} (hp : p '\x27' = false) (u s : List Char) :
    (u ++ '\x27' :: s).takeWhile p = u.takeWhile p := by
  induction u with
  | nil => exact List.takeWhile_cons_of_neg (by simp [hp])
  | cons c cs ih => rw [List.cons_append, List.takeWhile_cons, List.takeWhile_cons, ih]

theorem takeWhile_take_quoted {p : Char → Bool} (hp : p '\x27' = false) (n : Nat)
    (u s : List Char) : ((u ++ '\x27' :: s).take n).takeWhile p = (u.take n).takeWhile p := by
  rw [List.take_append]
  cases n - u.length with
  | zero => rw [List.take_zero, List.append_nil]
  | succ m => exact takeWhile_quoted hp _ _

theorem blankLength_quoted (u s : List Char) :
    blankLength (u ++ '\x27' :: s) = blankLength u ∧ blankLength u ≤ u.length := by
  match u with
  | [] => exact ⟨rfl, Nat.zero_le _⟩
  | [c] =>
    have hone : ∀ t, t.head? ≠ some '\n' →
        blankLength (c :: t) = if isBlank c then 1 else 0 := fun t ht =>
      blankLength.eq_2 _ _ fun rest _ heq => ht (by rw [heq]; rfl)
    have hquote : ('\x27' :: s).head? ≠ some '\n' := fun h => absurd (Option.some.inj h) (by decide)
    rw [List.singleton_append, hone _ hquote, hone [] (by decide)]
    refine ⟨rfl, ?_⟩
    split <;> simp
  | c :: d :: cs =>
    by_cases hbreak : c = '\r' ∧ d = '\n'
    · obtain ⟨rfl, rfl⟩ := hbreak
      exact ⟨rfl, Nat.le_add_left 2 _⟩
    · have hone : ∀ t, blankLength (c :: d :: t) = if isBlank c then 1 else 0 := fun t =>
        blankLength.eq_2 _ _ fun rest hc heq => hbreak ⟨hc, (List.cons.inj heq).1⟩
      rw [List.cons_append, List.cons_append, hone, hone]
      refine ⟨rfl, ?_⟩
      split <;> simp

/-- A quote ends an escape, unless it is what is escaped. -/
theorem escape_quoted (u s : List Char) :
    escape (u ++ '\x27' :: s) = escape (u ++ ['\x27']) ∧
      (escape (u ++ ['\x27'])).2 ≤ u.length + 1 := by
  cases u with
  | nil => exact ⟨rfl, le_refl 1⟩
  | cons c cs =>
    by_cases hhex : isHexDigit c = true
    · have hdigits := takeWhile_take_quoted (by decide : isHexDigit '\x27' = false) 6 (c :: cs)
      have hlen : (((c :: cs).take 6).takeWhile isHexDigit).length ≤ (c :: cs).length :=
        ((List.takeWhile_prefix _).trans (List.take_prefix 6 _)).length_le
      generalize ((c :: cs).take 6).takeWhile isHexDigit = digits at hdigits hlen
      have hescape : ∀ t, escape (c :: cs ++ '\x27' :: t) = (escapedChar (hexNumber digits),
          digits.length + blankLength ((c :: cs).drop digits.length)) := fun t => by
        have hdigits := hdigits t
        rw [List.cons_append] at hdigits ⊢
        simp only [escape, if_pos hhex, hdigits]
        rw [← List.cons_append, List.drop_append_of_le_length hlen, (blankLength_quoted _ t).1]
      rw [hescape, hescape]
      refine ⟨rfl, ?_⟩
      have hblank := (blankLength_quoted ((c :: cs).drop digits.length) s).2
      rw [List.length_drop] at hblank
      show digits.length + blankLength ((c :: cs).drop digits.length) ≤ (c :: cs).length + 1
      omega
    · have hescape : ∀ t, escape (c :: cs ++ '\x27' :: t) =
          (if c = '\x00' then (replacement, 1) else (c, 1)) := fun t => by
        rw [List.cons_append, escape, if_neg hhex]
      rw [hescape, hescape]
      refine ⟨rfl, ?_⟩
      split <;> simp

/-! ## Names and addresses -/

/-- A name ends before the bracket at the latest. -/
theorem name_quoted (u s : List Char) : ∀ n ≤ u.length + 1,
    name n (u ++ '\x27' :: ')' :: s) = name n (u ++ ['\x27', ')']) ∧
      (name n (u ++ ['\x27', ')'])).2 ≤ u.length + 1 := by
  induction u with
  | nil =>
    intro n hn
    match n, hn with
    | 0, _ => exact ⟨rfl, Nat.zero_le _⟩
    | 1, _ => exact ⟨rfl, le_refl 1⟩
  | cons c cs ih =>
    intro n hn
    rw [List.length_cons] at hn
    cases n with
    | succ n =>
      obtain ⟨heq, hle⟩ := ih n (by omega)
      simp only [List.cons_append, name, heq, true_and]
      exact Nat.succ_le_succ hle
    | zero =>
      by_cases hchar : isNameChar c = true
      · obtain ⟨heq, hle⟩ := ih 0 (Nat.zero_le _)
        simp only [List.cons_append, name, if_pos hchar, heq, true_and]
        exact Nat.succ_le_succ hle
      · obtain ⟨hescape, hlength⟩ := escape_quoted cs (')' :: s)
        obtain ⟨hescape', -⟩ := escape_quoted cs [')']
        obtain ⟨heq, hle⟩ := ih _ hlength
        simp only [List.cons_append, name, if_neg hchar, startsNewline_quoted, hescape, hescape',
          heq, true_and]
        split
        · exact Nat.succ_le_succ hle
        · exact Nat.zero_le _

theorem badUrlLength_quoted (u s : List Char) :
    badUrlLength (u ++ '\x27' :: ')' :: s) = badUrlLength (u ++ ['\x27', ')']) := by
  fun_induction badUrlLength u with
  | case1 => rfl
  | case2 cs => rfl
  | case3 cs ih => exact congrArg (· + 2) ih
  | case4 cs ih => exact congrArg (· + 2) ih
  | case5 c cs hclose hescape hslash ih =>
    -- a quote after the backslash is not one of the two that count with it
    have hne : ∀ {d t rest}, (∀ rest, cs = d :: rest → False) → d ≠ '\x27' →
        cs ++ '\x27' :: t ≠ d :: rest := by
      intro d t rest hcs hd heq
      cases cs with
      | nil => exact hd (List.cons.inj heq).1.symm
      | cons e es => exact hcs es (by rw [(List.cons.inj heq).1])
    have hstep : ∀ t, badUrlLength (c :: cs ++ '\x27' :: t) =
        badUrlLength (cs ++ '\x27' :: t) + 1 := fun t =>
      badUrlLength.eq_5 _ _ hclose
        (fun rest hc => hne (fun rest' h => hescape rest' hc h) (by decide))
        (fun rest hc => hne (fun rest' h => hslash rest' hc h) (by decide))
    rw [hstep, hstep, ih]

theorem urlEndLength_quoted (u s : List Char) :
    urlEndLength (u ++ '\x27' :: ')' :: s) = urlEndLength (u ++ ['\x27', ')']) := by
  induction u with
  | nil => rfl
  | cons c cs ih => simp only [List.cons_append, urlEndLength, ih, badUrlLength_quoted cs s]

/-- An address ends with the bracket at the latest. -/
theorem urlLength_quoted (u s : List Char) : ∀ n ≤ u.length + 1,
    urlLength n (u ++ '\x27' :: ')' :: s) = urlLength n (u ++ ['\x27', ')']) := by
  induction u with
  | nil =>
    intro n hn
    match n, hn with
    | 0, _ => rfl
    | 1, _ => rfl
  | cons c cs ih =>
    intro n hn
    rw [List.length_cons] at hn
    cases n with
    | succ n => simp only [List.cons_append, urlLength, ih n (by omega)]
    | zero =>
      obtain ⟨hescape, hlength⟩ := escape_quoted cs (')' :: s)
      obtain ⟨hescape', -⟩ := escape_quoted cs [')']
      simp only [List.cons_append, urlLength, urlEndLength_quoted cs s, badUrlLength_quoted cs s,
        startsNewline_quoted, hescape, hescape', ih _ hlength, ih 0 (Nat.zero_le _)]

theorem unquotedUrl?_quoted (u s : List Char) :
    unquotedUrl? (u ++ '\x27' :: ')' :: s) = unquotedUrl? (u ++ ['\x27', ')']) := by
  have hblanks := takeWhile_quoted (by decide : isBlank '\x27' = false) u
  have hlen := (List.takeWhile_prefix isBlank (l := u)).length_le
  have hhead : ∀ w t : List Char, (w ++ '\x27' :: t).head? = (w ++ ['\x27']).head? := fun w t => by
    cases w <;> rfl
  simp only [unquotedUrl?, hblanks, List.drop_append_of_le_length hlen, hhead _ (')' :: s),
    hhead _ [')'], urlLength_quoted _ s 0 (Nat.zero_le _)]

theorem numberLength_quoted (u s : List Char) :
    numberLength (u ++ '\x27' :: ')' :: s) = numberLength (u ++ ['\x27', ')']) := by
  have hdigits := takeWhile_quoted (by decide : Char.isDigit '\x27' = false) u
  have hlen := (List.takeWhile_prefix Char.isDigit (l := u)).length_le
  simp only [numberLength, hdigits, List.drop_append_of_le_length hlen, startsName_quoted,
    (name_quoted _ s 0 (Nat.zero_le _)).1]

theorem scanName_quoted (u s : List Char) :
    scanName (u ++ '\x27' :: ')' :: s) = scanName (u ++ ['\x27', ')']) := by
  obtain ⟨hname, hle⟩ := name_quoted u s 0 (Nat.zero_le _)
  simp only [scanName, hname]
  generalize name 0 (u ++ ['\x27', ')']) = r at hle ⊢
  rcases Nat.lt_or_eq_of_le hle with hlt | heq
  · have hdrop : ∀ t, (u ++ '\x27' :: t).drop r.2 = u.drop r.2 ++ '\x27' :: t := fun t =>
      List.drop_append_of_le_length (Nat.le_of_lt_succ hlt)
    rw [hdrop, hdrop]
    cases u.drop r.2 with
    | nil => rfl
    | cons d ds =>
      by_cases hd : d = '('
      · subst hd
        simp only [List.cons_append, unquotedUrl?_quoted ds s]
      · simp [hd]
  · have hdrop : ∀ t, (u ++ '\x27' :: t).drop r.2 = t := fun t => by
      rw [heq, ← List.drop_drop, List.drop_left]
      rfl
    rw [hdrop, hdrop]
    rfl

/-! ## Strings and comments at the end of a line -/

theorem stringEscape_quoted (u s : List Char) :
    stringEscape (u ++ '\x27' :: s) = stringEscape (u ++ ['\x27']) ∧
      stringEscape (u ++ ['\x27']) ≤ u.length + 1 := by
  cases u with
  | nil => exact ⟨rfl, le_refl 1⟩
  | cons c cs =>
    by_cases hbreak : c = '\r' ∧ cs.head? = some '\n'
    · obtain ⟨rfl, hhead⟩ := hbreak
      cases cs with
      | nil => cases hhead
      | cons d ds =>
        cases hhead
        exact ⟨rfl, Nat.le_add_left 2 _⟩
    · have hstep : ∀ t, stringEscape (c :: cs ++ '\x27' :: t) =
          if isNewline c then 1 else (escape (c :: cs ++ '\x27' :: t)).2 := fun t =>
        stringEscape.eq_2 _ _ fun rest hc heq => hbreak ⟨hc, by
          cases cs with
          | nil => exact absurd (List.cons.inj heq).1 (by decide)
          | cons d ds => rw [(List.cons.inj heq).1]; rfl⟩
      obtain ⟨hescape, hle⟩ := escape_quoted (c :: cs) s
      rw [hstep, hstep, hescape]
      refine ⟨rfl, ?_⟩
      split
      · exact Nat.succ_le_succ (Nat.zero_le _)
      · exact hle

/-- A string ends with the line, if not before. -/
theorem stringLength_quoted {quote : Char} (hquote : quote ≠ '\n') (u r : List Char) :
    ∀ n ≤ u.length + 1, stringLength quote n (u ++ '\x27' :: ')' :: ';' :: '\n' :: r) =
      stringLength quote n (u ++ ['\x27', ')', ';']) := by
  induction u with
  | nil =>
    intro n hn
    match n, hn with
    | 0, _ => simp [stringLength, hquote.symm, isNewline]
    | 1, _ => simp [stringLength, hquote.symm, isNewline]
  | cons c cs ih =>
    intro n hn
    rw [List.length_cons] at hn
    cases n with
    | succ n => simp only [List.cons_append, stringLength, ih n (by omega)]
    | zero =>
      obtain ⟨hescape, hlength⟩ := stringEscape_quoted cs (')' :: ';' :: '\n' :: r)
      obtain ⟨hescape', -⟩ := stringEscape_quoted cs [')', ';']
      simp only [List.cons_append, stringLength, hescape, hescape', ih _ hlength,
        ih 0 (Nat.zero_le _)]

/-- An open comment goes on for as long as nothing closes it. -/
theorem commentLength_eq_length (h : ¬ ['*', '/'] <:+: v) : commentLength v = v.length := by
  induction v with
  | nil => rfl
  | cons c cs ih =>
    have hcs : ¬ ['*', '/'] <:+: cs := fun hin => h (hin.trans (List.suffix_cons c cs).isInfix)
    have hne : ∀ rest, c = '*' → cs ≠ '/' :: rest := by
      rintro rest rfl rfl
      exact h ⟨[], rest, rfl⟩
    rw [commentLength.eq_3 _ _ hne, ih hcs, List.length_cons]

theorem infix_of_infix_cons (h : ['*', '/'] <:+: c :: cs)
    (hne : ∀ rest, c = '*' → cs ≠ '/' :: rest) : ['*', '/'] <:+: cs := by
  rcases List.infix_cons_iff.mp h with ⟨rest, hprefix⟩ | hcs
  · obtain ⟨hc, hrest⟩ := List.cons.inj hprefix
    exact absurd hrest.symm (hne rest hc.symm)
  · exact hcs

/-- A comment that is closed ends there. -/
theorem commentLength_append_of_closed (h : ['*', '/'] <:+: v) (r : List Char) :
    commentLength (v ++ r) = commentLength v := by
  fun_induction commentLength v with
  | case1 => exact absurd h (by decide)
  | case2 cs => rfl
  | case3 c cs hne ih =>
    have hcs := infix_of_infix_cons h hne
    have hne' : ∀ rest, c = '*' → cs ++ r ≠ '/' :: rest := by
      intro rest hc heq
      cases cs with
      | nil => exact absurd hcs (by decide)
      | cons d ds => exact hne ds hc (by rw [(List.cons.inj heq).1])
    rw [List.cons_append, commentLength.eq_3 _ _ hne', ih hcs]

/-- A comment that is closed has a slash at its end. -/
theorem getLast?_take_commentLength (h : ['*', '/'] <:+: v) :
    (v.take (commentLength v)).getLast? = some '/' := by
  fun_induction commentLength v with
  | case1 => exact absurd h (by decide)
  | case2 cs => rfl
  | case3 c cs hne ih =>
    rw [List.take_succ_cons, List.getLast?_cons, ih (infix_of_infix_cons h hne)]
    rfl

/-- Nothing closes a comment across the end of a line. -/
theorem not_infix_append_newline (hu : ¬ ['*', '/'] <:+: u) (hv : ¬ ['*', '/'] <:+: v) :
    ¬ ['*', '/'] <:+: u ++ '\n' :: v := by
  induction u with
  | nil =>
    intro h
    rcases List.infix_cons_iff.mp h with ⟨rest, hprefix⟩ | h
    · exact absurd (List.cons.inj hprefix).1 (by decide)
    · exact hv h
  | cons c cs ih =>
    intro h
    rcases List.infix_cons_iff.mp h with ⟨rest, hprefix⟩ | h
    · obtain ⟨rfl, hrest⟩ := List.cons.inj hprefix
      cases cs with
      | nil => exact absurd (List.cons.inj hrest).1 (by decide)
      | cons d ds =>
        refine hu ⟨[], ds, ?_⟩
        rw [← (List.cons.inj hrest).1]
        rfl
    · exact ih (fun hin => hu (hin.trans (List.suffix_cons c cs).isInfix)) h

/-- A comment that is not closed is all of the text. -/
theorem lexemes_openComment (h : ¬ ['*', '/'] <:+: v) :
    lexemes ('/' :: '*' :: v) = [⟨.comment, '/' :: '*' :: v⟩] := by
  have hscan : scan '/' ('*' :: v) = (.comment, ('*' :: v).length) := by
    rw [List.length_cons, ← commentLength_eq_length h, Nat.add_comm]
    rfl
  rw [lexemes_cons, hscan, List.take_length, List.drop_length, lexemes_nil]

/-! ## Ends of a line -/

/-- The ends of a line that closes a string and a call with a semicolon. -/
def IsLineEnd (v : List Char) : Prop :=
  v = [] ∨ v = [';'] ∨ v = [')', ';'] ∨ ∃ u, v = u ++ ['\x27', ')', ';']

theorem IsLineEnd.tail (h : IsLineEnd (c :: cs)) : IsLineEnd cs := by
  rcases h with h | h | h | ⟨u, h⟩
  · cases h
  · cases h
    exact .inl rfl
  · cases h
    exact .inr (.inl rfl)
  · cases u with
    | nil =>
      cases h
      exact .inr (.inr (.inl rfl))
    | cons d u => exact .inr (.inr (.inr ⟨u, (List.cons.inj h).2⟩))

theorem IsLineEnd.drop (h : IsLineEnd v) (n : Nat) : IsLineEnd (v.drop n) := by
  induction n generalizing v with
  | zero => exact h
  | succ n ih =>
    cases v with
    | nil => exact h
    | cons c cs => exact ih h.tail

theorem IsLineEnd.getLast? (h : IsLineEnd v) (hne : v ≠ []) : v.getLast? = some ';' := by
  rcases h with rfl | rfl | rfl | ⟨u, rfl⟩
  · exact absurd rfl hne
  · rfl
  · rfl
  · rw [List.getLast?_append_of_ne_nil _ (List.cons_ne_nil _ _)]
    rfl

/-- What is scanned before a quote and a bracket does not depend on what comes after them, if it
is neither a string nor a comment. -/
theorem scan_quoted (hquote : ¬ (c = '"' ∨ c = '\x27'))
    (hcomment : ¬ (c = '/' ∧ (u ++ ['\x27', ')']).take 1 = ['*'])) (s : List Char) :
    scan c (u ++ '\x27' :: ')' :: s) = scan c (u ++ ['\x27', ')']) := by
  have htake : ∀ (mark t : List Char), mark.all goesOn = true →
      ((u ++ '\x27' :: t).take mark.length = mark ↔ u.take mark.length = mark) :=
    fun mark t => take_append_eq_iff rfl mark
  have hstar := fun t => htake ['*'] t (by decide)
  have hopen := fun t => htake ['!', '-', '-'] t (by decide)
  have hclose := fun t => htake ['-', '>'] t (by decide)
  have hstart : ∀ t, startsName (c :: (u ++ '\x27' :: t)) = startsName (c :: u) := fun t =>
    startsName_quoted (c :: u) t
  have hscan : scanName (c :: (u ++ '\x27' :: ')' :: s)) = scanName (c :: (u ++ ['\x27', ')'])) :=
    scanName_quoted (c :: u) s
  simp only [List.length_cons, List.length_nil, Nat.zero_add, Nat.reduceAdd] at hstar hopen hclose
  rw [hstar] at hcomment
  simp only [scan, hquote, hstar, hopen, hclose, hcomment, hstart, hscan, startsName_quoted,
    startsHashWord_quoted, (name_quoted u s 0 (Nat.zero_le _)).1, numberLength_quoted u s,
    ↓reduceIte]

/-- What is scanned before the end of a line does not depend on what comes after it, unless it
is a comment. -/
theorem IsLineEnd.scan_append (h : IsLineEnd (c :: cs))
    (hcomment : ¬ (c = '/' ∧ cs.take 1 = ['*'])) (r : List Char) :
    scan c (cs ++ '\n' :: r) = scan c cs := by
  rcases h with h | h | h | ⟨u, h⟩
  · cases h
  · cases h
    rfl
  · cases h
    rfl
  · cases u with
    | nil =>
      cases h
      rfl
    | cons d u =>
      have hcs : cs = u ++ ['\x27', ')', ';'] := (List.cons.inj h).2
      subst hcs
      have htext : u ++ ['\x27', ')', ';'] ++ '\n' :: r =
          u ++ '\x27' :: ')' :: ';' :: '\n' :: r := by simp
      rw [htext]
      by_cases hquote : c = '"' ∨ c = '\x27'
      · have hstring : ∀ t, scan c t = (.other, stringLength c 0 t) := fun t => by
          rcases hquote with rfl | rfl <;> rfl
        have hbreak : c ≠ '\n' := by rcases hquote with rfl | rfl <;> decide
        rw [hstring, hstring, stringLength_quoted hbreak u r 0 (Nat.zero_le _)]
      · have hplain : ¬ (c = '/' ∧ (u ++ ['\x27', ')']).take 1 = ['*']) := by
          cases u <;> exact hcomment
        rw [scan_quoted hquote hplain, ← scan_quoted hquote hplain [';']]

theorem endsItem_scanName (s : List Char) : (scanName s).1.endsItem = false := by
  simp only [scanName]
  split
  · split
    · split <;> rfl
    · rfl
  · rfl

/-- If the last lexeme of a line ends an item, then it is the semicolon. -/
theorem IsLineEnd.eq_semicolon_of_endsItem (h : IsLineEnd (c :: cs))
    (hcomment : ¬ (c = '/' ∧ cs.take 1 = ['*'])) (hnil : cs.drop (scan c cs).2 = [])
    (hends : (scan c cs).1.endsItem = true) : (scan c cs).1 = .semicolon := by
  have hsingle : cs = [] → c = ';' := by
    rintro rfl
    exact Option.some.inj (h.getLast? (List.cons_ne_nil c []))
  have hs := scans c cs
  generalize scan c cs = r at hnil hends hs ⊢
  cases hs with
  | blank hblank =>
    rw [hsingle hnil] at hblank
    cases hblank
  | closing b hb =>
    cases b with
    | curly =>
      rw [hsingle hnil] at hb
      cases hb
    | _ => cases hends
  | semicolon hc => rfl
  | comment hc => exact absurd hc hcomment
  | name =>
    rw [endsItem_scanName] at hends
    cases hends
  | _ => cases hends

/-- Lines that are cut off from what comes after them.  They end an item with a semicolon, if at
all. -/
structure IsCutOff (v : List Char) : Prop where
  append : ∀ r, lexemes (v ++ '\n' :: r) = lexemes v ++ lexemes ('\n' :: r)
  last : ∀ x ∈ (lexemes v).getLast?, x.token.endsItem = true → x.token = .semicolon

/-- Lines that leave a comment open.  It takes in all that comes after the line and does not close
it. -/
def EndsInComment (v : List Char) : Prop :=
  ∃ xs, (∃ text, lexemes v = xs ++ [⟨.comment, text⟩]) ∧
    ∀ r, ¬ ['*', '/'] <:+: r → ∃ text, lexemes (v ++ '\n' :: r) = xs ++ [⟨.comment, text⟩]

theorem EndsInComment.cons (h : EndsInComment (cs.drop (scan c cs).2))
    (hscan : ∀ r, scan c (cs ++ '\n' :: r) = scan c cs) : EndsInComment (c :: cs) := by
  obtain ⟨xs, ⟨text, hxs⟩, hrest⟩ := h
  refine ⟨⟨(scan c cs).1, c :: cs.take (scan c cs).2⟩ :: xs, ⟨text, ?_⟩, fun r hr => ?_⟩
  · rw [lexemes_cons, hxs, List.cons_append]
  · obtain ⟨text, htext⟩ := hrest r hr
    exact ⟨text, by rw [List.cons_append, lexemes_cons_append (hscan r), htext, List.cons_append]⟩

theorem IsCutOff.cons (h : IsCutOff (cs.drop (scan c cs).2))
    (hscan : ∀ r, scan c (cs ++ '\n' :: r) = scan c cs)
    (hlast : cs.drop (scan c cs).2 = [] → (scan c cs).1.endsItem = true →
      (scan c cs).1 = .semicolon) : IsCutOff (c :: cs) := by
  refine ⟨fun r => ?_, fun x hx => ?_⟩
  · rw [List.cons_append, lexemes_cons_append (hscan r), h.append, lexemes_cons c cs,
      List.cons_append]
  · rw [lexemes_cons] at hx
    by_cases hnil : cs.drop (scan c cs).2 = []
    · rw [hnil] at hx
      cases hx
      exact hlast hnil
    · rw [List.getLast?_cons_of_ne_nil fun heq => hnil (lexemes_eq_nil heq)] at hx
      exact h.last x hx

theorem scan_closedComment {body : List Char} (h : ['*', '/'] <:+: body) (r : List Char) :
    scan '/' ('*' :: body ++ r) = scan '/' ('*' :: body) := by
  show (Token.comment, 1 + commentLength (body ++ r)) = (Token.comment, 1 + commentLength body)
  rw [commentLength_append_of_closed h]

/-- A comment that is closed does not go to the semicolon at the end of its line. -/
theorem IsLineEnd.drop_closedComment {body : List Char} (h : IsLineEnd ('/' :: '*' :: body))
    (hclosed : ['*', '/'] <:+: body) :
    ('*' :: body).drop (scan '/' ('*' :: body)).2 ≠ [] := by
  intro hnil
  rw [show (scan '/' ('*' :: body)).2 = 1 + commentLength body from rfl, Nat.add_comm,
    List.drop_succ_cons] at hnil
  have hlast := getLast?_take_commentLength hclosed
  rw [List.take_of_length_le (List.drop_eq_nil_iff.mp hnil)] at hlast
  have hend := h.tail.tail.getLast? (by rintro rfl; cases hlast)
  rw [hlast] at hend
  cases hend

/-- Lines that close a string and a call are cut off from what comes after them, unless they leave
a comment open. -/
theorem IsLineEnd.isCutOff_or_endsInComment {v : List Char} (h : IsLineEnd v) :
    IsCutOff v ∨ EndsInComment v := by
  match v with
  | [] => exact .inl ⟨fun r => rfl, fun x hx => by cases hx⟩
  | c :: cs =>
    have hrest := (h.tail.drop (scan c cs).2).isCutOff_or_endsInComment
    by_cases hcomment : c = '/' ∧ cs.take 1 = ['*']
    · obtain ⟨rfl, hstar⟩ := hcomment
      obtain ⟨body, rfl⟩ : ∃ body, cs = '*' :: body :=
        ⟨cs.drop 1, by rw [← List.singleton_append, ← hstar, List.take_append_drop]⟩
      by_cases hclosed : ['*', '/'] <:+: body
      · have hscan := fun r => scan_closedComment hclosed ('\n' :: r)
        exact hrest.imp (·.cons hscan fun hnil => absurd hnil (h.drop_closedComment hclosed))
          (·.cons hscan)
      · exact .inr ⟨[], ⟨_, lexemes_openComment hclosed⟩, fun r hr =>
          ⟨_, lexemes_openComment (not_infix_append_newline hclosed hr)⟩⟩
    · exact hrest.imp (·.cons (h.scan_append hcomment) (h.eq_semicolon_of_endsItem hcomment))
        (·.cons (h.scan_append hcomment))
termination_by v.length
decreasing_by simp only [List.length_drop, List.length_cons]; omega

end Reader
end StyleSheet
