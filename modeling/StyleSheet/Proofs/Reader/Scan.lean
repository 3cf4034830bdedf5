import StyleSheet.Reader.Lexeme

/-!
# What a scan finds

`scan` cuts one lexeme off a text.  It is a long chain of choices, and proofs about it
should not walk that chain again: `Scans` lists its outcomes, each with the condition
under which it arises, and `scans` says that there are no others.

No element goes past the end of the text (`scan_le`), so the characters of a lexeme are
characters of the text (`exists_scan_of_mem_lexemes`).
-/

namespace StyleSheet
namespace Reader

/-! ## Elements stay within the text -/

theorem name_le_length (skip : Nat) (s : List Char) : (name skip s).2 ≤ s.length := by
  fun_induction name skip s with
  | case1 => exact Nat.zero_le _
  | case2 skip c cs r ih => exact Nat.succ_le_succ ih
  | case3 c cs hc r ih => exact Nat.succ_le_succ ih
  | case4 c cs hc he e r ih => exact Nat.succ_le_succ ih
  | case5 => exact Nat.zero_le _

theorem stringLength_le (quote : Char) (skip : Nat) (s : List Char) :
    stringLength quote skip s ≤ s.length := by
  fun_induction stringLength quote skip s with
  | case1 => exact Nat.zero_le _
  | case2 skip c cs ih => exact Nat.succ_le_succ ih
  | case3 cs => exact Nat.succ_le_succ (Nat.zero_le _)
  | case4 => exact Nat.zero_le _
  | case5 cs _ _ ih => exact Nat.succ_le_succ ih
  | case6 c cs _ _ _ ih => exact Nat.succ_le_succ ih

theorem commentLength_le (s : List Char) : commentLength s ≤ s.length := by
  fun_induction commentLength s with
  | case1 => exact Nat.zero_le _
  | case2 cs => exact Nat.succ_le_succ (Nat.succ_le_succ (Nat.zero_le _))
  | case3 c cs _ ih => exact Nat.succ_le_succ ih

theorem badUrlLength_le (s : List Char) : badUrlLength s ≤ s.length := by
  fun_induction badUrlLength s with
  | case1 => exact Nat.zero_le _
  | case2 cs => exact Nat.succ_le_succ (Nat.zero_le _)
  | case3 cs ih => exact Nat.succ_le_succ (Nat.succ_le_succ ih)
  | case4 cs ih => exact Nat.succ_le_succ (Nat.succ_le_succ ih)
  | case5 c cs _ _ _ ih => exact Nat.succ_le_succ ih

theorem urlEndLength_le (s : List Char) : urlEndLength s ≤ s.length := by
  fun_induction urlEndLength s with
  | case1 => exact Nat.zero_le _
  | case2 c cs _ ih => exact Nat.succ_le_succ ih
  | case3 cs => exact Nat.succ_le_succ (Nat.zero_le _)
  | case4 c cs => exact Nat.succ_le_succ (badUrlLength_le cs)

theorem urlLength_le (skip : Nat) (s : List Char) : urlLength skip s ≤ s.length := by
  fun_induction urlLength skip s with
  | case1 => exact Nat.zero_le _
  | case2 skip c cs ih => exact Nat.succ_le_succ ih
  | case3 c cs => exact Nat.succ_le_succ (urlEndLength_le cs)
  | case4 cs => exact Nat.succ_le_succ (Nat.zero_le _)
  | case5 c cs => exact Nat.succ_le_succ (badUrlLength_le cs)
  | case6 cs => exact Nat.succ_le_succ (badUrlLength_le cs)
  | case7 cs _ _ _ _ ih => exact Nat.succ_le_succ ih
  | case8 c cs _ _ _ _ ih => exact Nat.succ_le_succ ih

theorem unquotedUrl?_le {s : List Char} {n : Nat} (h : unquotedUrl? s = some n) : n ≤ s.length := by
  simp only [unquotedUrl?] at h
  split at h
  · cases h
  · have hurl := urlLength_le 0 (s.drop (s.takeWhile isBlank).length)
    rw [List.length_drop] at hurl
    have hblank := (List.takeWhile_prefix isBlank (l := s)).length_le
    cases h
    omega

theorem numberLength_le (s : List Char) : numberLength s ≤ s.length := by
  have hdigits := (List.takeWhile_prefix Char.isDigit (l := s)).length_le
  have hunit := name_le_length 0 (s.drop (s.takeWhile Char.isDigit).length)
  rw [List.length_drop] at hunit
  simp only [numberLength]
  split <;> omega

theorem scanName_le (s : List Char) : (scanName s).2 ≤ s.length := by
  have hname := name_le_length 0 s
  simp only [scanName]
  split
  next rest hrest =>
    have hlen := congrArg List.length hrest
    rw [List.length_drop, List.length_cons] at hlen
    split
    · split
      next n hn =>
        have := unquotedUrl?_le hn
        simp only
        omega
      next => simp only; omega
    · simp only; omega
  next => exact hname

/-! ## The outcomes of a scan -/

/-- The character that opens a bracket. -/
def Bracket.opener : Bracket → Char
  | .round => '('
  | .square => '['
  | .curly => '{'

/-- The character that closes a bracket. -/
def Bracket.closer : Bracket → Char
  | .round => ')'
  | .square => ']'
  | .curly => '}'

/-- The outcomes of a scan of the text `c :: cs`. -/
inductive Scans (c : Char) (cs : List Char) : Token × Nat → Prop where
  | blank (h : isBlank c = true) : Scans c cs (.blank, 0)
  | string (h : c = '"' ∨ c = '\x27') : Scans c cs (.other, stringLength c 0 cs)
  | opening (b : Bracket) (h : c = b.opener) : Scans c cs (.opening b, 0)
  | closing (b : Bracket) (h : c = b.closer) : Scans c cs (.closing b, 0)
  | semicolon (h : c = ';') : Scans c cs (.semicolon, 0)
  | colon (h : c = ':') : Scans c cs (.colon, 0)
  | comment (h : c = '/' ∧ cs.take 1 = ['*']) :
      Scans c cs (.comment, 1 + commentLength (cs.drop 1))
  | markupOpen (h : c = '<' ∧ cs.take 3 = ['!', '-', '-']) : Scans c cs (.markup, 3)
  | markupClose (h : c = '-' ∧ cs.take 2 = ['-', '>']) : Scans c cs (.markup, 2)
  | hash (h : c = '#') : Scans c cs (.other, if startsHashWord cs then (name 0 cs).2 else 0)
  | atWord (h : c = '@') (hname : startsName cs = true) : Scans c cs (.atWord, (name 0 cs).2)
  | number (h : c.isDigit = true) : Scans c cs (.other, numberLength cs)
  | name (h : startsName (c :: cs) = true) :
      Scans c cs ((scanName (c :: cs)).1, (scanName (c :: cs)).2 - 1)
  | atSign (h : c = '@') : Scans c cs (.other, 0)
  | other (h : ¬ startsName (c :: cs) = true) : Scans c cs (.other, 0)

theorem scans (c : Char) (cs : List Char) : Scans c cs (scan c cs) := by
  unfold scan
  refine iteInduction (motive := Scans c cs) .blank fun _ => ?_
  refine iteInduction (motive := Scans c cs) .string fun _ => ?_
  refine iteInduction (motive := Scans c cs) (.opening .round) fun _ => ?_
  refine iteInduction (motive := Scans c cs) (.closing .round) fun _ => ?_
  refine iteInduction (motive := Scans c cs) (.opening .square) fun _ => ?_
  refine iteInduction (motive := Scans c cs) (.closing .square) fun _ => ?_
  refine iteInduction (motive := Scans c cs) (.opening .curly) fun _ => ?_
  refine iteInduction (motive := Scans c cs) (.closing .curly) fun _ => ?_
  refine iteInduction (motive := Scans c cs) .semicolon fun _ => ?_
  refine iteInduction (motive := Scans c cs) .colon fun _ => ?_
  refine iteInduction (motive := Scans c cs) .comment fun _ => ?_
  refine iteInduction (motive := Scans c cs) .markupOpen fun _ => ?_
  refine iteInduction (motive := Scans c cs) .markupClose fun _ => ?_
  refine iteInduction (motive := Scans c cs) .hash fun _ => ?_
  refine iteInduction (motive := Scans c cs) (fun hat => ?_) fun _ => ?_
  · exact iteInduction (motive := Scans c cs) (.atWord hat) fun _ => .atSign hat
  · refine iteInduction (motive := Scans c cs) .number fun _ => ?_
    exact iteInduction (motive := Scans c cs) .name .other

/-- What is scanned is within the text. -/
theorem scan_le (c : Char) (cs : List Char) : (scan c cs).2 ≤ cs.length := by
  have h := scans c cs
  generalize scan c cs = r at h ⊢
  cases h with
  | string => exact stringLength_le c 0 cs
  | comment h =>
    have hlen := congrArg List.length h.2
    have hdrop := commentLength_le (cs.drop 1)
    rw [List.length_take, List.length_singleton] at hlen
    rw [List.length_drop] at hdrop
    show 1 + commentLength (cs.drop 1) ≤ cs.length
    omega
  | markupOpen h =>
    have hlen : min 3 cs.length = 3 := List.length_take.symm.trans (congrArg List.length h.2)
    show 3 ≤ cs.length
    omega
  | markupClose h =>
    have hlen : min 2 cs.length = 2 := List.length_take.symm.trans (congrArg List.length h.2)
    show 2 ≤ cs.length
    omega
  | hash =>
    show (if startsHashWord cs then (Reader.name 0 cs).2 else 0) ≤ cs.length
    split
    · exact name_le_length 0 cs
    · exact Nat.zero_le _
  | atWord => exact name_le_length 0 cs
  | number => exact numberLength_le cs
  | name =>
    have hname := scanName_le (c :: cs)
    rw [List.length_cons] at hname
    exact Nat.sub_le_of_le_add hname
  | _ => exact Nat.zero_le _

/-- What comes after a text does not change its first lexeme, if it does not change the scan. -/
theorem lexemes_cons_append {c : Char} {cs r : List Char} (h : scan c (cs ++ r) = scan c cs) :
    lexemes (c :: (cs ++ r)) =
      ⟨(scan c cs).1, c :: cs.take (scan c cs).2⟩ :: lexemes (cs.drop (scan c cs).2 ++ r) := by
  have hlen := scan_le c cs
  rw [lexemes_cons, h, List.take_append_of_le_length hlen, List.drop_append_of_le_length hlen]

theorem lexemes_eq_nil {s : List Char} (h : lexemes s = []) : s = [] := by
  rw [← source_lexemes s, h]
  rfl

/-- Every lexeme of a text is scanned somewhere in it. -/
theorem exists_scan_of_mem_lexemes {s : List Char} {x : Lexeme} (hx : x ∈ lexemes s) :
    ∃ c cs, c :: cs <:+ s ∧ x = ⟨(scan c cs).1, c :: cs.take (scan c cs).2⟩ := by
  match s with
  | [] => cases hx
  | c :: cs =>
    rw [lexemes_cons, List.mem_cons] at hx
    rcases hx with rfl | hx
    · exact ⟨c, cs, List.suffix_refl _, rfl⟩
    · obtain ⟨d, ds, hsuffix, hd⟩ := exists_scan_of_mem_lexemes hx
      have hdrop : cs.drop (scan c cs).2 <:+ c :: cs :=
        (List.drop_suffix _ cs).trans (List.suffix_cons c cs)
      exact ⟨d, ds, hsuffix.trans hdrop, hd⟩
termination_by s.length
decreasing_by simp only [List.length_drop, List.length_cons]; omega

/-! ## First characters -/

/-- The character with which a token starts, for some that can only start with one. -/
def Token.first? : Token → Option Char
  | .opening .curly => some '{'
  | .closing .curly => some '}'
  | .semicolon => some ';'
  | .colon => some ':'
  | .atWord => some '@'
  | _ => none

theorem first?_scanName (s : List Char) : (scanName s).1.first? = none := by
  simp only [scanName]
  split
  · split
    · split <;> rfl
    · rfl
  · rfl

theorem eq_of_first? {c d : Char} {cs : List Char} (h : (scan c cs).1.first? = some d) :
    c = d := by
  have hs := scans c cs
  generalize scan c cs = r at h hs
  cases hs with
  | opening b hb =>
    cases b with
    | curly => exact hb.trans (Option.some.inj h)
    | _ => cases h
  | closing b hb =>
    cases b with
    | curly => exact hb.trans (Option.some.inj h)
    | _ => cases h
  | semicolon hc => exact hc.trans (Option.some.inj h)
  | colon hc => exact hc.trans (Option.some.inj h)
  | atWord hc => exact hc.trans (Option.some.inj h)
  | name =>
    rw [first?_scanName] at h
    cases h
  | _ => cases h

/-- The first characters of its lexemes are in a text. -/
theorem mem_of_first? {s : List Char} {x : Lexeme} {d : Char} (hx : x ∈ lexemes s)
    (h : x.token.first? = some d) : d ∈ s := by
  obtain ⟨c, cs, hsuffix, rfl⟩ := exists_scan_of_mem_lexemes hx
  exact hsuffix.subset (eq_of_first? h ▸ List.mem_cons_self)

end Reader
end StyleSheet
