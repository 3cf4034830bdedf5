import Mathlib.Data.List.Infix
import Mathlib.Data.List.TakeWhile
import StyleSheet.Proofs.Reader.Scan

/-!
# Boundaries between lexemes

Texts are put next to each other, and the question is whether their lexemes are then next
to each other too.  In general they are not: a name goes on with the next letter, a
string with anything.

## Quiet text

The elements whose end has to be searched for are strings, comments, addresses and
escapes.  Text in which none of them starts is `Quiet`.  In quiet text an element goes on
as far as its characters allow, so only a few characters after it can belong to it; a
text that starts with none of these `startsApart`.

* `Quiet.lexemes_append`: quiet text is cut off before a text that starts apart.
* `Detached`: text that is cut off before whatever starts apart, quiet or not.
-/

namespace StyleSheet
namespace Reader

open Text

variable {c : Char} {u v r s cs : List Char}

/-! ## Characters that go on an element -/

/-- Whether a character can belong to an element that starts before it in quiet text. -/
def goesOn (c : Char) : Bool :=
  isNameChar c || c == '\\' || c == '(' || c == '*' || c == '!' || c == '>'

/-- Whether a text cannot go on what stands before it. -/
def startsApart : List Char → Bool
  | c :: _ => !goesOn c
  | [] => true

@[simp] theorem startsApart_nil : startsApart [] = true := rfl

@[simp] theorem startsApart_cons (c : Char) (cs : List Char) :
    startsApart (c :: cs) = !goesOn c := rfl

/-- A mark whose characters go on an element is not completed by what starts apart. -/
theorem take_append_eq_iff (hr : startsApart r = true) (mark : List Char)
    (hmark : mark.all goesOn = true) :
    (cs ++ r).take mark.length = mark ↔ cs.take mark.length = mark := by
  induction mark generalizing cs with
  | nil => simp
  | cons m mark ih =>
    rw [List.all_cons, Bool.and_eq_true] at hmark
    cases cs with
    | nil =>
      cases r with
      | nil => rfl
      | cons d r =>
        have hne : d ≠ m := by
          rintro rfl
          rw [startsApart_cons, hmark.1] at hr
          exact absurd hr (by decide)
        simp [hne]
    | cons c cs =>
      simp only [List.cons_append, List.length_cons, List.take_succ_cons, List.cons.injEq]
      exact and_congr_right fun _ => ih hmark.2

/-! ## Names without escapes -/

/-- What a character of a name stands for. -/
def nameValue (c : Char) : Char := if c = '\x00' then replacement else c

/-- Whether a name cannot go on with a text. -/
def endsName : List Char → Bool
  | c :: _ => !(isNameChar c || c == '\\')
  | [] => true

theorem endsName_of_startsApart (h : startsApart s = true) : endsName s = true := by
  cases s with
  | nil => rfl
  | cons c cs =>
    simp only [startsApart, goesOn, Bool.not_eq_true', Bool.or_eq_false_iff] at h
    simp [endsName, h]

theorem name_of_endsName (h : endsName s = true) : name 0 s = ([], 0) := by
  cases s with
  | nil => rfl
  | cons c cs =>
    simp only [endsName, Bool.not_eq_true', Bool.or_eq_false_iff, beq_eq_false_iff_ne] at h
    rw [name, if_neg (by simp [h.1]), if_neg fun hc => h.2 hc.1]

/-- A run of name characters is read to its end. -/
theorem name_run (hu : ∀ c ∈ u, isNameChar c = true) (hr : endsName r = true) :
    name 0 (u ++ r) = (u.map nameValue, u.length) := by
  induction u with
  | nil => exact name_of_endsName hr
  | cons c cs ih =>
    rw [List.cons_append, name, if_pos (hu c List.mem_cons_self),
      ih fun d hd => hu d (List.mem_cons_of_mem c hd)]
    rfl

theorem startsName_cons (hdash : c ≠ '-') (hslash : c ≠ '\\') (cs : List Char) :
    startsName (c :: cs) = isNameStart c := by
  simp [startsName, hdash]

/-! ## Quiet text -/

/-- Whether a character starts no string, address or escape. -/
def isQuietChar (c : Char) : Bool := c != '"' && c != '\x27' && c != '(' && c != '\\'

/-- Text in which no string, comment, address or escape starts. -/
structure Quiet (v : List Char) : Prop where
  chars : ∀ c ∈ v, isQuietChar c = true
  noComment : ¬ ['/', '*'] <:+: v

instance (v : List Char) : Decidable (Quiet v) :=
  decidable_of_iff (v.all isQuietChar = true ∧ ¬ ['/', '*'] <:+: v)
    ⟨fun h => ⟨List.all_eq_true.mp h.1, h.2⟩, fun h => ⟨List.all_eq_true.mpr h.chars, h.noComment⟩⟩

namespace Quiet

theorem of_infix (h : Quiet v) (hu : u <:+: v) : Quiet u where
  chars c hc := h.chars c (hu.subset hc)
  noComment hcomment := h.noComment (hcomment.trans hu)

theorem of_suffix (h : Quiet v) (hu : u <:+ v) : Quiet u := h.of_infix hu.isInfix

theorem tail (h : Quiet (c :: cs)) : Quiet cs := h.of_suffix (List.suffix_cons c cs)

theorem head (h : Quiet (c :: cs)) : c ≠ '"' ∧ c ≠ '\x27' ∧ c ≠ '(' ∧ c ≠ '\\' := by
  have hc := h.chars c List.mem_cons_self
  simpa [isQuietChar, and_assoc] using hc

theorem not_startsComment (h : Quiet (c :: cs)) : ¬ (c = '/' ∧ cs.take 1 = ['*']) := by
  rintro ⟨rfl, hstar⟩
  refine h.noComment ⟨[], cs.drop 1, ?_⟩
  rw [List.nil_append, List.cons_append, ← hstar, List.take_append_drop]

/-- Where a name in quiet text ends. -/
theorem endsName_dropWhile (h : Quiet v) : endsName (v.dropWhile isNameChar) = true := by
  cases hd : v.dropWhile isNameChar with
  | nil => rfl
  | cons c cs =>
    have hquiet : Quiet (c :: cs) := h.of_suffix (hd ▸ List.dropWhile_suffix isNameChar)
    have hchar : ¬ isNameChar c = true := by
      have hhead := List.head?_dropWhile_not isNameChar v
      rw [hd] at hhead
      simpa using hhead
    simp [endsName, hchar, hquiet.head]

/-- A name in quiet text is a run of name characters. -/
theorem name_eq (h : Quiet v) (hr : startsApart r = true) :
    name 0 (v ++ r) =
      ((v.takeWhile isNameChar).map nameValue, (v.takeWhile isNameChar).length) := by
  have hend : endsName (v.dropWhile isNameChar ++ r) = true := by
    have hquiet := h.endsName_dropWhile
    cases hd : v.dropWhile isNameChar with
    | nil => exact endsName_of_startsApart hr
    | cons c cs => rwa [hd] at hquiet
  rw [← name_run (fun c hc => List.mem_takeWhile_imp hc) hend, ← List.append_assoc,
    List.takeWhile_append_dropWhile]

theorem name_append (h : Quiet v) (hr : startsApart r = true) : name 0 (v ++ r) = name 0 v := by
  have hself := h.name_eq startsApart_nil
  rw [List.append_nil] at hself
  rw [h.name_eq hr, hself]

/-- Whether a name starts is decided before a text that starts apart. -/
theorem startsName_append (h : Quiet v) (hr : startsApart r = true) :
    startsName (v ++ r) = startsName v := by
  have hapart : startsName r = false ∧ ∀ d, r.head? = some d →
      (isNameStart d || d == '-' || d == '\\') = false := by
    cases r with
    | nil => exact ⟨rfl, fun d hd => by cases hd⟩
    | cons d r =>
      simp only [startsApart, goesOn, isNameChar, Bool.not_eq_true', Bool.or_eq_false_iff,
        beq_eq_false_iff_ne] at hr
      obtain ⟨⟨⟨⟨⟨⟨⟨hstart, -⟩, hdash⟩, hslash⟩, -⟩, -⟩, -⟩, -⟩ := hr
      refine ⟨(startsName_cons hdash hslash r).trans hstart, fun e he => ?_⟩
      cases he
      simp [hstart, hdash, hslash]
  match v with
  | [] => exact hapart.1
  | [c] =>
    obtain ⟨-, -, -, hslash⟩ := h.head
    by_cases hdash : c = '-'
    · subst hdash
      cases r with
      | nil => rfl
      | cons d r => exact hapart.2 d rfl
    · exact (startsName_cons hdash hslash r).trans (startsName_cons hdash hslash []).symm
  | c :: d :: cs =>
    obtain ⟨-, -, -, hslash⟩ := h.head
    by_cases hdash : c = '-'
    · subst hdash
      rfl
    · exact (startsName_cons hdash hslash _).trans (startsName_cons hdash hslash _).symm

theorem startsHashWord_append (h : Quiet v) (hr : startsApart r = true) :
    startsHashWord (v ++ r) = startsHashWord v := by
  cases v with
  | nil =>
    cases r with
    | nil => rfl
    | cons d r =>
      have hname : startsName (d :: r) = false := startsName_append h hr
      simp only [startsApart, goesOn, isNameChar, Bool.not_eq_true', Bool.or_eq_false_iff] at hr
      simp [startsHashWord, hname, hr]
  | cons c cs =>
    have hname : startsName (c :: (cs ++ r)) = startsName (c :: cs) := h.startsName_append hr
    simp only [List.cons_append, startsHashWord, hname]

theorem numberLength_append (h : Quiet v) (hr : startsApart r = true) :
    numberLength (v ++ r) = numberLength v := by
  have hdigits : (v ++ r).takeWhile Char.isDigit = v.takeWhile Char.isDigit := by
    rw [List.takeWhile_append]
    split
    next hall =>
      have hend : r.takeWhile Char.isDigit = [] := by
        cases r with
        | nil => rfl
        | cons d r =>
          simp only [startsApart, goesOn, isNameChar, Bool.not_eq_true',
            Bool.or_eq_false_iff] at hr
          simp [hr]
      rw [hend, List.append_nil]
      exact ((List.takeWhile_prefix _).eq_of_length hall).symm
    next => rfl
  have hlen := (List.takeWhile_prefix Char.isDigit (l := v)).length_le
  have hunit : Quiet (v.drop (v.takeWhile Char.isDigit).length) :=
    h.of_suffix (List.drop_suffix _ v)
  simp only [numberLength, hdigits, List.drop_append_of_le_length hlen,
    hunit.startsName_append hr, hunit.name_append hr]

theorem drop_name_ne (h : Quiet s) (hr : startsApart r = true) (n : Nat) (rest : List Char) :
    s.drop n ++ r ≠ '(' :: rest := by
  intro heq
  cases hd : s.drop n with
  | nil =>
    rw [hd, List.nil_append] at heq
    rw [heq, startsApart_cons, show goesOn '(' = true from rfl] at hr
    cases hr
  | cons d ds =>
    have hquiet : Quiet (d :: ds) := h.of_suffix (hd ▸ List.drop_suffix n s)
    rw [hd] at heq
    exact hquiet.head.2.2.1 (List.cons.inj heq).1

end Quiet

/-- A name before no round bracket is just a name. -/
theorem scanName_eq (h : ∀ rest, s.drop (name 0 s).2 ≠ '(' :: rest) :
    scanName s = (.name (name 0 s).1, (name 0 s).2) := by
  -- `h` rules out the first alternative of the match
  simp only [scanName]

namespace Quiet

/-- In quiet text a name starts no call. -/
theorem scanName_eq_name (h : Quiet v) :
    scanName v = (.name (name 0 v).1, (name 0 v).2) :=
  scanName_eq fun rest => by simpa using h.drop_name_ne startsApart_nil (name 0 v).2 rest

theorem scanName_append (h : Quiet v) (hr : startsApart r = true) :
    scanName (v ++ r) = scanName v := by
  have happ : ∀ rest, (v ++ r).drop (name 0 (v ++ r)).2 ≠ '(' :: rest := fun rest => by
    rw [h.name_append hr, List.drop_append_of_le_length (name_le_length 0 v)]
    exact h.drop_name_ne hr (name 0 v).2 rest
  rw [scanName_eq happ, h.scanName_eq_name, h.name_append hr]

/-- What starts apart does not change what is scanned before it. -/
theorem scan_append (h : Quiet (c :: cs)) (hr : startsApart r = true) :
    scan c (cs ++ r) = scan c cs := by
  have hquote : ¬ (c = '"' ∨ c = '\x27') := fun hc => hc.elim h.head.1 h.head.2.1
  have hstar : (cs ++ r).take 1 = ['*'] ↔ cs.take 1 = ['*'] :=
    take_append_eq_iff hr ['*'] (by decide)
  have hopen : (cs ++ r).take 3 = ['!', '-', '-'] ↔ cs.take 3 = ['!', '-', '-'] :=
    take_append_eq_iff hr ['!', '-', '-'] (by decide)
  have hclose : (cs ++ r).take 2 = ['-', '>'] ↔ cs.take 2 = ['-', '>'] :=
    take_append_eq_iff hr ['-', '>'] (by decide)
  have hname : startsName (c :: (cs ++ r)) = startsName (c :: cs) := h.startsName_append hr
  have hscan : scanName (c :: (cs ++ r)) = scanName (c :: cs) := h.scanName_append hr
  simp only [scan, hquote, hstar, hopen, hclose, h.not_startsComment, hname, hscan,
    h.tail.startsHashWord_append hr, h.tail.name_append hr, h.tail.startsName_append hr,
    h.tail.numberLength_append hr, ↓reduceIte]

/-- Quiet text is cut off before a text that starts apart. -/
theorem lexemes_append {v : List Char} (h : Quiet v) (hr : startsApart r = true) :
    lexemes (v ++ r) = lexemes v ++ lexemes r := by
  match v with
  | [] => rfl
  | c :: cs =>
    have hrest : Quiet (cs.drop (scan c cs).2) := h.tail.of_suffix (List.drop_suffix _ cs)
    rw [List.cons_append, lexemes_cons_append (h.scan_append hr), hrest.lexemes_append hr,
      lexemes_cons, List.cons_append]
termination_by v.length
decreasing_by simp only [List.length_drop, List.length_cons]; omega

end Quiet

/-! ## Detached text -/

/-- Text that is cut off before whatever starts apart. -/
def Detached (v : List Char) : Prop :=
  ∀ r, startsApart r = true → lexemes (v ++ r) = lexemes v ++ lexemes r

theorem Quiet.detached (h : Quiet v) : Detached v := fun _ => h.lexemes_append

end Reader
end StyleSheet
