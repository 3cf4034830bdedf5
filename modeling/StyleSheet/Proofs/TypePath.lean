import StyleSheet.Selector

/-!
# Selectors named after types

The full name of a type is a path: segments with `::` after each, the name of the type, and
its arguments in angle brackets.  A segment is a name, or a qualifier, which is in angle
brackets too, when the type is declared inside of an implementation.

`Selector.ofTypePath` cuts the text at the first `<` before it looks for the last `::`.  That
is right for the arguments, whatever is in them; but the first `<` can also be that of a
qualifier, and then nothing is left of the name.  So the selector has the name of the type if
and only if there is no qualifier in the path, and an empty text otherwise
(`ofTypePath_fullName_iff`).
-/

namespace StyleSheet
namespace Selector

/-! ## Full names -/

/-- A name in a path, of a type or of what it is declared in. -/
structure PathName where
  text : List Char
  nonempty : text ≠ []
  noColon : ':' ∉ text
  noAngle : '<' ∉ text

/-- A segment of a path. -/
inductive PathSegment where
  | name (n : PathName)
  /-- Any text in angle brackets. -/
  | qualifier (inner : List Char)

namespace PathSegment

def text : PathSegment → List Char
  | .name n => n.text
  | .qualifier inner => '<' :: (inner ++ ['>'])

def isQualifier : PathSegment → Bool
  | .name _ => false
  | .qualifier _ => true

end PathSegment

/-- The text of segments, with the separator after each of them. -/
def segmentsText (segments : List PathSegment) : List Char :=
  segments.flatMap fun s => s.text ++ [':', ':']

/-- The full name of a type in its parts. -/
structure TypePath where
  segments : List PathSegment
  name : PathName
  /-- The text between the angle brackets of the arguments, if there are any. -/
  arguments : Option (List Char)

namespace TypePath

def argumentsText (p : TypePath) : List Char :=
  match p.arguments with
  | some inner => '<' :: (inner ++ ['>'])
  | none => []

/-- The full name as one text. -/
def fullName (p : TypePath) : String :=
  String.ofList (segmentsText p.segments ++ (p.name.text ++ p.argumentsText))

/-- The name of the type itself. -/
def typeName (p : TypePath) : String := String.ofList p.name.text

/-- Whether a segment of the path is a qualifier. -/
def isQualified (p : TypePath) : Bool := p.segments.any PathSegment.isQualifier

end TypePath

/-! ## The last segment -/

variable {u : List Char}

theorem pathSegment_of_notMem (h : ':' ∉ u) : pathSegment u = u := by
  induction u with
  | nil => rfl
  | cons c cs ih =>
    have hc : ':' ≠ c := List.ne_of_not_mem_cons h
    rw [pathSegment.eq_2 _ _ fun _ heq => absurd heq.symm hc,
      ih (List.not_mem_of_not_mem_cons h)]

theorem pathSegment_append (h : ':' ∉ u) (r : List Char) :
    pathSegment (u ++ ':' :: ':' :: r) = u := by
  induction u with
  | nil => rfl
  | cons c cs ih =>
    have hc : ':' ≠ c := List.ne_of_not_mem_cons h
    rw [List.cons_append, pathSegment.eq_2 _ _ fun _ heq => absurd heq.symm hc,
      ih (List.not_mem_of_not_mem_cons h)]

/-- A path is empty or ends with the separator. -/
theorem segmentsText_cases (segments : List PathSegment) :
    segmentsText segments = [] ∨ ∃ front, segmentsText segments = front ++ [':', ':'] := by
  cases hlast : segments.getLast? with
  | none =>
    rw [List.getLast?_eq_none_iff.mp hlast]
    exact .inl rfl
  | some s =>
    obtain ⟨front, rfl⟩ := List.getLast?_eq_some_iff.mp hlast
    refine .inr ⟨segmentsText front ++ s.text, ?_⟩
    rw [segmentsText, List.flatMap_append, List.flatMap_singleton, ← List.append_assoc]
    rfl

/-- After a path, what holds no colon is the last segment. -/
theorem pathSegment_reverse (segments : List PathSegment) (h : ':' ∉ u) :
    (pathSegment (segmentsText segments ++ u).reverse).reverse = u := by
  have hreverse : ':' ∉ u.reverse := fun hmem => h (List.mem_reverse.mp hmem)
  rcases segmentsText_cases segments with hempty | ⟨front, hfront⟩
  · rw [hempty, List.nil_append, pathSegment_of_notMem hreverse, List.reverse_reverse]
  · have hsplit : (front ++ [':', ':'] ++ u).reverse =
        u.reverse ++ ':' :: ':' :: front.reverse := by simp
    rw [hfront, hsplit, pathSegment_append hreverse, List.reverse_reverse]

/-! ## The first angle bracket -/

/-- Segments without a qualifier hold no angle bracket. -/
theorem angle_notMem_segmentsText {segments : List PathSegment}
    (h : segments.any PathSegment.isQualifier = false) : '<' ∉ segmentsText segments := by
  intro hmem
  obtain ⟨s, hs, hc⟩ := List.mem_flatMap.mp hmem
  have hname := List.any_eq_false.mp h s hs
  cases s with
  | qualifier inner => exact hname rfl
  | name n =>
    rcases List.mem_append.mp hc with hc | hc
    · exact n.noAngle hc
    · exact absurd hc (by decide)

/-- The segments before the first qualifier. -/
theorem exists_segmentsText_of_isQualifier {segments : List PathSegment}
    (h : segments.any PathSegment.isQualifier = true) :
    ∃ before rest, segmentsText segments = segmentsText before ++ '<' :: rest ∧
      before.any PathSegment.isQualifier = false := by
  induction segments with
  | nil => cases h
  | cons s segments ih =>
    cases s with
    | qualifier inner => exact ⟨[], _, rfl, rfl⟩
    | name n =>
      obtain ⟨before, rest, htext, hbefore⟩ := ih h
      refine ⟨.name n :: before, rest, ?_, hbefore⟩
      rw [segmentsText, List.flatMap_cons, ← segmentsText, htext, ← List.append_assoc]
      rfl

/-- What is cut off before the first angle bracket. -/
theorem takeWhile_angle (hu : '<' ∉ u) {r : List Char} (hr : ∀ c ∈ r.head?, c = '<') :
    (u ++ r).takeWhile (· ≠ '<') = u := by
  have hall : ∀ c ∈ u, (decide (c ≠ '<')) = true := fun c hc =>
    decide_eq_true fun heq => hu (heq ▸ hc)
  rw [List.takeWhile_append_of_pos hall]
  cases r with
  | nil => simp
  | cons c cs => rw [hr c rfl, List.takeWhile_cons_of_neg (by decide), List.append_nil]

namespace TypePath

/-- The name that the selector gets. -/
theorem baseName_fullName (p : TypePath) :
    baseName p.fullName.toList = if p.isQualified then [] else p.name.text := by
  rw [fullName, String.toList_ofList, baseName]
  cases h : p.isQualified with
  | true =>
    obtain ⟨before, rest, htext, hbefore⟩ := exists_segmentsText_of_isQualifier h
    have hcut := takeWhile_angle (angle_notMem_segmentsText hbefore)
      (r := '<' :: rest ++ (p.name.text ++ p.argumentsText)) (by simp)
    have hlast := pathSegment_reverse before (u := []) List.not_mem_nil
    rw [List.append_nil] at hlast
    rw [htext, List.append_assoc, hcut, hlast, if_pos rfl]
  | false =>
    have hfront : '<' ∉ segmentsText p.segments ++ p.name.text := fun hmem =>
      (List.mem_append.mp hmem).elim (angle_notMem_segmentsText h) p.name.noAngle
    have hcut := takeWhile_angle hfront (r := p.argumentsText) fun c hc => by
      unfold argumentsText at hc
      split at hc <;> cases hc
      rfl
    rw [← List.append_assoc, hcut, pathSegment_reverse p.segments p.name.noColon,
      if_neg Bool.false_ne_true]

end TypePath

/-- A selector that is named after a type has the name of the type, without its path and its
arguments, if and only if there is no qualifier in the path; otherwise its text is empty.  It
is never a bare class. -/
theorem ofTypePath_fullName_iff (p : TypePath) :
    ((ofTypePath p.fullName).text = p.typeName ↔ p.isQualified = false) ∧
      (p.isQualified = true → (ofTypePath p.fullName).text = "") ∧
        (ofTypePath p.fullName).className = none := by
  have htext : (ofTypePath p.fullName).text =
      String.ofList (if p.isQualified then [] else p.name.text) :=
    congrArg String.ofList p.baseName_fullName
  rw [htext, TypePath.typeName, String.ofList_inj]
  refine ⟨?_, fun h => by rw [h]; rfl, rfl⟩
  cases p.isQualified with
  | true =>
    refine ⟨fun h => ?_, fun h => absurd h (by decide)⟩
    exact absurd h.symm p.name.nonempty
  | false => exact ⟨fun _ => rfl, fun _ => rfl⟩

/-- A qualifier takes the name away. -/
example : (ofTypePath "<a::S as b::Tr<u8>>::method::Local").text = "" := by
  decide +kernel

/-- Arguments with paths and brackets of their own are cut off. -/
example : (ofTypePath "a::b::Map<c::K<u8>, <d::S as e::Tr>::V>").text = "Map" := by
  decide +kernel

end Selector
end StyleSheet
