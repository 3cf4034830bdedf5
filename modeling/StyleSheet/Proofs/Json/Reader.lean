import StyleSheet.Json.Reader
import StyleSheet.Proofs.Json.Text

/-!
# Written lists and objects are read back

What it means that a text is read as a value is said for every reader in the same way
(`Spells`): with any white space before the text and with anything after it, the reader gives
the value and leaves what comes after.  The text itself starts with a character that cannot be
white space and does not close a list, so that the reader of a list, which looks at that
character first, takes it for the start of an element.

From this, lists and objects are read by induction over what they consist of.  The elements of
a list and the members of an object are separated in the same way: nothing but white space
stands before the first one, and a comma in white space before every other one (`Separates`).
The readers count what they have read against the length of the text.  Every element and
every member takes a character at least, so they never run out (`elements_spells`,
`members_spells`).
-/

namespace StyleSheet
namespace Json

/-! ## White space and separators -/

/-- White space. -/
def IsSpaces (w : List Char) : Prop := ∀ c ∈ w, isSpace c = true

theorem isSpaces_nil : IsSpaces [] := List.forall_mem_nil _

theorem isSpaces_singleton {c : Char} (h : isSpace c = true) : IsSpaces [c] :=
  List.forall_mem_singleton.mpr h

theorem skipSpace_append {w : List Char} (hw : IsSpaces w) (s : List Char) :
    skipSpace (w ++ s) = skipSpace s :=
  List.dropWhile_append_of_pos hw

theorem skipSpace_cons {c : Char} (hc : isSpace c = false) (s : List Char) :
    skipSpace (c :: s) = c :: s :=
  List.dropWhile_cons_of_neg (by rw [hc]; exact Bool.false_ne_true)

theorem skipSpace_of_isSpaces {w : List Char} (hw : IsSpaces w) : skipSpace w = [] := by
  rw [← List.append_nil w, skipSpace_append hw, skipSpace, List.dropWhile_nil]

/-- White space is skipped up to what is none. -/
theorem skipSpace_append_cons {w : List Char} {c : Char} (hw : IsSpaces w)
    (hc : isSpace c = false) (s : List Char) : skipSpace (w ++ c :: s) = c :: s := by
  rw [skipSpace_append hw, skipSpace_cons hc]

/-- What stands before the first element or member, or before another one. -/
inductive Separates : Bool → List Char → Prop
  | first {w : List Char} (hw : IsSpaces w) : Separates true w
  | comma {w w' : List Char} (hw : IsSpaces w) (hw' : IsSpaces w') :
    Separates false (w ++ ',' :: w')

section Separators

variable {first : Bool} {w : List Char}

theorem nextElement_close (hw : IsSpaces w) (first : Bool) (r : List Char) :
    nextElement first (w ++ ']' :: r) = .ok (.closed r) := by
  simp [nextElement, skipSpace_append_cons hw (by decide : isSpace ']' = false)]

theorem nextElement_separates (hw : Separates first w) {c : Char} (hspace : isSpace c = false)
    (hclose : c ≠ ']') (s : List Char) :
    nextElement first (w ++ c :: s) = .ok (.more (c :: s)) := by
  cases hw with
  | first hw => simp [nextElement, skipSpace_append_cons hw hspace]
  | comma hw hw' =>
    simp [nextElement, skipSpace_append_cons hw (by decide : isSpace ',' = false),
      skipSpace_append_cons hw' hspace, hclose]

theorem nextMember_close (hw : IsSpaces w) (first : Bool) (r : List Char) :
    Shape.nextMember first (w ++ '}' :: r) = .ok (.closed r) := by
  simp [Shape.nextMember, skipSpace_append_cons hw (by decide : isSpace '}' = false)]

theorem nextMember_separates (hw : Separates first w) (s : List Char) :
    Shape.nextMember first (w ++ '"' :: s) = .ok (.more s) := by
  have hspace : isSpace '"' = false := by decide
  cases hw with
  | first hw => simp [Shape.nextMember, Shape.nextKey, skipSpace_append_cons hw hspace]
  | comma hw hw' =>
    simp [Shape.nextMember, Shape.nextKey,
      skipSpace_append_cons hw (by decide : isSpace ',' = false), skipSpace_append_cons hw' hspace]

end Separators

/-! ## Values -/

/-- The text `t` is read as `a`, whatever comes after it. -/
structure Spells {α : Type} (read : Reader α) (t : List Char) (a : α) : Prop where
  opens : ∃ c u, t = c :: u ∧ isSpace c = false ∧ c ≠ ']'
  reads : ∀ w r, IsSpaces w → read (w ++ (t ++ r)) = .ok (a, r)

/-- A document is a value in white space. -/
theorem Spells.readDocument_eq {α : Type} {read : Reader α} {t w w' : List Char} {a : α}
    {document : String} (h : Spells read t a) (hw : IsSpaces w) (hw' : IsSpaces w')
    (hdocument : document.toList = w ++ (t ++ w')) : readDocument read document = .ok a := by
  simp only [readDocument, hdocument, h.reads w w' hw, skipSpace_of_isSpaces hw']

theorem spells_text {u s : List Char} (h : SpellsString u s) (expected : String) :
    Spells (text expected) ('"' :: u) (String.ofList s) where
  opens := ⟨'"', u, rfl, by decide, by decide⟩
  reads w r hw := by
    have hskip : skipSpace (w ++ ('"' :: u ++ r)) = '"' :: (u ++ r) :=
      skipSpace_append_cons hw (by decide) _
    simp only [text, hskip, h r]

/-- A written string is read back. -/
theorem spells_stringText (s expected : String) :
    Spells (text expected) (stringText s.toList) s := by
  have hstring := spells_text (spellsString_flatMap s.toList) expected
  rwa [String.ofList_toList] at hstring

/-! ## Lists -/

section Lists

variable {α : Type} {item : Reader α}

/-- Elements that are still to come, and the end of the list. -/
inductive SpellsElements (item : Reader α) : Bool → List Char → List α → Prop
  | close {first : Bool} {w : List Char} (hw : IsSpaces w) :
    SpellsElements item first (w ++ [']']) []
  | element {first : Bool} {w t u : List Char} {a : α} {as : List α} (hw : Separates first w)
    (ha : Spells item t a) (has : SpellsElements item false u as) :
    SpellsElements item first (w ++ (t ++ u)) (a :: as)

/-- As many elements are read as there are. -/
theorem elements_spells {first : Bool} {u : List Char} {as : List α}
    (h : SpellsElements item first u as) (r : List Char) :
    ∀ fuel, u.length ≤ fuel → elements item fuel first (u ++ r) = .ok (as, r) := by
  induction h with
  | @close first w hw =>
    intro fuel hfuel
    obtain ⟨fuel, rfl⟩ : ∃ n, fuel = n + 1 :=
      Nat.exists_eq_add_one.mpr (by simp at hfuel; omega)
    rw [List.append_assoc, List.singleton_append, elements, nextElement_close hw]
  | @element first w t u a as hw ha has ih =>
    intro fuel hfuel
    obtain ⟨c, t', rfl, hspace, hclose⟩ := ha.opens
    simp only [List.length_append, List.length_cons] at hfuel
    obtain ⟨fuel, rfl⟩ : ∃ n, fuel = n + 1 := Nat.exists_eq_add_one.mpr (by omega)
    have hnext : nextElement first (w ++ (c :: t' ++ u) ++ r) =
        .ok (.more (c :: t' ++ (u ++ r))) := by
      rw [List.append_assoc, List.append_assoc, List.cons_append]
      exact nextElement_separates hw hspace hclose _
    have hitem : item (c :: t' ++ (u ++ r)) = .ok (a, u ++ r) := ha.reads [] (u ++ r) isSpaces_nil
    rw [elements, hnext]
    simp only [hitem, ih fuel (by omega)]

theorem spells_list {u : List Char} {as : List α} (h : SpellsElements item true u as) :
    Spells (list item) ('[' :: u) as where
  opens := ⟨'[', u, rfl, by decide, by decide⟩
  reads w r hw := by
    have hskip : skipSpace (w ++ ('[' :: u ++ r)) = '[' :: (u ++ r) :=
      skipSpace_append_cons hw (by decide) _
    simp only [list, hskip]
    exact elements_spells h r _ (by simp; omega)

end Lists

/-! ## Objects -/

namespace Shape

variable {σ α : Type} {shape : Shape σ α}

/-- A member from its opening quote on, which takes the state to another one. -/
inductive SpellsMember (shape : Shape σ α) : σ → List Char → σ → Prop
  | mk {field : RecordField σ} {state state' : σ} {key : String} {k w v : List Char}
    (hkey : SpellsString k key.toList) (hfield : shape.fields.find? (·.key == key) = some field)
    (hunset : field.isSet state = false) (hw : IsSpaces w)
    (hread : ∀ r, field.read state (v ++ r) = .ok (state', r)) :
    SpellsMember shape state ('"' :: (k ++ (w ++ ':' :: v))) state'

/-- Members that are still to come, and the end of the object. -/
inductive SpellsMembers (shape : Shape σ α) : Bool → σ → List Char → σ → Prop
  | close {first : Bool} {state : σ} {w : List Char} (hw : IsSpaces w) :
    SpellsMembers shape first state (w ++ ['}']) state
  | member {first : Bool} {state state' last : σ} {w t u : List Char} (hw : Separates first w)
    (ht : SpellsMember shape state t state') (hu : SpellsMembers shape false state' u last) :
    SpellsMembers shape first state (w ++ (t ++ u)) last

/-- A member whose value is a value of a reader, which sets a component of the state. -/
theorem spellsMember_of_spells {β : Type} {read : Reader β} {field : RecordField σ}
    {state state' : σ} {key : String} {k w w' v : List Char} {b : β}
    (hfield : shape.fields.find? (·.key == key) = some field) (hunset : field.isSet state = false)
    (hset : ∀ ⦃s r⦄, read s = .ok (b, r) → field.read state s = .ok (state', r))
    (hkey : SpellsString k key.toList) (hw : IsSpaces w) (hw' : IsSpaces w')
    (hv : Spells read v b) :
    shape.SpellsMember state ('"' :: (k ++ (w ++ ':' :: (w' ++ v)))) state' :=
  .mk hkey hfield hunset hw fun r => by
    rw [List.append_assoc]
    exact hset (hv.reads w' r hw')

theorem afterColon_append {w : List Char} (hw : IsSpaces w) (s : List Char) :
    afterColon (w ++ ':' :: s) = .ok s := by
  simp [afterColon, skipSpace_append_cons hw (by decide : isSpace ':' = false)]

/-- One member takes the state to the next one. -/
theorem SpellsMember.reads {state state' : σ} {t : List Char}
    (h : shape.SpellsMember state t state') : ∃ u, t = '"' :: u ∧ ∀ r, ∃ key s,
      readString (u ++ r) = .ok (key, s) ∧
        shape.member state (String.ofList key) s = .ok (state', r) := by
  cases h with
  | @mk field _ _ key k w v hkey hfield hunset hw hread =>
    refine ⟨_, rfl, fun r => ⟨key.toList, w ++ ':' :: (v ++ r), ?_, ?_⟩⟩
    · rw [List.append_assoc, List.append_assoc]
      exact hkey _
    · simp [member, hfield, hunset, afterColon_append hw, hread]

/-- As many members are read as there are. -/
theorem members_spells {first : Bool} {state last : σ} {u : List Char}
    (h : shape.SpellsMembers first state u last) (r : List Char) :
    ∀ fuel, u.length ≤ fuel → shape.members fuel first state (u ++ r) = .ok (last, r) := by
  induction h with
  | @close first state w hw =>
    intro fuel hfuel
    obtain ⟨fuel, rfl⟩ : ∃ n, fuel = n + 1 :=
      Nat.exists_eq_add_one.mpr (by simp at hfuel; omega)
    rw [List.append_assoc, List.singleton_append, members, nextMember_close hw]
  | @member first state state' last w t u hw ht hu ih =>
    intro fuel hfuel
    obtain ⟨t', rfl, hmember⟩ := ht.reads
    simp only [List.length_append, List.length_cons] at hfuel
    obtain ⟨fuel, rfl⟩ : ∃ n, fuel = n + 1 := Nat.exists_eq_add_one.mpr (by omega)
    have hnext : nextMember first (w ++ ('"' :: t' ++ u) ++ r) = .ok (.more (t' ++ (u ++ r))) := by
      rw [List.append_assoc, List.append_assoc, List.cons_append]
      exact nextMember_separates hw _
    obtain ⟨key, s, hkey, hvalue⟩ := hmember (u ++ r)
    rw [members, hnext]
    simp only [hkey, hvalue, ih fuel (by omega)]

/-- An object is read as what its members make. -/
theorem spells_record {u : List Char} {last : σ} {a : α}
    (h : shape.SpellsMembers true shape.start u last) (ha : shape.finish last = .ok a) :
    Spells shape.record ('{' :: u) a where
  opens := ⟨'{', u, rfl, by decide, by decide⟩
  reads w r hw := by
    have hskip : skipSpace (w ++ ('{' :: u ++ r)) = '{' :: (u ++ r) :=
      skipSpace_append_cons hw (by decide) _
    have hmembers := members_spells h r (w ++ ('{' :: u ++ r)).length (by simp; omega)
    simp only [record, hskip, hmembers, complete, ha]

end Shape
end Json
end StyleSheet
