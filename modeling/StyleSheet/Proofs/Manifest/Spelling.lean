import StyleSheet.Manifest.Load
import StyleSheet.Proofs.Json.Decode
import Mathlib.Data.List.Forall2
import Mathlib.Data.List.Permutation

/-!
# Every spelling of a manifest, and none that is off

A manifest can be written in many ways: with any white space, with any escapes in strings and
keys, with the members of each object in any order, and with or without the members whose lists
are empty.  All of them are read as the manifest that was written.  And of all other JSON in the
form of a manifest, what has an object with a key of its own invention, with a key that is there
twice, or without one that must be there, is not read at all, wherever in the document that
object is (`parse_document`).

What is written is said with values (`IsManifestTree`), and so is what is off (`OffSchema`); how
values are written is left to the grammar.
-/

namespace StyleSheet
namespace Manifest

open Json

/-! ## Decoders -/

section Pairs

variable {α β γ : Type} {key key' : String} {first : Tree → Option α} {second : Tree → Option β}
  {shape : Shape (Option α × Option β) γ} {optional optional' : Bool} {read : Reader α}
  {read' : Reader β}

/-- What the values of the members of a record with two members do. -/
def decodePair (key : String) (first : Tree → Option α) (second : Tree → Option β) (k : String)
    (state : Option α × Option β) (tree : Tree) : Option (Option α × Option β) :=
  if k = key then (first tree).map fun a => (some a, state.2)
  else (second tree).map fun b => (state.1, some b)

variable (hfields : shape.fields = [firstField key optional read, secondField key' optional' read'])
include hfields

theorem decodeMember_first (b : Option β) (tree : Tree) :
    shape.decodeMember (decodePair key first second) (none, b) (key, tree) =
      (first tree).map fun a => (some a, b) := by
  simp [Shape.decodeMember, hfields, firstField, decodePair]

/-- The first member only. -/
theorem decode_single {t : Tree} {a : α} (hstart : shape.start = (none, none))
    (ht : first t = some a) :
    shape.decode (decodePair key first second) (.object [(key, t)]) =
      (shape.finish (some a, none)).toOption := by
  rw [Shape.decode, hstart]
  simp [decodeMember_first hfields, ht]

variable (hkeys : key' ≠ key)
include hkeys

theorem decodesFields_pair (hfirst : Decodes read first) (hsecond : Decodes read' second) :
    shape.DecodesFields (decodePair key first second) := by
  rw [Shape.DecodesFields, hfields]
  refine List.forall_mem_cons.mpr ⟨fun state tree t ht w r hw => ?_,
    List.forall_mem_singleton.mpr fun state tree t ht w r hw => ?_⟩
  · rcases toOption_cases (hfirst ht w r hw) with ⟨f, hread, hdecode⟩ | ⟨a, hread, hdecode⟩
    all_goals
      simp only [firstField, decodePair, if_pos, hread, hdecode]
      rfl
  · rcases toOption_cases (hsecond ht w r hw) with ⟨f, hread, hdecode⟩ | ⟨b, hread, hdecode⟩
    all_goals
      simp only [secondField, decodePair, if_neg hkeys, hread, hdecode]
      rfl

theorem isLawful_pair (hstart : shape.start = (none, none))
    (hfinish : ∀ state a, shape.finish state = .ok a →
      (optional = false → state.1.isSome = true) ∧ (optional' = false → state.2.isSome = true)) :
    shape.IsLawful (decodePair key first second) where
  start := by
    rw [hfields, hstart]
    simp [firstField, secondField]
  sets := by
    intro k state state' tree h hk
    rw [hfields] at hk ⊢
    simp only [List.map_cons, List.map_nil, firstField, secondField, List.mem_cons,
      List.not_mem_nil, or_false] at hk
    rcases hk with rfl | rfl
    · rw [decodePair, if_pos rfl] at h
      obtain ⟨a, -, rfl⟩ := Option.map_eq_some_iff.mp h
      simp [firstField, secondField, hkeys]
    · rw [decodePair, if_neg hkeys] at h
      obtain ⟨b, -, rfl⟩ := Option.map_eq_some_iff.mp h
      simp [firstField, secondField, hkeys.symm]
  finish := by
    intro state a h
    obtain ⟨hone, htwo⟩ := hfinish state a h
    rw [hfields]
    exact List.forall_mem_cons.mpr ⟨hone, List.forall_mem_singleton.mpr htwo⟩

theorem decodeMember_second (a : Option α) (tree : Tree) :
    shape.decodeMember (decodePair key first second) (a, none) (key', tree) =
      (second tree).map fun b => (a, some b) := by
  simp [Shape.decodeMember, hfields, firstField, secondField, decodePair, hkeys, hkeys.symm]

/-- Both members, in either order. -/
theorem decode_pair {members : List (String × Tree)} {t t' : Tree} {a : α} {b : β}
    (hstart : shape.start = (none, none)) (hmembers : members.Perm [(key, t), (key', t')])
    (ht : first t = some a) (ht' : second t' = some b) :
    shape.decode (decodePair key first second) (.object members) =
      (shape.finish (some a, some b)).toOption := by
  rw [Shape.decode, hstart]
  rcases List.perm_pair.mp hmembers with rfl | rfl
  · simp [decodeMember_first hfields, decodeMember_second hfields hkeys, ht, ht']
  · simp [decodeMember_first hfields, decodeMember_second hfields hkeys, ht, ht']

end Pairs

/-- The decoder of declarations. -/
def decodeProperty : Tree → Option Property :=
  propertyShape.decode (decodePair "name" decodeText decodeText)

/-- The decoder of rules. -/
def decodeRule : Tree → Option Rule :=
  ruleShape.decode (decodePair "selector" decodeText (decodeList decodeProperty))

/-- The decoder of sheets. -/
def decodeSheet : Tree → Option ManifestSheet :=
  sheetShape.decode (decodePair "output" decodeText (decodeList decodeRule))

/-- What the value of the member of a manifest does. -/
def decodeSheets (_ : String) (_ : Option (List ManifestSheet)) (tree : Tree) :
    Option (Option (List ManifestSheet)) :=
  (decodeList decodeSheet tree).map some

/-- The decoder of manifests. -/
def decode : Tree → Option Manifest := shape.decode decodeSheets

theorem decodes_property : Decodes propertyShape.record decodeProperty :=
  Shape.decodes_record
    (decodesFields_pair rfl (by decide) (decodes_text "a string") (decodes_text "a string"))

theorem decodes_rule : Decodes ruleShape.record decodeRule :=
  Shape.decodes_record
    (decodesFields_pair rfl (by decide) (decodes_text "a string") (decodes_list decodes_property))

theorem decodes_sheet : Decodes sheetShape.record decodeSheet :=
  Shape.decodes_record
    (decodesFields_pair rfl (by decide) (decodes_text "path string") (decodes_list decodes_rule))

theorem decodes_manifest : Decodes shape.record decode := by
  refine Shape.decodes_record (List.forall_mem_singleton.mpr fun state tree t ht w r hw => ?_)
  rcases toOption_cases (decodes_list decodes_sheet ht w r hw) with
    ⟨f, hread, hdecode⟩ | ⟨sheets, hread, hdecode⟩
  all_goals
    simp only [decodeSheets, hread, hdecode]
    rfl

/-- Whatever JSON a document is, what is read of it is what its value is decoded to. -/
theorem toOption_ofJson {tree : Tree} {document : String} (h : tree.IsDocument document) :
    (ofJson document).toOption = decode tree :=
  decodes_manifest.readDocument h

theorem isLawful_property :
    propertyShape.IsLawful (decodePair "name" decodeText decodeText) := by
  refine isLawful_pair rfl (by decide) rfl fun state p h => ?_
  rcases state with ⟨_ | name, _ | value⟩
  case some.some => exact ⟨fun _ => rfl, fun _ => rfl⟩
  all_goals cases h

theorem isLawful_rule :
    ruleShape.IsLawful (decodePair "selector" decodeText (decodeList decodeProperty)) := by
  refine isLawful_pair rfl (by decide) rfl fun state r h => ?_
  rcases state with ⟨_ | selector, properties⟩
  · cases h
  · exact ⟨fun _ => rfl, fun h => absurd h (by decide)⟩

theorem isLawful_sheet :
    sheetShape.IsLawful (decodePair "output" decodeText (decodeList decodeRule)) := by
  refine isLawful_pair rfl (by decide) rfl fun state s h => ?_
  rcases state with ⟨_ | output, rules⟩
  · cases h
  · exact ⟨fun _ => rfl, fun h => absurd h (by decide)⟩

theorem isLawful_manifest : shape.IsLawful decodeSheets where
  start := List.forall_mem_singleton.mpr rfl
  sets := by
    intro key state state' tree h hkey
    obtain ⟨sheets, -, rfl⟩ := Option.map_eq_some_iff.mp h
    obtain rfl : key = "sheets" := List.mem_singleton.mp hkey
    exact List.forall_mem_singleton.mpr (by simp)
  finish _ := List.forall_mem_singleton.mpr fun h => absurd h (by decide)

/-! ## Manifests as values -/

/-- The members for a list: one, or none if the list is empty. -/
inductive IsListMember (key : String) : List Tree → List (String × Tree) → Prop
  | given (items : List Tree) : IsListMember key items [(key, .list items)]
  | omitted : IsListMember key [] []

/-- The values of a declaration. -/
inductive IsPropertyTree (p : Property) : Tree → Prop
  | mk {members : List (String × Tree)}
    (hmembers : members.Perm [("name", .string p.name), ("value", .string p.value)]) :
    IsPropertyTree p (.object members)

/-- The values of a rule. -/
inductive IsRuleTree (r : Rule) : Tree → Prop
  | mk {members last : List (String × Tree)} {items : List Tree}
    (hitems : List.Forall₂ IsPropertyTree r.properties items)
    (hlast : IsListMember "properties" items last)
    (hmembers : members.Perm (("selector", .string r.selector) :: last)) :
    IsRuleTree r (.object members)

/-- The values of a sheet. -/
inductive IsSheetTree (s : ManifestSheet) : Tree → Prop
  | mk {members last : List (String × Tree)} {items : List Tree}
    (hitems : List.Forall₂ IsRuleTree s.rules items) (hlast : IsListMember "rules" items last)
    (hmembers : members.Perm (("output", .string s.output.text) :: last)) :
    IsSheetTree s (.object members)

/-- The values of a manifest. -/
inductive IsManifestTree (m : Manifest) : Tree → Prop
  | mk {members : List (String × Tree)} {items : List Tree}
    (hitems : List.Forall₂ IsSheetTree m.sheets items)
    (hmembers : IsListMember "sheets" items members) : IsManifestTree m (.object members)

theorem decodeList_of_forall₂ {α : Type} {IsTree : α → Tree → Prop} {f : Tree → Option α}
    (h : ∀ a tree, IsTree a tree → f tree = some a) {as : List α} {items : List Tree}
    (hitems : List.Forall₂ IsTree as items) : decodeList f (.list items) = some as := by
  rw [decodeList]
  induction hitems with
  | nil => rfl
  | cons ha _ ih => rw [List.mapM_cons, h _ _ ha, ih]; rfl

theorem decodeProperty_of_tree (p : Property) (tree : Tree) (h : IsPropertyTree p tree) :
    decodeProperty tree = some p := by
  obtain ⟨hmembers⟩ := h
  exact decode_pair rfl (by decide) rfl hmembers rfl rfl

theorem decodeRule_of_tree (r : Rule) (tree : Tree) (h : IsRuleTree r tree) :
    decodeRule tree = some r := by
  obtain ⟨hitems, hlast, hmembers⟩ := h
  cases hlast with
  | given items =>
    exact decode_pair rfl (by decide) rfl hmembers rfl
      (decodeList_of_forall₂ decodeProperty_of_tree hitems)
  | omitted =>
    obtain ⟨selector, properties⟩ := r
    cases hitems
    rw [List.perm_singleton.mp hmembers]
    exact decode_single rfl rfl rfl

theorem decodeSheet_of_tree (s : ManifestSheet) (tree : Tree) (h : IsSheetTree s tree) :
    decodeSheet tree = some s := by
  obtain ⟨hitems, hlast, hmembers⟩ := h
  cases hlast with
  | given items =>
    exact decode_pair rfl (by decide) rfl hmembers rfl
      (decodeList_of_forall₂ decodeRule_of_tree hitems)
  | omitted =>
    obtain ⟨output, rules⟩ := s
    cases hitems
    rw [List.perm_singleton.mp hmembers]
    exact decode_single rfl rfl rfl

theorem decode_of_tree (m : Manifest) (tree : Tree) (h : IsManifestTree m tree) :
    decode tree = some m := by
  obtain ⟨hitems, hmembers⟩ := h
  cases hmembers with
  | given items =>
    have hsheets := decodeList_of_forall₂ decodeSheet_of_tree hitems
    simp [decode, Shape.decode, Shape.decodeMember, shape, decodeSheets, hsheets, Except.toOption]
  | omitted =>
    obtain ⟨sheets⟩ := m
    cases hitems
    rfl

/-! ## Objects that are off -/

/-- The kinds of objects in a manifest. -/
inductive ObjectKind where
  | manifest
  | sheet
  | rule
  | property

namespace ObjectKind

/-- The keys of the members. -/
def keys : ObjectKind → List String
  | .manifest => ["sheets"]
  | .sheet => ["output", "rules"]
  | .rule => ["selector", "properties"]
  | .property => ["name", "value"]

/-- The keys of the members that cannot be left out. -/
def required : ObjectKind → List String
  | .manifest => []
  | .sheet => ["output"]
  | .rule => ["selector"]
  | .property => ["name", "value"]

/-- The member that is a list of objects, and their kind. -/
def content? : ObjectKind → Option (String × ObjectKind)
  | .manifest => some ("sheets", .sheet)
  | .sheet => some ("rules", .rule)
  | .rule => some ("properties", .property)
  | .property => none

end ObjectKind

/-- What can be wrong with the keys of an object. -/
inductive IsOff (kind : ObjectKind) (members : List (String × Tree)) : Prop
  | undeclared {m : String × Tree} (hm : m ∈ members) (hkey : m.1 ∉ kind.keys)
  | twice (h : ¬ (members.map (·.1)).Nodup)
  | missing {key : String} (hkey : key ∈ kind.required) (h : key ∉ members.map (·.1))

/-- Something is wrong with the keys of an object, or of one somewhere inside of it. -/
inductive OffSchema : ObjectKind → Tree → Prop
  | here {kind : ObjectKind} {members : List (String × Tree)} (h : IsOff kind members) :
    OffSchema kind (.object members)
  | inside {kind inner : ObjectKind} {members : List (String × Tree)} {key : String}
    {items : List Tree} {item : Tree} (hkind : kind.content? = some (key, inner))
    (hmember : (key, .list items) ∈ members) (hitem : item ∈ items) (h : OffSchema inner item) :
    OffSchema kind (.object members)

/-- Nothing is made of a value as an object of some kind. -/
def Refuses : ObjectKind → Tree → Prop
  | .manifest, tree => decode tree = none
  | .sheet, tree => decodeSheet tree = none
  | .rule, tree => decodeRule tree = none
  | .property, tree => decodeProperty tree = none

/-- A record of some kind refuses objects with wrong keys. -/
theorem IsOff.decode_eq_none {σ α : Type} {shape : Shape σ α}
    {value : String → σ → Tree → Option σ} {kind : ObjectKind} {members : List (String × Tree)}
    (h : IsOff kind members) (hlawful : shape.IsLawful value)
    (hkeys : shape.fields.map (·.key) = kind.keys)
    (hrequired : (shape.fields.filter (!·.optional)).map (·.key) = kind.required) :
    shape.decode value (.object members) = none := by
  refine Option.eq_none_iff_forall_ne_some.mpr fun a ha => ?_
  obtain ⟨hnodup, hdeclared, hpresent⟩ := hlawful.decode_object ha
  cases h with
  | undeclared hm hkey => exact hkey (hkeys ▸ hdeclared _ hm)
  | twice h => exact h hnodup
  | missing hkey h =>
    rw [← hrequired] at hkey
    obtain ⟨field, hfield, rfl⟩ := List.mem_map.mp hkey
    obtain ⟨hmem, hoptional⟩ := List.mem_filter.mp hfield
    exact h (hpresent field hmem (by simpa using hoptional))

theorem IsOff.refuses {kind : ObjectKind} {members : List (String × Tree)}
    (h : IsOff kind members) : Refuses kind (.object members) := by
  cases kind with
  | manifest => exact h.decode_eq_none isLawful_manifest rfl rfl
  | sheet => exact h.decode_eq_none isLawful_sheet rfl rfl
  | rule => exact h.decode_eq_none isLawful_rule rfl rfl
  | property => exact h.decode_eq_none isLawful_property rfl rfl

/-- A value is refused if an object in it is off. -/
theorem OffSchema.refuses {kind : ObjectKind} {tree : Tree} (h : OffSchema kind tree) :
    Refuses kind tree := by
  induction h with
  | here h => exact h.refuses
  | @inside kind inner members key items item hkind hmember hitem _ ih =>
    cases kind with
    | manifest =>
      cases hkind
      exact Shape.decode_eq_none_of_mem hmember fun state => by
        rw [decodeSheets, decodeList_eq_none hitem ih]; rfl
    | sheet =>
      cases hkind
      exact Shape.decode_eq_none_of_mem hmember fun state => by
        rw [decodePair, if_neg (show ¬ "rules" = "output" by decide),
          decodeList_eq_none hitem ih]; rfl
    | rule =>
      cases hkind
      exact Shape.decode_eq_none_of_mem hmember fun state => by
        rw [decodePair, if_neg (show ¬ "properties" = "selector" by decide),
          decodeList_eq_none hitem ih]; rfl
    | property => cases hkind

/-- However a manifest is written, it is read as it is; and no document is read in which an
object is off. -/
theorem parse_document {tree : Tree} {document : String} (hdocument : tree.IsDocument document) :
    (∀ m, IsManifestTree m tree → parse document = .ok m) ∧
      (OffSchema .manifest tree → ∃ e, parse document = .error (.manifest e)) := by
  have hread := toOption_ofJson hdocument
  rw [parse]
  cases hresult : ofJson document with
  | error e =>
    rw [hresult] at hread
    refine ⟨fun m hm => ?_, fun _ => ⟨e, rfl⟩⟩
    rw [decode_of_tree m tree hm] at hread
    cases hread
  | ok n =>
    rw [hresult] at hread
    refine ⟨fun m hm => ?_, fun hoff => ?_⟩
    · rw [decode_of_tree m tree hm] at hread
      cases hread
      rfl
    · have hnone : decode tree = none := hoff.refuses
      rw [hnone] at hread
      cases hread

/-- An escaped key, two surrogates, members out of order and one left out; and a key that is
there twice, with a value of another kind. -/
theorem parse_document_escapes :
    let document :=
      "\x7b\"sheets\":[ \x7b\"rules\":[\x7b\"selector\":\"\\uD83D\\ude00\"\x7d]," ++
        "\"\\u006futput\":\"a\\/b\"\x7d]\x7d\n"
    let off := "\x7b\"sheets\":[\x7b\"output\":\"a\",\"output\":null\x7d]\x7d"
    parse document = .ok ⟨[⟨⟨"a/b"⟩, [⟨"😀", []⟩]⟩]⟩ ∧ ∃ e, parse off = .error (.manifest e) := by
  intro document off
  have hblank : IsSpaces [' '] := isSpaces_singleton rfl
  have hcomma : Separates false [','] := .comma isSpaces_nil isSpaces_nil
  have hsheets := stringText_of_bare "sheets".toList (by decide)
  constructor
  · have hface := @CharText.pair '😀' "D83D".toList "de00".toList (by decide +kernel)
      ⟨rfl, rfl, by decide +kernel⟩ ⟨rfl, rfl, by decide +kernel⟩
    have hrule := Tree.Spelled.object (.item (.first isSpaces_nil)
      (.mk (stringText_of_bare "selector".toList (by decide)) isSpaces_nil isSpaces_nil
        (.string (s := "😀") (.cons hface .nil))) (.close isSpaces_nil))
    have hkey : StringText "output".toList _ := .cons (c := 'o') (.hex (u := "006f".toList)
      ⟨rfl, rfl, rfl⟩) (stringText_of_bare "utput".toList (by decide))
    have houtput : StringText "a/b".toList _ := .cons (c := 'a') (u := ['a'])
      (.plain (by decide) (by decide) (by decide)) (.cons (c := '/') (.short (e := '/') (by decide))
        (stringText_of_bare "b".toList (by decide)))
    have hsheet := Tree.Spelled.object (.item (.first isSpaces_nil)
      (.mk (stringText_of_bare "rules".toList (by decide)) isSpaces_nil isSpaces_nil
        (.list (.item (.first isSpaces_nil) hrule (.close isSpaces_nil))))
      (.item hcomma (.mk hkey isSpaces_nil isSpaces_nil (.string houtput)) (.close isSpaces_nil)))
    have hmanifest := Tree.Spelled.object (.item (.first isSpaces_nil)
      (.mk hsheets isSpaces_nil isSpaces_nil (.list (.item (.first hblank) hsheet
        (.close isSpaces_nil)))) (.close isSpaces_nil))
    have hdocument : Tree.IsDocument _ document :=
      ⟨[], _, ['\n'], isSpaces_nil, hmanifest, isSpaces_singleton rfl, by decide +kernel⟩
    exact (parse_document hdocument).1 _ (.mk (.cons (.mk (.cons (.mk .nil .omitted (.refl _))
      .nil) (.given _) (.swap _ _ _)) .nil) (.given _))
  · have hsheet := Tree.Spelled.object (.item (.first isSpaces_nil)
      (.mk (stringText_of_bare "output".toList (by decide)) isSpaces_nil isSpaces_nil
        (.string (stringText_of_bare "a".toList (by decide))))
      (.item hcomma (.mk (stringText_of_bare "output".toList (by decide)) isSpaces_nil isSpaces_nil
        .null) (.close isSpaces_nil)))
    have hmanifest := Tree.Spelled.object (.item (.first isSpaces_nil)
      (.mk hsheets isSpaces_nil isSpaces_nil (.list (.item (.first isSpaces_nil) hsheet
        (.close isSpaces_nil)))) (.close isSpaces_nil))
    have hdocument : Tree.IsDocument _ off :=
      ⟨[], _, [], isSpaces_nil, hmanifest, isSpaces_nil, by decide +kernel⟩
    exact (parse_document hdocument).2 (.inside rfl List.mem_cons_self List.mem_cons_self
      (.here (.twice (by decide))))

end Manifest
end StyleSheet
