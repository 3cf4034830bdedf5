import StyleSheet.Proofs.Json.Grammar

/-!
# Reading a text is decoding its value

The readers take a text as it comes and never build the value that it is a text of.  Here it is
shown that this makes no difference: for each reader there is a decoder, which says what becomes
of a value, and from every text of the value the reader gives just that (`Decodes`).  White
space, escapes and the spelling of keys are gone then, and with the decoder the rest is about
lists of members.

That the reader fails where the decoder does needs more than what it reads is right: when one
member of an object is read, the reader has to be at its end, also if the member turns out to be
of no use.  So `Decodes` says both at once, and there is one lemma for each way to make readers.

What a record insists on follows for all records alike (`Shape.IsLawful.decode_object`): every
key is one of its own, no key is there twice, and none is missing that has to be there.
-/

namespace StyleSheet
namespace Json

open Text

/-! ## Texts of strings -/

theorem standsFor_short {c e : Char} (h : (e, c) ∈ shortEscapes) : StandsFor ['\\', e] c := by
  refine standsFor_escape fun r => ?_
  simp only [shortEscapes, List.mem_cons, Prod.mk.injEq, List.not_mem_nil, or_false] at h
  rcases h with ⟨rfl, rfl⟩ | ⟨rfl, rfl⟩ | ⟨rfl, rfl⟩ | ⟨rfl, rfl⟩ | ⟨rfl, rfl⟩ | ⟨rfl, rfl⟩ |
    ⟨rfl, rfl⟩ | ⟨rfl, rfl⟩ <;> rfl

/-- The number of a character is not that of a surrogate. -/
theorem not_surrogate (c : Char) :
    isLowSurrogate c.toNat = false ∧ isHighSurrogate c.toNat = false := by
  have hvalid : c.toNat < 0xD800 ∨ 0xDFFF < c.toNat ∧ c.toNat < 0x110000 := c.valid
  simp only [isLowSurrogate, isHighSurrogate, Bool.and_eq_false_iff, decide_eq_false_iff_not]
  omega

/-- Two surrogates are the escape of one character. -/
theorem standsFor_pair {c : Char} {high low : List Char} (hc : 0x10000 ≤ c.toNat)
    (hhigh : HexText (0xD800 + (c.toNat - 0x10000) / 0x400) high)
    (hlow : HexText (0xDC00 + (c.toNat - 0x10000) % 0x400) low) :
    StandsFor ('\\' :: 'u' :: (high ++ '\\' :: 'u' :: low)) c := by
  have hvalid : c.toNat < 0xD800 ∨ 0xDFFF < c.toNat ∧ c.toNat < 0x110000 := c.valid
  have hhighLow : isLowSurrogate (0xD800 + (c.toNat - 0x10000) / 0x400) = false := by
    simp [isLowSurrogate]; omega
  have hhighHigh : isHighSurrogate (0xD800 + (c.toNat - 0x10000) / 0x400) = true := by
    simp [isHighSurrogate]; omega
  have hlowLow : isLowSurrogate (0xDC00 + (c.toNat - 0x10000) % 0x400) = true := by
    simp [isLowSurrogate]; omega
  have hchar : surrogatePair (0xD800 + (c.toNat - 0x10000) / 0x400)
      (0xDC00 + (c.toNat - 0x10000) % 0x400) = c := by
    have hnumber : (0xD800 + (c.toNat - 0x10000) / 0x400 - 0xD800) * 0x400 +
        (0xDC00 + (c.toNat - 0x10000) % 0x400 - 0xDC00) + 0x10000 = c.toNat := by omega
    rw [surrogatePair, hnumber, Char.ofNat_toNat]
  refine standsFor_escape fun r => ?_
  have hescape : unicodeEscape (high ++ ('\\' :: 'u' :: (low ++ r))) = .ok (c, 10) := by
    have hdrop : (high ++ ('\\' :: 'u' :: (low ++ r))).drop 4 = '\\' :: 'u' :: (low ++ r) := by
      rw [← hhigh.length, List.drop_left]
    simp only [unicodeEscape, hexEscape_append hhigh.length hhigh.digits, hdrop, hhigh.number,
      hhighLow, hhighHigh, hexEscape_append hlow.length hlow.digits, hlow.number, hlowLow, hchar,
      if_true, Bool.false_eq_true, if_false]
  simp [readEscape, hescape, hhigh.length, hlow.length]

/-- Every text of a character is read as that character. -/
theorem standsFor_charText {c : Char} {u : List Char} (h : CharText c u) : StandsFor u c := by
  cases h with
  | plain hquote hbackslash hcontrol => exact standsFor_self hquote hbackslash hcontrol
  | short h => exact standsFor_short h
  | hex h =>
    have hchar := standsFor_hex h.length h.digits
    rw [h.number, Char.ofNat_toNat] at hchar
    exact hchar (not_surrogate c).1 (not_surrogate c).2
  | pair hc hhigh hlow => exact standsFor_pair hc hhigh hlow

theorem spellsString_of_stringText {s u : List Char} (h : StringText s u) : SpellsString u s := by
  induction h with
  | nil => exact spellsString_nil
  | cons hc _ ih => exact (standsFor_charText hc).spellsString_append ih

/-- Whether a character can stand in a string as it is. -/
def isBareChar (c : Char) : Bool := c != '"' && c != '\\' && 0x20 ≤ c.toNat

/-- A string in which nothing has to be escaped can be written as it is. -/
theorem stringText_of_bare (s : List Char) (h : s.all isBareChar = true) :
    StringText s (s ++ ['"']) := by
  induction s with
  | nil => exact .nil
  | cons c s ih =>
    rw [List.all_cons, Bool.and_eq_true] at h
    have hc := h.1
    simp only [isBareChar, Bool.and_eq_true, bne_iff_ne, decide_eq_true_eq] at hc
    exact StringText.cons (u := [c]) (.plain hc.1.1 hc.1.2 hc.2) (ih h.2)

/-! ## How values start -/

namespace Tree

/-- The first characters of the texts of a value. -/
def Opens : Tree → Char → Prop
  | .null, c => c = 'n'
  | .boolean _, c => c = 't' ∨ c = 'f'
  | .number _, c => c = '-' ∨ c.isDigit = true
  | .string _, c => c = '"'
  | .list _, c => c = '['
  | .object _, c => c = '\x7b'

theorem Spelled.opens {tree : Tree} {t : List Char} (h : tree.Spelled t) :
    ∃ c u, t = c :: u ∧ tree.Opens c := by
  cases h with
  | null => exact ⟨_, _, rfl, rfl⟩
  | true => exact ⟨_, _, rfl, .inl rfl⟩
  | false => exact ⟨_, _, rfl, .inr rfl⟩
  | number h =>
    obtain ⟨rfl | rfl, hwhole, -, -⟩ := h
    · cases hwhole with
      | zero => exact ⟨_, _, rfl, .inr rfl⟩
      | digits hc => exact ⟨_, _, rfl, .inr hc⟩
    · exact ⟨_, _, rfl, .inl rfl⟩
  | string h => exact ⟨_, _, rfl, rfl⟩
  | list h => exact ⟨_, _, rfl, rfl⟩
  | object h => exact ⟨_, _, rfl, rfl⟩

/-- No value starts with white space or with what closes a list. -/
theorem Opens.not_space {tree : Tree} {c : Char} (h : tree.Opens c) :
    isSpace c = false ∧ c ≠ ']' := by
  have hdigit : c.isDigit = true → isSpace c = false ∧ c ≠ ']' := fun hc =>
    of_ascii (P := fun c => c.isDigit = true → isSpace c = false ∧ c ≠ ']') (by decide)
      (toNat_lt_of_isDigit hc) hc
  cases tree with
  | number text =>
    rcases h with rfl | hc
    · decide
    · exact hdigit hc
  | boolean value => rcases h with rfl | rfl <;> decide
  | _ => cases h; decide

end Tree

/-! ## Decoders -/

section Decoders

variable {α : Type}

/-- From every text of a value the reader gives what the decoder makes of the value, and leaves
what comes after the text; it fails if the decoder makes nothing of it. -/
def Decodes (read : Reader α) (decode : Tree → Option α) : Prop :=
  ∀ ⦃tree : Tree⦄ ⦃t : List Char⦄, tree.Spelled t → ∀ w r, IsSpaces w →
    (read (w ++ (t ++ r))).toOption = (decode tree).map (·, r)

/-- There is a fault and nothing is decoded, or what is read is decoded. -/
theorem toOption_cases {read : Except Fault (α × List Char)} {o : Option α} {r : List Char}
    (h : read.toOption = o.map (·, r)) :
    (∃ f, read = .error f ∧ o = none) ∨ ∃ a, read = .ok (a, r) ∧ o = some a := by
  cases read with
  | error f => exact .inl ⟨f, rfl, Option.map_eq_none_iff.mp h.symm⟩
  | ok next =>
    obtain ⟨a, ha, rfl⟩ := Option.map_eq_some_iff.mp h.symm
    exact .inr ⟨a, rfl, ha⟩

/-- What becomes of the value of a document. -/
theorem Decodes.readDocument {read : Reader α} {decode : Tree → Option α}
    (h : Decodes read decode) {tree : Tree} {document : String}
    (hdocument : tree.IsDocument document) :
    (readDocument read document).toOption = decode tree := by
  obtain ⟨w, t, w', hw, ht, hw', htext⟩ := hdocument
  rw [Json.readDocument, htext]
  rcases toOption_cases (h ht w w' hw) with ⟨f, hread, hdecode⟩ | ⟨a, hread, hdecode⟩
  · simp only [hread, hdecode]
    rfl
  · simp only [hread, hdecode, skipSpace_of_isSpaces hw']
    rfl

/-- The decoder of strings. -/
def decodeText : Tree → Option String
  | .string s => some s
  | _ => none

theorem decodes_text (expected : String) : Decodes (text expected) decodeText := by
  intro tree t ht w r hw
  obtain ⟨c, u, rfl, hc⟩ := ht.opens
  have hskip : skipSpace (w ++ (c :: u ++ r)) = c :: (u ++ r) :=
    skipSpace_append_cons hw hc.not_space.1 _
  cases tree with
  | string s =>
    cases ht with
    | string hs =>
      have hread := (spells_text (spellsString_of_stringText hs) expected).reads w r hw
      rw [hread, String.ofList_toList]
      rfl
  | _ =>
    have hquote : c ≠ '"' := by
      rintro rfl
      revert hc
      simp [Tree.Opens]
    rw [text, hskip]
    split
    · next heq => exact absurd (List.cons.inj heq).1 hquote
    · rfl

/-! ## Lists -/

variable {item : Reader α} {decode : Tree → Option α}

/-- The decoder of lists. -/
def decodeList (decode : Tree → Option α) : Tree → Option (List α)
  | .list items => items.mapM decode
  | _ => none

/-- The next element is read, and then those after it. -/
theorem toOption_elements {first : Bool} {w t : List Char} {tree : Tree} (hw : Separates first w)
    (ht : tree.Spelled t) (fuel : Nat) (s : List Char) :
    (elements item (fuel + 1) first (w ++ (t ++ s))).toOption =
      (item (t ++ s)).toOption.bind fun next =>
        (elements item fuel false next.2).toOption.map fun tail =>
          (next.1 :: tail.1, tail.2) := by
  obtain ⟨c, u, rfl, hc⟩ := ht.opens
  simp only [elements, List.cons_append, nextElement_separates hw hc.not_space.1 hc.not_space.2]
  cases item (c :: (u ++ s)) with
  | error f => rfl
  | ok next =>
    obtain ⟨a, s⟩ := next
    dsimp only [Except.toOption, Option.bind_some]
    cases elements item fuel false s <;> rfl

theorem elements_decoded (h : Decodes item decode) {first : Bool} {items : List Tree}
    {u : List Char} (hu : ItemsText ']' Tree.Spelled first items u) (r : List Char) :
    ∀ fuel, u.length ≤ fuel →
      (elements item fuel first (u ++ r)).toOption = (items.mapM decode).map (·, r) := by
  induction hu with
  | @close first w hw =>
    intro fuel hfuel
    obtain ⟨fuel, rfl⟩ : ∃ n, fuel = n + 1 :=
      Nat.exists_eq_add_one.mpr (by simp at hfuel; omega)
    rw [List.append_assoc, List.singleton_append, elements, nextElement_close hw]
    rfl
  | @item first w t u tree items hw ht hu ih =>
    intro fuel hfuel
    have hpos : 0 < t.length := by
      obtain ⟨c, s, rfl, -⟩ := ht.opens
      exact Nat.succ_pos _
    simp only [List.length_append] at hfuel
    obtain ⟨fuel, rfl⟩ : ∃ n, fuel = n + 1 := Nat.exists_eq_add_one.mpr (by omega)
    have hitem : (item (t ++ (u ++ r))).toOption = (decode tree).map (·, u ++ r) :=
      h ht [] (u ++ r) isSpaces_nil
    rw [List.append_assoc, List.append_assoc, toOption_elements hw ht, hitem, List.mapM_cons]
    cases decode tree with
    | none => rfl
    | some a =>
      dsimp only [Option.map_some, Option.bind_some]
      rw [ih fuel (by omega)]
      cases items.mapM decode <;> rfl

/-- A list with an element of which nothing is made. -/
theorem decodeList_eq_none {items : List Tree} {tree : Tree} (hmem : tree ∈ items)
    (h : decode tree = none) : decodeList decode (.list items) = none := by
  obtain ⟨before, after, rfl⟩ := List.append_of_mem hmem
  simp [decodeList, h]

theorem decodes_list (h : Decodes item decode) : Decodes (list item) (decodeList decode) := by
  intro tree t ht w r hw
  obtain ⟨c, u, rfl, hc⟩ := ht.opens
  have hskip : skipSpace (w ++ (c :: u ++ r)) = c :: (u ++ r) :=
    skipSpace_append_cons hw hc.not_space.1 _
  cases tree with
  | list items =>
    cases ht with
    | list hu =>
      rw [list, hskip]
      exact elements_decoded h hu r _ (by simp; omega)
  | _ =>
    have hbracket : c ≠ '[' := by
      rintro rfl
      revert hc
      simp [Tree.Opens]
    rw [list, hskip]
    split
    · next heq => exact absurd (List.cons.inj heq).1 hbracket
    · rfl

end Decoders

/-! ## Records -/

namespace Shape

variable {σ α : Type} {shape : Shape σ α} {value : String → σ → Tree → Option σ}

/-- One member takes the state to the next one; `value` says what its value does. -/
def decodeMember (shape : Shape σ α) (value : String → σ → Tree → Option σ) (state : σ)
    (member : String × Tree) : Option σ :=
  match shape.fields.find? (·.key == member.1) with
  | none => none
  | some field => if field.isSet state then none else value member.1 state member.2

/-- The decoder of a record that is spelled as a list. -/
def decodePositional (value : String → σ → Tree → Option σ) :
    List (RecordField σ) → σ → List Tree → Option σ
  | fields, state, [] => if fields.all (·.optional) then some state else none
  | [], _, _ :: _ => none
  | field :: fields, state, tree :: trees =>
    (value field.key state tree).bind fun state => decodePositional value fields state trees

/-- The decoder of records. -/
def decode (shape : Shape σ α) (value : String → σ → Tree → Option σ) : Tree → Option α
  | .object members =>
    (members.foldlM (shape.decodeMember value) shape.start).bind fun state =>
      (shape.finish state).toOption
  | .list items =>
    (decodePositional value shape.fields shape.start items).bind fun state =>
      (shape.finish state).toOption
  | _ => none

/-- The values of the members are decoded. -/
def DecodesFields (shape : Shape σ α) (value : String → σ → Tree → Option σ) : Prop :=
  ∀ field ∈ shape.fields, ∀ state, Decodes (field.read state) (value field.key state)

theorem toOption_member (h : shape.DecodesFields value) {tree : Tree} {w w' v : List Char}
    (hw : IsSpaces w) (hw' : IsSpaces w') (hv : tree.Spelled v) (state : σ) (key : String)
    (r : List Char) :
    (shape.member state key (w ++ ':' :: (w' ++ (v ++ r)))).toOption =
      (shape.decodeMember value state (key, tree)).map (·, r) := by
  rw [member, decodeMember]
  cases hfield : shape.fields.find? (·.key == key) with
  | none => rfl
  | some field =>
    have hfound := List.find?_some hfield
    have hkey : field.key = key := eq_of_beq hfound
    have hread := h field (List.mem_of_find?_eq_some hfield) state hv w' r hw'
    rw [hkey] at hread
    cases hset : field.isSet state with
    | true => simp [hset, Except.toOption]
    | false => simpa [hset, afterColon_append hw] using hread

/-- The next member is read, and then those after it. -/
theorem toOption_members (h : shape.DecodesFields value) {first : Bool} {w t : List Char}
    {m : String × Tree} (hw : Separates first w) (ht : MemberText Tree.Spelled m t) (fuel : Nat)
    (state : σ) (s : List Char) :
    (shape.members (fuel + 1) first state (w ++ (t ++ s))).toOption =
      (shape.decodeMember value state m).bind fun state =>
        (shape.members fuel false state s).toOption := by
  obtain @⟨key, tree, k, u, u', v, hkey, hu, hu', hv⟩ := ht
  have hread := spellsString_of_stringText hkey (u ++ ':' :: (u' ++ (v ++ s)))
  have htext : '"' :: (k ++ (u ++ ':' :: (u' ++ v))) ++ s =
      '"' :: (k ++ (u ++ ':' :: (u' ++ (v ++ s)))) := by simp
  rw [htext]
  simp only [members, nextMember_separates hw, hread, String.ofList_toList]
  rcases toOption_cases (toOption_member h hu hu' hv state key s) with
    ⟨f, hmember, hdecode⟩ | ⟨state', hmember, hdecode⟩
  · simp only [hmember, hdecode]
    rfl
  · simp only [hmember, hdecode, Option.bind_some]

theorem members_decoded (h : shape.DecodesFields value) {first : Bool}
    {members : List (String × Tree)} {u : List Char}
    (hu : ItemsText '}' (MemberText Tree.Spelled) first members u) (r : List Char) :
    ∀ fuel state, u.length ≤ fuel →
      (shape.members fuel first state (u ++ r)).toOption =
        (members.foldlM (shape.decodeMember value) state).map (·, r) := by
  induction hu with
  | @close first w hw =>
    intro fuel state hfuel
    obtain ⟨fuel, rfl⟩ : ∃ n, fuel = n + 1 :=
      Nat.exists_eq_add_one.mpr (by simp at hfuel; omega)
    rw [List.append_assoc, List.singleton_append, Shape.members, nextMember_close hw]
    rfl
  | @item first w t u m members hw ht hu ih =>
    intro fuel state hfuel
    have hpos : 0 < t.length := by
      cases ht
      exact Nat.succ_pos _
    simp only [List.length_append] at hfuel
    obtain ⟨fuel, rfl⟩ : ∃ n, fuel = n + 1 := Nat.exists_eq_add_one.mpr (by omega)
    rw [List.append_assoc, List.append_assoc, toOption_members h hw ht, List.foldlM_cons]
    cases shape.decodeMember value state m with
    | none => rfl
    | some state' => exact ih fuel state' (by omega)

/-- After the last member of a record in a list there is no other element. -/
theorem endList_item {first : Bool} {w t : List Char} {tree : Tree} (hw : Separates first w)
    (ht : tree.Spelled t) (s : List Char) : (endList (w ++ (t ++ s))).toOption = none := by
  obtain ⟨c, u, rfl, hc⟩ := ht.opens
  obtain ⟨hspace, hclose⟩ := hc.not_space
  cases hw with
  | first hw =>
    have hcomma : c ≠ ',' := by
      rintro rfl
      revert hc
      cases tree <;> simp [Tree.Opens]
    rw [endList, List.cons_append, skipSpace_append_cons hw hspace]
    simp [hcomma, hclose, Except.toOption]
  | comma hw hw' =>
    rw [endList, List.append_assoc, List.cons_append,
      skipSpace_append_cons hw (by decide : isSpace ',' = false)]
    simp [skipSpace_append_cons hw' hspace, hclose, Except.toOption]

theorem isNone_findIdx?_optional (fields : List (RecordField σ)) :
    (fields.findIdx? (!·.optional)).isNone = fields.all (·.optional) := by
  rw [Bool.eq_iff_iff]
  simp

/-- A list that ends where a field is awaited: then all that are left have to be optional. -/
theorem positional_close {w : List Char} (hw : IsSpaces w) (fields : List (RecordField σ))
    (index : Nat) (first : Bool) (state : σ) (r : List Char) :
    (shape.positional fields index first state (w ++ ']' :: r)).toOption =
      (decodePositional value fields state []).map (·, r) := by
  cases fields with
  | nil =>
    simp [positional, endList, skipSpace_append_cons hw (by decide : isSpace ']' = false),
      decodePositional, Except.toOption]
  | cons field fields =>
    have hall := isNone_findIdx?_optional (field :: fields)
    rw [positional, nextElement_close hw, decodePositional, ← hall]
    cases (field :: fields).findIdx? (!·.optional) <;> rfl

theorem positional_decoded {fields : List (RecordField σ)}
    (h : ∀ field ∈ fields, ∀ state, Decodes (field.read state) (value field.key state))
    {first : Bool} {items : List Tree} {u : List Char}
    (hu : ItemsText ']' Tree.Spelled first items u) (index : Nat) (state : σ) (r : List Char) :
    (shape.positional fields index first state (u ++ r)).toOption =
      (decodePositional value fields state items).map (·, r) := by
  induction hu generalizing fields index state with
  | @close first w hw =>
    rw [List.append_assoc, List.singleton_append]
    exact positional_close hw fields index first state r
  | @item first w t u tree items hw ht hu ih =>
    rw [List.append_assoc, List.append_assoc]
    cases fields with
    | nil =>
      have hend := endList_item hw ht (u ++ r)
      rw [positional, decodePositional]
      cases hresult : endList (w ++ (t ++ (u ++ r))) with
      | error f => rfl
      | ok rest =>
        rw [hresult] at hend
        cases hend
    | cons field fields =>
      obtain ⟨hfield, hfields⟩ := List.forall_mem_cons.mp h
      have hread : (field.read state (t ++ (u ++ r))).toOption =
          (value field.key state tree).map (·, u ++ r) :=
        hfield state ht [] (u ++ r) isSpaces_nil
      obtain ⟨c, t, rfl, hc⟩ := ht.opens
      rw [List.cons_append] at hread
      simp only [positional, decodePositional, List.cons_append,
        nextElement_separates hw hc.not_space.1 hc.not_space.2]
      rcases toOption_cases hread with ⟨f, hresult, hdecode⟩ | ⟨state', hresult, hdecode⟩
      · simp only [hresult, hdecode]
        rfl
      · simp only [hresult, hdecode, Option.bind_some]
        exact ih hfields (index + 1) state'

theorem toOption_complete (read : Except Fault (σ × List Char)) {o : Option σ} {r : List Char}
    (h : read.toOption = o.map (·, r)) :
    (shape.complete read).toOption =
      (o.bind fun state => (shape.finish state).toOption).map (·, r) := by
  rcases toOption_cases h with ⟨f, rfl, rfl⟩ | ⟨state, rfl, rfl⟩
  · rfl
  · simp only [complete, Option.bind_some]
    cases shape.finish state <;> rfl

theorem decodes_record (h : shape.DecodesFields value) :
    Decodes shape.record (shape.decode value) := by
  intro tree t ht w r hw
  obtain ⟨c, u, rfl, hc⟩ := ht.opens
  have hskip : skipSpace (w ++ (c :: u ++ r)) = c :: (u ++ r) :=
    skipSpace_append_cons hw hc.not_space.1 _
  cases tree with
  | object members =>
    cases ht with
    | object hu =>
      rw [record, hskip]
      exact toOption_complete _ (members_decoded h hu r _ _ (by simp; omega))
  | list items =>
    cases ht with
    | list hu =>
      rw [record, hskip]
      exact toOption_complete _ (positional_decoded h hu 0 _ r)
  | _ =>
    have hopens : c ≠ '\x7b' ∧ c ≠ '[' := by
      constructor <;> rintro rfl <;> revert hc <;> simp [Tree.Opens]
    rw [record, hskip]
    split
    · next heq => exact absurd (List.cons.inj heq).1 hopens.1
    · next heq => exact absurd (List.cons.inj heq).1 hopens.2
    · rfl

/-! ## What a record insists on -/

/-- A record keeps account of its members: none is set at the start, the value of a member sets
that one and no other, and the value of the record is there only when all members are set that
cannot be left out. -/
structure IsLawful (shape : Shape σ α) (value : String → σ → Tree → Option σ) : Prop where
  start : ∀ field ∈ shape.fields, field.isSet shape.start = false
  sets : ∀ {key : String} {state state' : σ} {tree : Tree}, value key state tree = some state' →
    key ∈ shape.fields.map (·.key) → ∀ field ∈ shape.fields,
      field.isSet state' = (field.isSet state || field.key == key)
  finish : ∀ {state : σ} {a : α}, shape.finish state = .ok a → ∀ field ∈ shape.fields,
    field.optional = false → field.isSet state = true

/-- What is read of one member. -/
theorem of_decodeMember {state state' : σ} {m : String × Tree}
    (h : shape.decodeMember value state m = some state') :
    ∃ field ∈ shape.fields, field.key = m.1 ∧ field.isSet state = false ∧
      value m.1 state m.2 = some state' := by
  rw [decodeMember] at h
  cases hfield : shape.fields.find? (·.key == m.1) with
  | none =>
    rw [hfield] at h
    cases h
  | some field =>
    have hfound := List.find?_some hfield
    rw [hfield] at h
    refine ⟨field, List.mem_of_find?_eq_some hfield, eq_of_beq hfound, ?_⟩
    cases hset : field.isSet state with
    | true => simp [hset] at h
    | false => exact ⟨rfl, by simpa [hset] using h⟩

/-- An object with a member whose value is of no use. -/
theorem decode_eq_none_of_mem {members : List (String × Tree)} {m : String × Tree}
    (hmem : m ∈ members) (h : ∀ state, value m.1 state m.2 = none) :
    shape.decode value (.object members) = none := by
  have hmember : ∀ state, shape.decodeMember value state m = none := fun state => by
    refine Option.eq_none_iff_forall_ne_some.mpr fun state' hstate' => ?_
    obtain ⟨field, -, -, -, hvalue⟩ := of_decodeMember hstate'
    rw [h state] at hvalue
    cases hvalue
  obtain ⟨before, after, rfl⟩ := List.append_of_mem hmem
  simp [decode, hmember]

/-- After the members, those are set that were set or are among them; and none of them was set
before, or is there twice. -/
theorem IsLawful.decodeMembers (h : shape.IsLawful value) {members : List (String × Tree)}
    {state last : σ} (hlast : members.foldlM (shape.decodeMember value) state = some last) :
    (members.map (·.1)).Nodup ∧
      (∀ m ∈ members, ∃ field ∈ shape.fields, field.key = m.1 ∧ field.isSet state = false) ∧
        ∀ field ∈ shape.fields,
          field.isSet last = (field.isSet state || (members.map (·.1)).contains field.key) := by
  induction members generalizing state with
  | nil =>
    cases hlast
    simp
  | cons m members ih =>
    rw [List.foldlM_cons] at hlast
    obtain ⟨state', hmember, hrest⟩ := Option.bind_eq_some_iff.mp hlast
    obtain ⟨field, hfield, hkey, hunset, hvalue⟩ := of_decodeMember hmember
    obtain ⟨hnodup, hunsets, hsets⟩ := ih hrest
    have hstep := h.sets hvalue (hkey ▸ List.mem_map_of_mem hfield)
    refine ⟨?_, List.forall_mem_cons.mpr ⟨⟨field, hfield, hkey, hunset⟩, fun m' hm' => ?_⟩,
      fun other hother => ?_⟩
    · refine List.nodup_cons.mpr ⟨fun hmem => ?_, hnodup⟩
      obtain ⟨m', hm', heq⟩ := List.mem_map.mp hmem
      obtain ⟨other, hother, hotherKey, hotherUnset⟩ := hunsets m' hm'
      -- a later member with this key would find it set
      rw [hstep other hother, hotherKey, heq, beq_self_eq_true, Bool.or_true] at hotherUnset
      cases hotherUnset
    · obtain ⟨other, hother, hotherKey, hotherUnset⟩ := hunsets m' hm'
      rw [hstep other hother, Bool.or_eq_false_iff] at hotherUnset
      exact ⟨other, hother, hotherKey, hotherUnset.1⟩
    · rw [hsets other hother, hstep other hother, List.map_cons, List.contains_cons, Bool.or_assoc]

/-- Of an object a record is made only if its keys are keys of the record, none is there twice,
and all are there that cannot be left out. -/
theorem IsLawful.decode_object (h : shape.IsLawful value) {members : List (String × Tree)} {a : α}
    (ha : shape.decode value (.object members) = some a) :
    (members.map (·.1)).Nodup ∧ (∀ m ∈ members, m.1 ∈ shape.fields.map (·.key)) ∧
      ∀ field ∈ shape.fields, field.optional = false → field.key ∈ members.map (·.1) := by
  obtain ⟨last, hlast, hfinish⟩ := Option.bind_eq_some_iff.mp ha
  obtain ⟨hnodup, hunsets, hsets⟩ := h.decodeMembers hlast
  refine ⟨hnodup, fun m hm => ?_, fun field hfield hoptional => ?_⟩
  · obtain ⟨field, hfield, hkey, -⟩ := hunsets m hm
    exact hkey ▸ List.mem_map_of_mem hfield
  · cases hresult : shape.finish last with
    | error key =>
      rw [hresult] at hfinish
      cases hfinish
    | ok b =>
      have hset := hsets field hfield
      rw [h.finish hresult field hfield hoptional, h.start field hfield, Bool.false_or] at hset
      exact List.contains_iff_mem.mp hset.symm

end Shape
end Json
end StyleSheet
