import StyleSheet.Style

/-!
# A builder as a log of calls

A builder keeps one declaration for each call, in the order of the calls
(`Builder.records_setAll`).  What a call declares depends on nothing but the call, so it is the
same on a new builder, and no later call takes it back or changes it.

The declaration can be told from the name of the call and its arguments, by rules that do not
go through the properties one by one.  Dashes take the place of underscores in the name, and
the endings by which the calls for one property differ are dropped; only the properties of the
engine have names of their own (`Setting.nameOf`).  The value is the arguments in order, with
one blank between two of them, and a unit after each number (`Setting.unitOf`).
-/

namespace StyleSheet
namespace Setting

/-! ## Names -/

/-- The endings of calls that take several values for a property, or take them as numbers. -/
def overloads : List (List Char) := [['2'], ['4'], ['_', 'p', 'x']]

/-- The name of a call without such an ending. -/
def stem (call : List Char) : List Char :=
  match overloads.find? (·.isSuffixOf call) with
  | some ending => call.take (call.length - ending.length)
  | none => call

/-- Calls for properties of the engine, with the names of these. -/
def engineNames : List (String × String) :=
  [("font", "-unity-font-definition"),
    ("font_definition", "-unity-font-definition"),
    ("font_style_and_weight", "-unity-font-style"),
    ("text_align", "-unity-text-align"),
    ("background_image_tint_color", "-unity-background-image-tint-color"),
    ("background_image_tint_hex", "-unity-background-image-tint-color"),
    ("background_scale_mode", "-unity-background-scale-mode")]

/-- The name of the property that a call sets. -/
def nameOf (call : String) : String :=
  match engineNames.lookup call with
  | some name => name
  | none => String.ofList ((stem call.toList).map fun c => if c = '_' then '-' else c)

/-- The name of the declaration by the rule: that of the property, unless the call is given a
name. -/
def declaredName : Setting → String
  | .custom name _ => name
  | s => nameOf s.call

/-! ## Values -/

/-- An argument of a call that goes into the value. -/
inductive Argument where
  | number (x : Single)
  | length (l : Length)
  | color (c : Color)
  | keyword (word : String)
  /-- A font, or none. -/
  | font (f : Option Font)
  /-- Text that is taken as it is. -/
  | text (t : String)

/-- An argument as it is written, numbers with a unit. -/
def Argument.written (unit : String) : Argument → String
  | .number x => x.text ++ unit
  | .length l => l.text
  | .color c => c.text
  | .keyword word => word
  | .font (some f) => f.text
  | .font none => "none"
  | .text t => t

/-- Names that calls for distances start with. -/
def distances : List String := ["padding", "margin", "border"]

/-- Further calls for distances. -/
def furtherDistances : List String := ["font_size", "letter_spacing", "background_size_px"]

/-- The unit of the numbers that a call takes. -/
def unitOf (call : String) : String :=
  if distances.any (·.toList.isPrefixOf call.toList) || furtherDistances.contains call then "px"
  else if call = "rotate" then "deg"
  else ""

/-- The arguments of a call that go into the value, in order. -/
def arguments : Setting → List Argument
  | .length _ l => [.length l]
  | .number _ x => [.number x]
  | .pixels _ x => [.number x]
  | .pixelPair _ x y => [.number x, .number y]
  | .pixelQuad _ x y z w => [.number x, .number y, .number z, .number w]
  | .color _ c => [.color c]
  | .text _ t => [.text t]
  | .flexDirection k => [.keyword (Keyword.text k)]
  | .flexWrap k => [.keyword (Keyword.text k)]
  | .alignItems k => [.keyword (Keyword.text k)]
  | .alignSelf k => [.keyword (Keyword.text k)]
  | .alignContent k => [.keyword (Keyword.text k)]
  | .justifyContent k => [.keyword (Keyword.text k)]
  | .position k => [.keyword (Keyword.text k)]
  | .display k => [.keyword (Keyword.text k)]
  | .visibility k => [.keyword (Keyword.text k)]
  | .overflow k => [.keyword (Keyword.text k)]
  | .textOverflow k => [.keyword (Keyword.text k)]
  | .whiteSpace k => [.keyword (Keyword.text k)]
  | .fontStyleAndWeight k => [.keyword (Keyword.text k)]
  | .textAlign k => [.keyword (Keyword.text k)]
  | .backgroundPosition h v => [.keyword (Keyword.text h), .keyword (Keyword.text v)]
  | .backgroundRepeat h v => [.keyword (Keyword.text h), .keyword (Keyword.text v)]
  | .backgroundSize w h => [.length w, .length h]
  | .rotate x => [.number x]
  | .font f => [.font f]
  | .custom _ v => [.text v]

/-- The value of the declaration by the rule. -/
def declaredValue (s : Setting) : String :=
  " ".intercalate (s.arguments.map (Argument.written (unitOf s.call)))

/-- The declaration of a call by the rules for names and values. -/
def record (s : Setting) : Property := ⟨s.declaredName, s.declaredValue⟩

/-! ## The rules hold -/

theorem name_eq_declaredName (s : Setting) : s.name = s.declaredName := by
  cases s with
  | length target =>
    show target.name = nameOf target.call
    cases target <;> decide +kernel
  | number target =>
    show target.name = nameOf target.call
    cases target <;> decide +kernel
  | pixels target =>
    show target.name = nameOf target.call
    cases target <;> decide +kernel
  | pixelPair target =>
    show target.name = nameOf target.call
    cases target <;> decide +kernel
  | pixelQuad target =>
    show target.name = nameOf target.call
    cases target <;> decide +kernel
  | color target =>
    show target.name = nameOf target.call
    cases target <;> decide +kernel
  | text target =>
    show target.name = nameOf target.call
    cases target <;> decide +kernel
  | custom name => rfl
  | _ =>
    simp only [name, declaredName, call]
    decide +kernel

theorem value_eq_declaredValue (s : Setting) : s.value = s.declaredValue := by
  cases s with
  | number target x =>
    have hunit : unitOf target.call = "" := by cases target <;> decide +kernel
    simp [value, declaredValue, arguments, call, Argument.written, hunit]
  | pixels target x =>
    have hunit : unitOf target.call = "px" := by cases target <;> decide +kernel
    simp [value, declaredValue, arguments, call, Argument.written, hunit, pixelText]
  | pixelPair target x y =>
    have hunit : unitOf target.call = "px" := by cases target <;> decide +kernel
    simp [value, declaredValue, arguments, call, Argument.written, hunit, pixelText]
  | pixelQuad target x y z w =>
    have hunit : unitOf target.call = "px" := by cases target <;> decide +kernel
    simp [value, declaredValue, arguments, call, Argument.written, hunit, pixelText,
      String.append_assoc]
  | rotate x =>
    have hunit : unitOf "rotate" = "deg" := by decide +kernel
    simp [value, declaredValue, arguments, call, Argument.written, hunit]
  | font f => cases f <;> simp [value, declaredValue, arguments, call, Argument.written]
  | _ => simp [value, declaredValue, arguments, call, Argument.written]

theorem property_eq_record (s : Setting) : s.property = s.record := by
  rw [property, record, name_eq_declaredName, value_eq_declaredValue]

end Setting

namespace Builder

/-! ## Runs of calls -/

theorem records_setAll (settings : List Setting) :
    (empty.setAll settings).properties = settings.map Setting.record := by
  rw [properties_setAll, properties_empty, List.nil_append]
  exact List.map_congr_left fun s _ => s.property_eq_record

/-- A run of calls leaves one declaration for each of them, in their order.  It is the one
that the call leaves on a new builder, with the name and the value of the rules, and calls
after the run add to the end only.  A style has the declarations of its configuration; if that
fails, there is no style, whatever was declared before the failure. -/
theorem setAll_logs {ε : Type} (settings : List Setting) :
    (empty.setAll settings).size = settings.length ∧
      (∀ (i : Nat) (s : Setting), settings[i]? = some s →
        (empty.setAll settings).properties[i]? = some s.record ∧
          (empty.set s).properties = [s.record]) ∧
      (∀ later, (empty.setAll settings).properties <+:
        (empty.setAll (settings ++ later)).properties) ∧
      ∀ (selector : Selector) (e : ε),
        selector.style (·.setAll settings) = ⟨selector, settings.map Setting.record⟩ ∧
          selector.tryStyle (fun b => (.ok (b.setAll settings) : Except ε Builder)) =
            .ok ⟨selector, settings.map Setting.record⟩ ∧
          selector.tryStyle (fun _ => .error e) = .error e := by
  refine ⟨?_, fun i s hs => ⟨?_, ?_⟩, fun later => ?_, fun selector e => ⟨?_, ?_, rfl⟩⟩
  · rw [size, records_setAll, List.length_map]
  · rw [records_setAll, List.getElem?_map, hs, Option.map_some]
  · exact records_setAll [s]
  · rw [records_setAll, records_setAll, List.map_append]
    exact List.prefix_append _ _
  · rw [Selector.style, records_setAll]
  · simp only [Selector.tryStyle, records_setAll]

/-- Paddings of two and of four values, and a declaration as it is between them. -/
theorem setAll_logs_padding :
    (empty.setAll [.pixelPair .padding ⟨0x3f800000⟩ ⟨0x40000000⟩, .custom "a_2" "b",
        .pixelQuad .padding ⟨0x80000000⟩ ⟨0⟩ ⟨0x3f000000⟩ ⟨0x7f800000⟩]).properties[2]? =
      some ⟨"padding", "-0px 0px 0.5px infpx"⟩ := by
  obtain ⟨-, hlog, -⟩ := setAll_logs (ε := Unit) [.pixelPair .padding ⟨0x3f800000⟩ ⟨0x40000000⟩,
    .custom "a_2" "b", .pixelQuad .padding ⟨0x80000000⟩ ⟨0⟩ ⟨0x3f000000⟩ ⟨0x7f800000⟩]
  rw [(hlog 2 _ rfl).1]
  decide +kernel

end Builder
end StyleSheet
