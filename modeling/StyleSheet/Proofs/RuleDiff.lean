import Mathlib.Data.List.Basic
import StyleSheet.Proofs.Grouping
import StyleSheet.RuleDiff

/-!
# Differences by selector

The differences of two lists of rules can be told selector by selector, without batches.
What rules amount to for a selector are its declarations in all of them, in order
(`declarationsOf`), so the batches of rules are their distinct selectors with these
(`bySelector_eq`).

A difference stands between two lists of rules if one of them is without its selector, or
their declarations for it are others (`RuleDiff.Between`).  `mem_diff_iff` says that these
are the differences that are reported, and `diff_by_selector` in which order.
-/

namespace StyleSheet

variable {rules expected actual : List Rule} {s : String} {d : RuleDiff}

namespace Rule

/-- The distinct selectors of rules, in the order in which they first appear. -/
def selectors (rules : List Rule) : List String := (rules.map selector).eraseDups

/-- The declarations of all rules with a selector, in order. -/
def declarationsOf (rules : List Rule) (s : String) : List Property :=
  (rules.filter (·.selector == s)).flatMap properties

@[simp] theorem mem_selectors : s ∈ selectors rules ↔ s ∈ rules.map selector :=
  List.mem_eraseDups

theorem equivalence_beq : Equivalence fun a b : String => (a == b) = true where
  refl := beq_self_eq_true
  symm := BEq.symm
  trans := BEq.trans

theorem nodup_selectors (rules : List Rule) : (selectors rules).Nodup :=
  (Batch.pairwise_eraseDupsBy equivalence_beq _).imp ne_of_beq_false

/-! ## Batches -/

/-- The batches of rules are their selectors with the declarations of each. -/
theorem bySelector_eq (rules : List Rule) :
    bySelector rules = (selectors rules).map fun s => ⟨s, declarationsOf rules s⟩ := by
  have hitems : bySelector rules = Batch.gather (· == ·)
      (rules.map fun r => (r.selector, r.properties)) := by
    rw [← Batch.foldl_insert_eq_gather equivalence_beq, List.foldl_map]
    rfl
  have hmembers : ∀ s, ((rules.map fun r => (r.selector, r.properties)).filter
      fun i => i.1 == s).flatMap Prod.snd = declarationsOf rules s := fun s => by
    rw [List.filter_map, List.flatMap_map]
    rfl
  rw [hitems, Batch.gather, List.map_map]
  simp only [hmembers]
  rfl

/-- No two batches of a list of rules have one selector. -/
theorem distinct_bySelector (rules : List Rule) : Batch.Distinct (· == ·) (bySelector rules) :=
  Batch.Distinct.foldl_insert List.Pairwise.nil rules selector properties

/-- What is found under a selector. -/
theorem find?_bySelector (rules : List Rule) (s : String) :
    Batch.find? (· == ·) s (bySelector rules) =
      if s ∈ rules.map selector then some ⟨s, declarationsOf rules s⟩ else none := by
  split
  · next hs =>
    have hmem : (⟨s, declarationsOf rules s⟩ : Batch String Property) ∈ bySelector rules := by
      rw [bySelector_eq]
      exact List.mem_map_of_mem (mem_selectors.mpr hs)
    exact (distinct_bySelector rules).find?_eq_some (fun k => beq_self_eq_true k) hmem
  · next hs =>
    refine List.find?_eq_none.mpr fun g hg hkey => hs ?_
    rw [bySelector_eq] at hg
    obtain ⟨t, ht, rfl⟩ := List.mem_map.mp hg
    exact beq_iff_eq.mp hkey ▸ mem_selectors.mp ht

/-! ## What is reported -/

/-- How an expected selector differs, if it does. -/
def difference? (expected actual : List Rule) (s : String) : Option RuleDiff :=
  if s ∉ actual.map selector then some (.missing s)
  else if declarationsOf expected s = declarationsOf actual s then none
  else some (.changed s (declarationsOf expected s) (declarationsOf actual s))

/-- A batch is compared as its selector is. -/
theorem diffExpected_bySelector (expected actual : List Rule) (s : String) :
    diffExpected (bySelector actual) ⟨s, declarationsOf expected s⟩ =
      difference? expected actual s := by
  rw [diffExpected, find?_bySelector, difference?]
  by_cases hs : s ∈ actual.map selector
  · rw [if_pos hs, if_neg (not_not_intro hs)]
    exact if_congr eq_comm rfl rfl
  · rw [if_neg hs, if_pos hs]

theorem diffActual_bySelector (expected actual : List Rule) (s : String) :
    diffActual (bySelector expected) ⟨s, declarationsOf actual s⟩ =
      if s ∉ expected.map selector then some (.unexpected s) else none := by
  rw [diffActual, find?_bySelector]
  by_cases hs : s ∈ expected.map selector
  · rw [if_pos hs, if_neg (not_not_intro hs)]
  · rw [if_neg hs, if_pos hs]

/-- The differences by selector: first how the expected ones differ, then those that are not
expected. -/
theorem diff_eq_append (expected actual : List Rule) :
    diff expected actual = (selectors expected).filterMap (difference? expected actual) ++
      ((selectors actual).filter (· ∉ expected.map selector)).map .unexpected := by
  have hexpected : (bySelector expected).filterMap (diffExpected (bySelector actual)) =
      (selectors expected).filterMap (difference? expected actual) := by
    rw [bySelector_eq expected, List.filterMap_map]
    exact List.filterMap_congr fun s _ => diffExpected_bySelector expected actual s
  have hactual : (bySelector actual).filterMap (diffActual (bySelector expected)) =
      ((selectors actual).filter (· ∉ expected.map selector)).map .unexpected := by
    rw [bySelector_eq actual, List.filterMap_map, ← List.filterMap_eq_map, List.filterMap_filter]
    refine List.filterMap_congr fun s _ => (diffActual_bySelector expected actual s).trans ?_
    simp only [decide_eq_true_eq, Function.comp_apply]
  rw [diff, hexpected, hactual]

/-! ## Differences between rules -/

end Rule

/-- What differs between rules: a selector on one side only, or with other declarations. -/
inductive RuleDiff.Between (expected actual : List Rule) : RuleDiff → Prop where
  | missing {s : String} (hs : s ∈ expected.map Rule.selector)
      (hs' : s ∉ actual.map Rule.selector) : Between expected actual (.missing s)
  | unexpected {s : String} (hs : s ∉ expected.map Rule.selector)
      (hs' : s ∈ actual.map Rule.selector) : Between expected actual (.unexpected s)
  | changed {s : String} (hs : s ∈ expected.map Rule.selector)
      (hs' : s ∈ actual.map Rule.selector)
      (hne : Rule.declarationsOf expected s ≠ Rule.declarationsOf actual s) :
      Between expected actual
        (.changed s (Rule.declarationsOf expected s) (Rule.declarationsOf actual s))

namespace Rule

theorem mem_difference?_iff (hs : s ∈ expected.map selector) :
    d ∈ difference? expected actual s ↔ d.selector = s ∧ d.Between expected actual := by
  unfold difference?
  split
  · next hs' =>
    constructor
    · rintro ⟨⟩
      exact ⟨rfl, .missing hs hs'⟩
    · rintro ⟨rfl, h⟩
      cases h with
      | missing => rfl
      | unexpected hnot => exact absurd hs hnot
      | changed _ hmem => exact absurd hmem hs'
  · next hs' =>
    split
    · next heq =>
      refine iff_of_false (by simp) ?_
      rintro ⟨rfl, h⟩
      cases h with
      | missing _ hnot => exact hs' hnot
      | unexpected hnot => exact hnot hs
      | changed _ _ hne => exact hne heq
    · next hne =>
      constructor
      · rintro ⟨⟩
        exact ⟨rfl, .changed hs (not_not.mp hs') hne⟩
      · rintro ⟨rfl, h⟩
        cases h with
        | missing _ hnot => exact absurd hnot hs'
        | unexpected hnot => exact absurd hs hnot
        | changed => rfl

/-- What is reported is what differs. -/
theorem mem_diff_iff : d ∈ diff expected actual ↔ d.Between expected actual := by
  rw [diff_eq_append, List.mem_append, List.mem_filterMap, List.mem_map]
  constructor
  · rintro (⟨s, hs, hd⟩ | ⟨s, hs, rfl⟩)
    · exact ((mem_difference?_iff (mem_selectors.mp hs)).mp hd).2
    · rw [List.mem_filter, mem_selectors, decide_eq_true_iff] at hs
      exact .unexpected hs.2 hs.1
  · intro h
    cases h with
    | missing hs hs' =>
      exact .inl ⟨_, mem_selectors.mpr hs, (mem_difference?_iff hs).mpr ⟨rfl, .missing hs hs'⟩⟩
    | changed hs hs' hne =>
      exact .inl ⟨_, mem_selectors.mpr hs, (mem_difference?_iff hs).mpr ⟨rfl, .changed hs hs' hne⟩⟩
    | unexpected hs hs' =>
      refine .inr ⟨_, ?_, rfl⟩
      rw [List.mem_filter, mem_selectors, decide_eq_true_iff]
      exact ⟨hs', hs⟩

theorem selector_of_mem_difference? (h : d ∈ difference? expected actual s) : d.selector = s := by
  unfold difference? at h
  split at h
  · cases h
    rfl
  · split at h
    · cases h
    · cases h
      rfl

/-- No selector is reported twice. -/
theorem nodup_selector_diff (expected actual : List Rule) :
    ((diff expected actual).map RuleDiff.selector).Nodup := by
  have hunexpected : (((selectors actual).filter (· ∉ expected.map selector)).map
      RuleDiff.unexpected).map RuleDiff.selector =
        (selectors actual).filter (· ∉ expected.map selector) := by
    rw [List.map_map]
    exact List.map_id _
  rw [diff_eq_append, List.map_append, hunexpected, List.nodup_append]
  refine ⟨?_, (nodup_selectors actual).filter _, ?_⟩
  · rw [List.Nodup, List.pairwise_map, List.pairwise_filterMap]
    refine (nodup_selectors expected).imp fun hne d hd d' hd' heq => hne ?_
    rw [← selector_of_mem_difference? hd, ← selector_of_mem_difference? hd', heq]
  · -- the first ones are expected, the others are not
    intro s hs t ht heq
    obtain ⟨d, hd, rfl⟩ := List.mem_map.mp hs
    obtain ⟨s, hs, hd⟩ := List.mem_filterMap.mp hd
    rw [selector_of_mem_difference? hd] at heq
    rw [List.mem_filter, decide_eq_true_iff] at ht
    exact ht.2 (heq ▸ mem_selectors.mp hs)

theorem declarationsOf_of_notMem (h : s ∉ rules.map selector) : declarationsOf rules s = [] := by
  have hnone : rules.filter (·.selector == s) = [] :=
    List.filter_eq_nil_iff.mpr fun r hr heq => h (beq_iff_eq.mp heq ▸ List.mem_map_of_mem hr)
  rw [declarationsOf, hnone, List.flatMap_nil]

/-- Nothing is reported if the selectors and the declarations for each are the same. -/
theorem diff_eq_nil_iff : diff expected actual = [] ↔
    (∀ s, s ∈ expected.map selector ↔ s ∈ actual.map selector) ∧
      ∀ s, declarationsOf expected s = declarationsOf actual s := by
  rw [List.eq_nil_iff_forall_not_mem]
  simp only [mem_diff_iff]
  constructor
  · intro h
    have hmem : ∀ s, s ∈ expected.map selector ↔ s ∈ actual.map selector := fun s =>
      ⟨fun hs => by_contra fun hs' => h _ (.missing hs hs'),
        fun hs' => by_contra fun hs => h _ (.unexpected hs hs')⟩
    refine ⟨hmem, fun s => ?_⟩
    by_cases hs : s ∈ expected.map selector
    · exact by_contra fun hne => h _ (.changed hs ((hmem s).mp hs) hne)
    · rw [declarationsOf_of_notMem hs, declarationsOf_of_notMem (mt (hmem s).mpr hs)]
  · rintro ⟨hmem, hdeclarations⟩ d hd
    cases hd with
    | missing hs hs' => exact hs' ((hmem _).mp hs)
    | unexpected hs hs' => exact hs ((hmem _).mpr hs')
    | changed _ _ hne => exact hne (hdeclarations _)

/-- A list of rules does not differ from itself. -/
@[simp] theorem diff_self (rules : List Rule) : diff rules rules = [] :=
  diff_eq_nil_iff.mpr ⟨fun _ => Iff.rfl, fun _ => rfl⟩

/-! ## Rules that are left out -/

section Filter

variable (p : String → Bool)

theorem mem_selector_filter_iff : s ∈ (rules.filter (p ·.selector)).map selector ↔
    s ∈ rules.map selector ∧ p s = true := by
  simp only [List.mem_map, List.mem_filter]
  constructor
  · rintro ⟨r, ⟨hr, hp⟩, rfl⟩
    exact ⟨⟨r, hr, rfl⟩, hp⟩
  · rintro ⟨⟨r, hr, rfl⟩, hp⟩
    exact ⟨r, ⟨hr, hp⟩, rfl⟩

theorem declarationsOf_filter (rules : List Rule) (hs : p s = true) :
    declarationsOf (rules.filter (p ·.selector)) s = declarationsOf rules s := by
  have hfilter : ∀ r : Rule, (r.selector == s && p r.selector) = (r.selector == s) := by
    intro r
    rw [Bool.and_eq_left_iff_imp, beq_iff_eq]
    rintro rfl
    exact hs
  simp only [declarationsOf, List.filter_filter, hfilter]

/-- If the rules with some selectors are left out, these selectors do not differ. -/
theorem between_filter_iff :
    d.Between (expected.filter (p ·.selector)) (actual.filter (p ·.selector)) ↔
      d.Between expected actual ∧ p d.selector = true := by
  constructor
  · intro h
    cases h with
    | missing hs hs' =>
      rw [mem_selector_filter_iff] at hs hs'
      exact ⟨.missing hs.1 fun hmem => hs' ⟨hmem, hs.2⟩, hs.2⟩
    | unexpected hs hs' =>
      rw [mem_selector_filter_iff] at hs hs'
      exact ⟨.unexpected (fun hmem => hs ⟨hmem, hs'.2⟩) hs'.1, hs'.2⟩
    | changed hs hs' hne =>
      rw [mem_selector_filter_iff] at hs hs'
      rw [declarationsOf_filter p expected hs.2, declarationsOf_filter p actual hs.2] at hne ⊢
      exact ⟨.changed hs.1 hs'.1 hne, hs.2⟩
  · rintro ⟨h, hp⟩
    cases h with
    | missing hs hs' =>
      refine .missing ((mem_selector_filter_iff p).mpr ⟨hs, hp⟩) fun hmem => hs' ?_
      exact ((mem_selector_filter_iff p).mp hmem).1
    | unexpected hs hs' =>
      refine .unexpected (fun hmem => hs ?_) ((mem_selector_filter_iff p).mpr ⟨hs', hp⟩)
      exact ((mem_selector_filter_iff p).mp hmem).1
    | @changed s hs hs' hne =>
      have hp : p s = true := hp
      rw [← declarationsOf_filter p expected hp, ← declarationsOf_filter p actual hp] at hne ⊢
      exact .changed ((mem_selector_filter_iff p).mpr ⟨hs, hp⟩)
        ((mem_selector_filter_iff p).mpr ⟨hs', hp⟩) hne

end Filter

/-- The differences of two lists of rules, selector by selector.  Each expected selector is
missing, or changed if its declarations in all rules are others; then come the selectors that
are not expected.  No selector is reported twice, and none is if both lists have the same
selectors with the same declarations for each. -/
theorem diff_by_selector (expected actual : List Rule) :
    diff expected actual = (selectors expected).filterMap (difference? expected actual) ++
        ((selectors actual).filter (· ∉ expected.map selector)).map .unexpected ∧
      ((diff expected actual).map RuleDiff.selector).Nodup ∧
      (diff expected actual = [] ↔
        (∀ s, s ∈ expected.map selector ↔ s ∈ actual.map selector) ∧
          ∀ s, declarationsOf expected s = declarationsOf actual s) :=
  ⟨diff_eq_append expected actual, nodup_selector_diff expected actual, diff_eq_nil_iff⟩

/-- Rules of one selector count together, also with others between them. -/
example :
    diff [⟨"a", [⟨"x", "1"⟩]⟩, ⟨"b", []⟩, ⟨"a", [⟨"y", "2"⟩]⟩, ⟨"c", []⟩]
      [⟨"d", []⟩, ⟨"a", [⟨"x", "1"⟩, ⟨"y", "2"⟩]⟩, ⟨"b", [⟨"z", "3"⟩]⟩, ⟨"d", []⟩] =
        [.changed "b" [] [⟨"z", "3"⟩], .missing "c", .unexpected "d"] := by
  decide +kernel

end Rule
end StyleSheet
