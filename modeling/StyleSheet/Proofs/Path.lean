import StyleSheet.Path.Output

/-!
# Components of joined paths

The pieces of two texts with a slash between them are the pieces of the one and then
those of the other, so the steps of a joined path are the steps of both
(`pieces_join`, `steps_join`).  `steps` are the components without the marks that only a
start can have, the root and the dot.

An output path that is taken consists of names (`exists_names_of_resolve`); a dot at its
start is all that two such paths with the same names can differ in
(`components_of_steps_eq`).  So the file that it names is told by its root and its steps
(`steps_of_resolve`).
-/

namespace StyleSheet
namespace Path

variable {p q root target : Path} {name : String}

/-- The components after the start. -/
def steps (p : Path) : List Component := (segments p.text.toList).filterMap component?

theorem segments_append_slash (s t : List Char) :
    segments (s ++ '/' :: t) = segments s ++ segments t := by
  induction s with
  | nil => simp [segments]
  | cons c cs ih =>
    rw [List.cons_append, segments, segments, ih]
    split
    · rfl
    · cases hcs : segments cs with
      | nil => exact absurd hcs (segments_ne_nil cs)
      | cons s rest => rfl

/-- The components of a path are those of its start, and its steps. -/
theorem components_cases (p : Path) :
    (p.isAbsolute = true ∧ p.components = .root :: p.steps) ∨
      (p.isAbsolute = false ∧ (p.components = .current :: p.steps ∨ p.components = p.steps)) := by
  cases habs : p.isAbsolute with
  | true =>
    refine .inl ⟨rfl, ?_⟩
    rw [components, if_pos habs]
    rfl
  | false =>
    refine .inr ⟨rfl, ?_⟩
    have hcomponents : p.components =
        if (segments p.text.toList).head? = some ['.'] then .current :: p.steps else p.steps := by
      rw [components, if_neg (by rw [habs]; exact Bool.false_ne_true)]
      rfl
    rw [hcomponents]
    split
    · exact .inl rfl
    · exact .inr rfl

/-! ## Pieces -/

/-- The pieces of a path that are not empty. -/
def pieces (p : Path) : List (List Char) := (segments p.text.toList).filter (· ≠ [])

theorem pieces_of_text_eq {s t : List Char} (h : p.text.toList = s ++ '/' :: t) :
    p.pieces = (segments s).filter (· ≠ []) ++ (segments t).filter (· ≠ []) := by
  rw [pieces, h, segments_append_slash, List.filter_append]

/-- Empty pieces are no steps. -/
theorem steps_eq_filterMap_pieces (p : Path) : p.steps = p.pieces.filterMap component? := by
  rw [pieces, List.filterMap_filter, steps]
  congr 1
  funext s
  by_cases hs : s = []
  · simp [hs, component?]
  · simp [hs]

/-- A path that is not empty and does not start at the root starts with a piece. -/
theorem pieces_ne_nil (habs : p.isAbsolute = false) (htext : p.text ≠ "") : p.pieces ≠ [] := by
  rw [isAbsolute] at habs
  rw [pieces]
  cases hp : p.text.toList with
  | nil => exact absurd (String.toList_eq_nil_iff.mp hp) htext
  | cons c cs =>
    have hc : c ≠ '/' := by
      rintro rfl
      simp [hp] at habs
    rw [segments, if_neg hc]
    cases segments cs with
    | nil => simp
    | cons s rest => simp

/-! ## Joined paths -/

/-- A joined path starts where the first does, and has the pieces of both. -/
theorem pieces_join (habs : p.isAbsolute = false) :
    (root.join p).isAbsolute = root.isAbsolute ∧
      (root.join p).pieces = root.pieces ++ p.pieces := by
  by_cases hroot : root.text = ""
  · have hempty : root = ⟨""⟩ := by
      cases root
      exact congrArg Path.mk hroot
    rw [join, if_pos (.inr hroot), habs, hempty]
    exact ⟨rfl, rfl⟩
  have hne : root.text.toList ≠ [] := fun h => hroot (String.toList_eq_nil_iff.mp h)
  have habsolute : ∀ t, ((root.text.toList ++ t).head? == some '/') = root.isAbsolute := by
    intro t
    rw [isAbsolute]
    cases hs : root.text.toList with
    | nil => exact absurd hs hne
    | cons c cs => rfl
  rw [join, if_neg (by simp [habs, hroot])]
  split
  · next hslash =>
    obtain ⟨s, hs⟩ := List.getLast?_eq_some_iff.mp hslash
    have htext : (root.text ++ p.text).toList = s ++ '/' :: p.text.toList := by
      rw [String.toList_append, hs, List.append_assoc]
      rfl
    refine ⟨?_, ?_⟩
    · rw [isAbsolute, String.toList_append, habsolute]
    · rw [pieces_of_text_eq (p := ⟨root.text ++ p.text⟩) htext, pieces_of_text_eq hs]
      simp [segments, pieces]
  · have htext : (root.text ++ "/" ++ p.text).toList =
        root.text.toList ++ '/' :: p.text.toList := by
      simp
    refine ⟨?_, ?_⟩
    · rw [isAbsolute, htext, habsolute]
    · exact pieces_of_text_eq (p := ⟨root.text ++ "/" ++ p.text⟩) htext

/-- The steps of a joined path are those of both. -/
theorem steps_join (habs : p.isAbsolute = false) :
    (root.join p).steps = root.steps ++ p.steps := by
  simp only [steps_eq_filterMap_pieces, (pieces_join habs).2, List.filterMap_append]

/-! ## Names -/

/-- A path with a last name leads to that name. -/
theorem exists_components_of_lastName? (h : p.lastName? = some name) :
    ∃ cs, p.components = cs ++ [.normal name] := by
  have hsteps : ∃ cs, p.steps = cs ++ [.normal name] := by
    unfold lastName? at h
    split at h
    · cases h
    · next segment hlast =>
      split at h
      · cases h
      · next hdots =>
        obtain ⟨front, hfront⟩ := List.getLast?_eq_some_iff.mp hlast
        have hmem : segment ∈ (segments p.text.toList).filter (· ≠ []) := by
          rw [hfront]
          exact List.mem_append_right _ List.mem_cons_self
        have hsegment : segment ≠ [] := by
          simpa using (List.mem_filter.mp hmem).2
        refine ⟨front.filterMap component?, ?_⟩
        rw [steps_eq_filterMap_pieces, pieces, hfront, List.filterMap_append]
        cases h
        simp only [not_or] at hdots
        simp [component?, hsegment, hdots]
  obtain ⟨cs, hcs⟩ := hsteps
  rcases components_cases p with ⟨-, h⟩ | ⟨-, h | h⟩
  · exact ⟨.root :: cs, by rw [h, hcs]; rfl⟩
  · exact ⟨.current :: cs, by rw [h, hcs]; rfl⟩
  · exact ⟨cs, by rw [h, hcs]⟩

theorem component?_eq_none {segment : List Char} (h : component? segment = none) :
    segment = [] ∨ segment = ['.'] := by
  unfold component? at h
  split at h
  · next hdot => exact hdot
  · split at h <;> cases h

/-- A path without steps ends in a dot, also after another path. -/
theorem lastName?_join_eq_none (habs : p.isAbsolute = false) (htext : p.text ≠ "")
    (hsteps : p.steps = []) : (root.join p).lastName? = none := by
  have hdots : ∀ segment ∈ p.pieces, segment = ['.'] := by
    intro segment hsegment
    have hne : segment ≠ [] := by
      simpa using (List.mem_filter.mp hsegment).2
    rw [steps_eq_filterMap_pieces, List.filterMap_eq_nil_iff] at hsteps
    exact (component?_eq_none (hsteps segment hsegment)).resolve_left hne
  have hne := pieces_ne_nil habs htext
  have hlast : (root.join p).pieces.getLast? = some ['.'] := by
    rw [(pieces_join habs).2, List.getLast?_append, List.getLast?_eq_some_getLast hne,
      hdots _ (List.getLast_mem hne)]
    rfl
  rw [pieces] at hlast
  simp only [lastName?, hlast, true_or, ↓reduceIte]

/-! ## Output paths -/

/-- A path that is taken is joined to the root, and is not absolute. -/
theorem resolve_ok (h : resolve root p = .ok target) :
    target = root.join p ∧ p.components.findSome? Component.refusal? = none := by
  unfold resolve at h
  split at h
  · cases h
  · split at h
    · cases h
    · next hnone =>
      cases h
      exact ⟨rfl, hnone⟩

theorem isAbsolute_of_resolve (h : resolve root p = .ok target) : p.isAbsolute = false := by
  rcases components_cases p with ⟨-, hp⟩ | ⟨habs, -⟩
  · have hnone := (resolve_ok h).2
    rw [hp] at hnone
    cases hnone
  · exact habs

theorem component?_eq_some {segment : List Char} {c : Component}
    (h : component? segment = some c) : c = .parent ∨ ∃ name, c = .normal name := by
  unfold component? at h
  split at h
  · cases h
  · split at h
    · cases h
      exact .inl rfl
    · cases h
      exact .inr ⟨_, rfl⟩

theorem exists_names {cs : List Component} (h : ∀ c ∈ cs, ∃ name, c = .normal name) :
    ∃ names : List String, cs = names.map .normal := by
  induction cs with
  | nil => exact ⟨[], rfl⟩
  | cons c cs ih =>
    obtain ⟨names, rfl⟩ := ih fun d hd => h d (List.mem_cons_of_mem c hd)
    obtain ⟨name, rfl⟩ := h c List.mem_cons_self
    exact ⟨name :: names, rfl⟩

theorem mem_components_of_mem_steps {c : Component} (h : c ∈ p.steps) : c ∈ p.components := by
  rcases components_cases p with ⟨-, hp⟩ | ⟨-, hp | hp⟩
  · exact hp ▸ List.mem_cons_of_mem _ h
  · exact hp ▸ List.mem_cons_of_mem _ h
  · exact hp ▸ h

/-- The steps of a path without two dots are names. -/
theorem exists_names_of_parent_notMem (h : .parent ∉ p.components) :
    ∃ names : List String, p.steps = names.map .normal := by
  refine exists_names fun c hc => ?_
  obtain ⟨segment, -, hsegment⟩ := List.mem_filterMap.mp hc
  rcases component?_eq_some hsegment with rfl | hnormal
  · exact absurd (mem_components_of_mem_steps hc) h
  · exact hnormal

/-- After the first component, a path without two dots has names only. -/
theorem exists_name_of_mem_tail (hparent : .parent ∉ p.components) {c : Component}
    (h : c ∈ p.components.tail) : ∃ name, c = .normal name := by
  have hsteps : c ∈ p.steps := by
    rcases components_cases p with ⟨-, hp⟩ | ⟨-, hp | hp⟩
    · rwa [hp] at h
    · rwa [hp] at h
    · exact hp ▸ List.mem_of_mem_tail h
  obtain ⟨names, hnames⟩ := exists_names_of_parent_notMem hparent
  rw [hnames] at hsteps
  obtain ⟨name, -, rfl⟩ := List.mem_map.mp hsteps
  exact ⟨name, rfl⟩

theorem parent_notMem_of_resolve (h : resolve root p = .ok target) : .parent ∉ p.components := by
  intro hparent
  cases List.findSome?_eq_none_iff.mp (resolve_ok h).2 _ hparent

/-- The steps of a path that is taken are names. -/
theorem exists_names_of_resolve (h : resolve root p = .ok target) :
    ∃ names : List String, p.steps = names.map .normal :=
  exists_names_of_parent_notMem (parent_notMem_of_resolve h)

/-- Paths with the same steps differ in a dot at the start at most. -/
theorem components_of_steps_eq (hp : p.isAbsolute = false) (hq : q.isAbsolute = false)
    (h : p.steps = q.steps) :
    p.components = q.components ∨ p.components = .current :: q.components ∨
      q.components = .current :: p.components := by
  rcases components_cases p with ⟨habs, -⟩ | ⟨-, hp | hp⟩
  · rw [habs] at hp
    cases hp
  · rcases components_cases q with ⟨habs, -⟩ | ⟨-, hq | hq⟩
    · rw [habs] at hq
      cases hq
    · exact .inl (by rw [hp, hq, h])
    · exact .inr (.inl (by rw [hp, hq, h]))
  · rcases components_cases q with ⟨habs, -⟩ | ⟨-, hq | hq⟩
    · rw [habs] at hq
      cases hq
    · exact .inr (.inr (by rw [hp, hq, h]))
    · exact .inl (by rw [hp, hq, h])

theorem root_notMem_steps (p : Path) : .root ∉ p.steps := by
  intro h
  obtain ⟨segment, -, hsegment⟩ := List.mem_filterMap.mp h
  rcases component?_eq_some hsegment with h | ⟨name, h⟩ <;> cases h

theorem isAbsolute_of_root_mem (h : .root ∈ p.components) : p.isAbsolute = true := by
  rcases components_cases p with ⟨habs, -⟩ | ⟨-, hp | hp⟩
  · exact habs
  · exact absurd (List.mem_of_ne_of_mem (by simp) (hp ▸ h)) p.root_notMem_steps
  · exact absurd (hp ▸ h) p.root_notMem_steps

/-- A path is taken exactly if it is not empty, does not start with a slash, and contains no
two dots. -/
theorem exists_resolve_iff : (∃ target, resolve root p = .ok target) ↔
    p.text ≠ "" ∧ p.text.toList.head? ≠ some '/' ∧ .parent ∉ p.components := by
  constructor
  · rintro ⟨target, h⟩
    have htext : p.text ≠ "" := by
      intro hempty
      rw [resolve, if_pos hempty] at h
      cases h
    have habs := isAbsolute_of_resolve h
    rw [isAbsolute, beq_eq_false_iff_ne] at habs
    exact ⟨htext, habs, parent_notMem_of_resolve h⟩
  · rintro ⟨htext, habs, hparent⟩
    have hnone : p.components.findSome? Component.refusal? = none := by
      refine List.findSome?_eq_none_iff.mpr fun c hc => ?_
      cases c with
      | root => exact absurd (beq_iff_eq.mp (isAbsolute_of_root_mem hc)) habs
      | parent => exact absurd hc hparent
      | current => rfl
      | normal name => rfl
    exact ⟨root.join p, by simp only [resolve, if_neg htext, hnone]⟩

/-- What is reported of a path that is not taken: that it is empty, or else what is wrong with
the first of its components that is the root or two dots. -/
theorem resolve_error {refused : RefusedPath} (h : resolve root p = .error refused) :
    refused.path = p ∧
      (p.text = "" ∧ refused.refusal = .empty ∨
        p.text ≠ "" ∧ ∃ front c rest, p.components = front ++ c :: rest ∧
          (∀ d ∈ front, d.refusal? = none) ∧ c.refusal? = some refused.refusal) := by
  unfold resolve at h
  split at h
  · next hempty =>
    cases h
    exact ⟨rfl, .inl ⟨hempty, rfl⟩⟩
  · next htext =>
    split at h
    · next refusal hfirst =>
      cases h
      obtain ⟨front, c, rest, hsplit, hc, hfront⟩ := List.findSome?_eq_some_iff.mp hfirst
      exact ⟨rfl, .inr ⟨htext, front, c, rest, hsplit, hfront, hc⟩⟩
    · cases h

/-! ## Files under a root -/

/-- The file of an output path is where its root is, and some steps further. -/
theorem steps_of_resolve (h : resolve root p = .ok target) :
    target.isAbsolute = root.isAbsolute ∧ target.steps = root.steps ++ p.steps := by
  obtain ⟨rfl, -⟩ := resolve_ok h
  have habs := isAbsolute_of_resolve h
  exact ⟨(pieces_join habs).1, steps_join habs⟩

theorem text_ne_of_resolve (h : resolve root p = .ok target) : target.text ≠ "" := by
  have htext : p.text ≠ "" := by
    rintro hempty
    rw [resolve, if_pos hempty] at h
    cases h
  obtain ⟨rfl, -⟩ := resolve_ok h
  rw [join]
  split
  · exact htext
  · split <;> simp [htext]

theorem parent_mem_steps_of_mem_components (h : .parent ∈ p.components) : .parent ∈ p.steps := by
  rcases components_cases p with ⟨-, hp⟩ | ⟨-, hp | hp⟩
  · exact List.mem_of_ne_of_mem (by simp) (hp ▸ h)
  · exact List.mem_of_ne_of_mem (by simp) (hp ▸ h)
  · exact hp ▸ h

/-- Without two dots in the root there are none in the file. -/
theorem parent_notMem_of_resolve_target (hroot : .parent ∉ root.components)
    (h : resolve root p = .ok target) : .parent ∉ target.components := by
  intro hparent
  have hsteps := parent_mem_steps_of_mem_components hparent
  rw [(steps_of_resolve h).2, List.mem_append] at hsteps
  rcases hsteps with hsteps | hsteps
  · exact hroot (mem_components_of_mem_steps hsteps)
  · exact parent_notMem_of_resolve h (mem_components_of_mem_steps hsteps)

/-- The components of a path without its dots. -/
def undotted (p : Path) : List Component := p.components.filter (· ≠ .current)

theorem undotted_eq (p : Path) :
    p.undotted = (if p.isAbsolute then [.root] else []) ++ p.steps := by
  have hsteps : p.steps.filter (· ≠ .current) = p.steps := by
    refine List.filter_eq_self.mpr fun c hc => ?_
    obtain ⟨segment, -, hsegment⟩ := List.mem_filterMap.mp hc
    rcases component?_eq_some hsegment with rfl | ⟨name, rfl⟩ <;> rfl
  rcases components_cases p with ⟨habs, hp⟩ | ⟨habs, hp | hp⟩
  · rw [undotted, hp, habs, List.filter_cons_of_pos (by simp), hsteps]
    rfl
  · rw [undotted, hp, habs, List.filter_cons_of_neg (by simp), hsteps]
    rfl
  · rw [undotted, hp, habs, hsteps]
    rfl

/-- The components of a file are those of its root, and then those of its path, dots aside. -/
theorem undotted_of_resolve (h : resolve root p = .ok target) :
    target.undotted = root.undotted ++ p.undotted := by
  obtain ⟨habs, hsteps⟩ := steps_of_resolve h
  rw [undotted_eq, undotted_eq, undotted_eq, habs, hsteps, isAbsolute_of_resolve h,
    List.append_assoc]
  rfl

/-- Two files under a root are one, dots aside, if their paths have the same steps. -/
theorem undotted_eq_iff_of_resolve {target' : Path} (hp : resolve root p = .ok target)
    (hq : resolve root q = .ok target') :
    target.undotted = target'.undotted ↔ p.steps = q.steps := by
  rw [undotted_eq, undotted_eq, (steps_of_resolve hp).1, (steps_of_resolve hq).1,
    (steps_of_resolve hp).2, (steps_of_resolve hq).2, List.append_cancel_left_eq,
    List.append_cancel_left_eq]

end Path
end StyleSheet
