import Mathlib.Data.List.Induction
import StyleSheet.Proofs.FileSystem.Files

/-!
# Trees

The table of a file system is a tree if every entry is in a directory (`IsTree`).  In a
tree, whatever is above an entry is a directory, so a path of names leads to its place
exactly if there is an entry, and names of an admissible length are all that it takes.

That is why it can be told from the place alone whether a file is missing
(`IsTree.eq_none_iff`).
-/

namespace StyleSheet
namespace FileSystem

variable {fs fs' : FileSystem} {place next : Location} {names : List String} {p : Path}

/-- Every entry is in a directory, and there is a directory to start from. -/
structure IsTree (fs : FileSystem) : Prop where
  workingDirectory : fs.get? fs.workingDirectory = some .directory
  parent : ∀ place name, (fs.get? (place ++ [name])).isSome = true → fs.get? place = some .directory

/-- Whether there is a directory at a place. -/
def holdsDirectory (fs : FileSystem) (place : Location) : Bool :=
  match fs.get? place with
  | some .directory => true
  | _ => false

theorem holdsDirectory_iff : fs.holdsDirectory place = true ↔ fs.get? place = some .directory := by
  unfold holdsDirectory
  split
  · next h => simp [h]
  · next h => simpa using h

/-- Whether every entry of the table is in a directory. -/
def isTree (fs : FileSystem) : Bool :=
  fs.holdsDirectory fs.workingDirectory && fs.entries.all fun x => fs.holdsDirectory x.1.dropLast

theorem isTree_iff : fs.isTree = true ↔ fs.IsTree := by
  rw [isTree, Bool.and_eq_true, List.all_eq_true, holdsDirectory_iff]
  constructor
  · rintro ⟨hworking, hentries⟩
    refine ⟨hworking, fun place name hsome => ?_⟩
    rw [get?, if_neg (by simp), List.lookup_isSome_iff] at hsome
    obtain ⟨x, hx, hplace⟩ := hsome
    have hdirectory := holdsDirectory_iff.mp (hentries x hx)
    rwa [← beq_iff_eq.mp hplace, List.dropLast_concat] at hdirectory
  · intro h
    refine ⟨h.workingDirectory, fun x hx => holdsDirectory_iff.mpr ?_⟩
    cases hplace : x.1 using List.reverseRecOn with
    | nil => rfl
    | append_singleton place name =>
      rw [List.dropLast_concat]
      refine h.parent place name ?_
      rw [get?, if_neg (by simp), List.lookup_isSome_iff]
      exact ⟨x, hx, beq_iff_eq.mpr hplace.symm⟩

instance : Decidable fs.IsTree := decidable_of_iff _ isTree_iff

/-- Where a path starts. -/
def start (fs : FileSystem) (p : Path) : Location :=
  if p.isAbsolute then [] else fs.workingDirectory

theorem place_eq_start (h : p.steps = names.map .normal) : fs.place p = fs.start p ++ names := by
  rw [FileSystem.place, locate_components, h, locate_names, start]

namespace IsTree

/-- What is above an entry is a directory. -/
theorem directory_of_append (h : fs.IsTree) (hnames : names ≠ [])
    (hsome : (fs.get? (place ++ names)).isSome = true) : fs.get? place = some .directory := by
  induction names using List.reverseRecOn with
  | nil => exact absurd rfl hnames
  | append_singleton front name ih =>
    rw [← List.append_assoc] at hsome
    have hfront := h.parent _ name hsome
    cases front with
    | nil => rwa [List.append_nil] at hfront
    | cons n front => exact ih (List.cons_ne_nil n front) (by rw [hfront]; rfl)

theorem isSome_of_append (h : fs.IsTree) (hsome : (fs.get? (place ++ names)).isSome = true) :
    (fs.get? place).isSome = true := by
  cases names with
  | nil => rwa [List.append_nil] at hsome
  | cons n names => rw [h.directory_of_append (List.cons_ne_nil n names) hsome]; rfl

/-- In a tree a name leads to an entry, unless it is too long. -/
theorem enter_name (h : fs.IsTree) {name : String}
    (hsome : (fs.get? (place ++ name :: names)).isSome = true) :
    fs.enter place (.normal name) =
      if maxNameBytes < name.utf8ByteSize then .error .nameTooLong else .ok (place ++ [name]) := by
  have hplace := h.directory_of_append (List.cons_ne_nil name names) hsome
  have hnext : (fs.get? (place ++ [name])).isSome = true := by
    rw [List.append_cons place name names] at hsome
    exact h.isSome_of_append hsome
  simp only [enter, hplace, if_pos hnext]

/-- Names lead to an entry, unless one of them is too long. -/
theorem walkFrom_names (h : fs.IsTree)
    (hlength : ∀ name ∈ names, ¬ maxNameBytes < name.utf8ByteSize)
    (hsome : (fs.get? (place ++ names)).isSome = true) :
    fs.walkFrom place (names.map .normal) = .ok (place ++ names) := by
  induction names generalizing place with
  | nil =>
    rw [List.append_nil]
    rfl
  | cons name names ih =>
    rw [List.map_cons, walkFrom, h.enter_name hsome, if_neg (hlength name List.mem_cons_self)]
    rw [List.append_cons place name names] at hsome ⊢
    exact ih (fun n hn => hlength n (List.mem_cons_of_mem name hn)) hsome

/-- Names that lead nowhere are those of no entry. -/
theorem get?_eq_none_of_walkFrom (h : fs.IsTree)
    (hwalk : fs.walkFrom place (names.map .normal) = .error .notFound) :
    fs.get? (place ++ names) = none := by
  induction names generalizing place with
  | nil => cases hwalk
  | cons name names ih =>
    by_contra hne
    have hsome := Option.isSome_iff_ne_none.mpr hne
    rw [List.map_cons, walkFrom, h.enter_name hsome] at hwalk
    by_cases hlong : maxNameBytes < name.utf8ByteSize
    · rw [if_pos hlong] at hwalk
      cases hwalk
    · rw [if_neg hlong] at hwalk
      rw [List.append_cons place name names] at hne
      exact hne (ih hwalk)

end IsTree

/-- Names that were followed are not too long. -/
theorem length_le_of_walkFrom (h : fs.walkFrom place (names.map .normal) = .ok next) :
    ∀ name ∈ names, ¬ maxNameBytes < name.utf8ByteSize := by
  induction names generalizing place with
  | nil => simp
  | cons name names ih =>
    rw [List.map_cons, walkFrom] at h
    split at h
    · next step hstep =>
      refine List.forall_mem_cons.mpr ⟨fun hlong => ?_, ih h⟩
      simp only [enter, (enter_ok hstep).1, if_pos hlong] at hstep
      cases hstep
    · cases h

/-- A walk along a path is a walk along its steps. -/
theorem walk_components (h : fs.get? fs.workingDirectory = some .directory) (p : Path) :
    fs.walk p.components = fs.walkFrom (fs.start p) p.steps := by
  have hroot : fs.enter fs.workingDirectory .root = .ok [] := by
    simp only [enter, h]
  have hcurrent : fs.enter fs.workingDirectory .current = .ok fs.workingDirectory := by
    simp only [enter, h]
  rcases p.components_cases with ⟨habs, hp⟩ | ⟨habs, hp | hp⟩
  · simp only [walk, hp, walkFrom, hroot, start, habs, ↓reduceIte]
  · simp only [walk, hp, walkFrom, hcurrent, start, habs, Bool.false_eq_true, ↓reduceIte]
  · simp only [walk, hp, start, habs, Bool.false_eq_true, ↓reduceIte]

/-! ## Reading in a tree -/

namespace IsTree

variable (hnames : p.steps = names.map .normal)

include hnames

/-- A file of the tree that can be read later can be read now. -/
theorem read_of_grows (h : fs.IsTree) (hgrows : Grows fs fs') {content content' : ByteArray}
    (hread : fs'.read p = .ok content') (hfile : fs.get? (fs.place p) = some (.file content)) :
    fs.read p = .ok content := by
  obtain ⟨hreach, -⟩ := read_eq_ok_iff.mp hread
  have hwalk := hreach.walk
  rw [walk_components (hgrows.workingDirectory ▸ hgrows.directory _ h.workingDirectory),
    hnames] at hwalk
  refine read_eq_ok_iff.mpr ⟨⟨hreach.path, ?_, hreach.file⟩, hfile⟩
  rw [place_eq_start hnames] at hfile ⊢
  rw [walk_components h.workingDirectory, hnames,
    h.walkFrom_names (length_le_of_walkFrom hwalk) (by rw [hfile]; rfl)]

/-- What is read as missing is no entry. -/
theorem get?_place_eq_none (h : fs.IsTree) (htext : p.text ≠ "")
    (hread : fs.read p = .error .notFound) : fs.get? (fs.place p) = none := by
  unfold read checkPath at hread
  rw [if_neg htext] at hread
  split at hread
  · next hpath =>
    split at hpath
    · cases hpath
      cases hread
    · split at hpath
      · cases hpath
        cases hread
      · cases hpath
  · split at hread
    · next hwalk =>
      cases hread
      rw [walk_components h.workingDirectory, hnames] at hwalk
      rw [place_eq_start hnames, h.get?_eq_none_of_walkFrom hwalk]
    · next end_ hwalk =>
      have hplace : end_ = fs.place p := walk_eq_locate hwalk
      split at hread
      · next hnone => rw [← hplace, hnone]
      · cases hread
      · split at hread <;> cases hread

/-- A file that can be looked for is missing exactly if there is no entry at its place. -/
theorem eq_none_iff (h : fs.IsTree) (htext : p.text ≠ "") {existing : Option ByteArray}
    (hread : fs.readIfPresent p = .ok existing) :
    existing = none ↔ fs.get? (fs.place p) = none := by
  cases existing with
  | none =>
    exact iff_of_true rfl
      (h.get?_place_eq_none hnames htext (readIfPresent_eq_none_iff.mp hread))
  | some content =>
    have hfile := (read_eq_ok_iff.mp (readIfPresent_eq_some_iff.mp hread)).2
    exact iff_of_false (fun hnone => by cases hnone) fun hnone => by
      rw [hfile] at hnone
      cases hnone

/-- Changes in other places do not change what is found when a file is looked for; if it
can be looked for after them, it can be looked for before. -/
theorem readIfPresent_of_changesIn (h : fs.IsTree) {targets : Location → Prop}
    (hchange : ChangesIn targets fs fs') (hne : ¬ targets (fs.place p))
    {existing : Option ByteArray} (hread : fs'.readIfPresent p = .ok existing) :
    fs.readIfPresent p = .ok existing := by
  cases existing with
  | some content =>
    have hread' := readIfPresent_eq_some_iff.mp hread
    have hfile := (read_eq_ok_iff.mp hread').2
    rw [hchange.place_eq] at hfile
    exact readIfPresent_eq_some_iff.mpr
      (h.read_of_grows hnames hchange.toGrows hread' (hchange.file_of_file hne hfile))
  | none =>
    have hread' := readIfPresent_eq_none_iff.mp hread
    refine readIfPresent_eq_none_iff.mpr ?_
    cases hbefore : fs.read p with
    | ok content =>
      rw [hchange.read hne hbefore] at hread'
      cases hread'
    | error e =>
      by_cases he : e = .notFound
      · rw [he]
      · rw [hchange.read_error he hbefore] at hread'
        exact absurd (Except.error.inj hread') he

end IsTree
end FileSystem
end StyleSheet
