import StyleSheet.FileSystem.Operations
import StyleSheet.Proofs.FileSystem.Place

/-!
# Reading and writing at a place

What an operation does with a path is said in terms of its place, the location that its
components lead to.

* `read_eq_ok_iff`: a file is read if its path reaches its place and the place holds a file.
* `write_ok`: writing sets the file at the place, and the path then reaches it.
* `extends_makeDirectories`: making directories only adds directories.
* `ChangesIn`: what a file system keeps when files are written in some places.

A path that once reached its place still does when the file system grows (`Reaches.mono`).
-/

namespace StyleSheet
namespace FileSystem

variable {fs fs' fs'' made written : FileSystem} {p : Path}
  {content : ByteArray}

/-- The location that a path leads to. -/
def place (fs : FileSystem) (p : Path) : Location := locate fs.workingDirectory p.components

theorem Grows.place_eq (h : Grows fs fs') (p : Path) : fs'.place p = fs.place p := by
  rw [FileSystem.place, FileSystem.place, h.workingDirectory]

/-! ## Reading -/

/-- Whether a path leads to its place, and can name a file there. -/
structure Reaches (fs : FileSystem) (p : Path) : Prop where
  path : checkPath p = .ok ()
  walk : fs.walk p.components = .ok (fs.place p)
  file : namesDirectory p = false

theorem Reaches.mono (h : fs.Reaches p) (hgrows : Grows fs fs') : fs'.Reaches p where
  path := h.path
  walk := by
    rw [hgrows.place_eq]
    exact hgrows.walk h.walk
  file := h.file

/-- What it takes to read a file. -/
theorem read_eq_ok_iff :
    fs.read p = .ok content ↔ fs.Reaches p ∧ fs.get? (fs.place p) = some (.file content) := by
  constructor
  · intro h
    unfold read at h
    split at h
    · cases h
    · next hpath =>
      split at h
      · cases h
      · next end_ hwalk =>
        have hend : end_ = fs.place p := walk_eq_locate hwalk
        split at h
        · cases h
        · cases h
        · next bytes hfile =>
          split at h
          · cases h
          · next hnames =>
            cases h
            rw [hend] at hwalk hfile
            exact ⟨⟨hpath, hwalk, Bool.eq_false_iff.mpr hnames⟩, hfile⟩
  · rintro ⟨hreach, hfile⟩
    simp [read, hreach.path, hreach.walk, hfile, hreach.file]

theorem readIfPresent_eq_none_iff :
    fs.readIfPresent p = .ok none ↔ fs.read p = .error .notFound := by
  constructor
  · intro h
    unfold readIfPresent at h
    split at h
    · cases h
    · next hread => exact hread
    · cases h
  · intro h
    rw [readIfPresent, h]

theorem readIfPresent_eq_some_iff :
    fs.readIfPresent p = .ok (some content) ↔ fs.read p = .ok content := by
  constructor
  · intro h
    unfold readIfPresent at h
    split at h
    · next hread =>
      cases h
      exact hread
    · cases h
    · cases h
  · intro h
    rw [readIfPresent, h]

/-! ## Writing -/

/-- What writing asks of a path, and what it sets. -/
theorem write_inv (h : fs.write p content = .ok written) :
    checkPath p = .ok () ∧ namesDirectory p = false ∧
      ∃ cs above name, p.components = cs ++ [.normal name] ∧ fs.walkDirectory cs = .ok above ∧
        ¬ maxNameBytes < name.utf8ByteSize ∧ fs.get? (above ++ [name]) ≠ some .directory ∧
          written = fs.set (above ++ [name]) (.file content) := by
  unfold write at h
  split at h
  · cases h
  · next hpath =>
    split at h
    · split at h <;> cases h
    · next name hname =>
      obtain ⟨cs, hcs⟩ := Path.exists_components_of_lastName? hname
      rw [hcs, List.dropLast_concat] at h
      split at h
      · cases h
      · next above habove =>
        split at h
        · cases h
        · next hslash =>
          split at h
          · cases h
          · next hlength =>
            split at h
            · cases h
            · next hfile =>
              cases h
              exact ⟨hpath, by simp [namesDirectory, hslash, hname], cs, above, name, hcs, habove,
                hlength, hfile, rfl⟩

/-- Writing sets the file at the place of the path, which held no directory; and then
the path reaches it. -/
theorem write_ok (h : fs.write p content = .ok written) :
    fs.get? (fs.place p) ≠ some .directory ∧ written = fs.set (fs.place p) (.file content) ∧
      written.read p = .ok content := by
  obtain ⟨hpath, hnames, cs, above, name, hcs, habove, hlength, hfree, rfl⟩ := write_inv h
  have hplace : fs.place p = above ++ [name] := by
    rw [FileSystem.place, hcs, locate_append, ← walk_eq_locate (walkDirectory_ok.mp habove).1]
    rfl
  have hgrows : Grows fs (fs.set (above ++ [name]) (.file content)) :=
    Grows.set fun heq => absurd heq hfree
  have hget : (fs.set (above ++ [name]) (.file content)).get? (above ++ [name]) =
      some (.file content) := get?_set_self (by simp)
  refine ⟨hplace ▸ hfree, by rw [hplace], read_eq_ok_iff.mpr ⟨⟨hpath, ?_, hnames⟩, ?_⟩⟩
  · rw [hgrows.place_eq, hplace, hcs]
    exact walk_concat (hgrows.walkDirectory habove) hlength (by rw [hget]; rfl)
  · rw [hgrows.place_eq, hplace]
    exact hget

/-! ## Making directories -/

/-- Directories are added, and no entry is changed. -/
structure Extends (fs fs' : FileSystem) : Prop where
  workingDirectory : fs'.workingDirectory = fs.workingDirectory
  get? : ∀ place e, fs.get? place = some e → fs'.get? place = some e
  new : ∀ place e, fs.get? place = none → fs'.get? place = some e → e = .directory

theorem Extends.refl (fs : FileSystem) : Extends fs fs where
  workingDirectory := rfl
  get? _ _ h := h
  new place e hnone hsome := by
    rw [hnone] at hsome
    cases hsome

theorem Extends.trans (h : Extends fs fs') (h' : Extends fs' fs'') : Extends fs fs'' where
  workingDirectory := h'.workingDirectory.trans h.workingDirectory
  get? other e hother := h'.get? other e (h.get? other e hother)
  new other e hnone hsome := by
    cases hmiddle : fs'.get? other with
    | none => exact h'.new other e hmiddle hsome
    | some e' =>
      rw [h'.get? other e' hmiddle] at hsome
      cases hsome
      exact h.new other e hnone hmiddle

theorem Extends.grows (h : Extends fs fs') : Grows fs fs' where
  workingDirectory := h.workingDirectory
  directory other hother := h.get? other _ hother
  isSome other hother := by
    obtain ⟨e, he⟩ := Option.isSome_iff_exists.mp hother
    rw [h.get? other e he]
    rfl

/-- What making a directory asks for, and what it sets. -/
theorem makeDirectory_inv {parents : List Component} {c : Component}
    (h : fs.makeDirectory parents c = .ok made) :
    ∃ above name, c = .normal name ∧ fs.walkDirectory parents = .ok above ∧
      fs.get? (above ++ [name]) = none ∧ made = fs.set (above ++ [name]) .directory := by
  unfold makeDirectory at h
  split at h
  · cases h
  · next above habove =>
    split at h
    · next name =>
      split at h
      · cases h
      · split at h
        · cases h
        · next hfree =>
          cases h
          exact ⟨above, name, rfl, habove, by simpa using hfree, rfl⟩
    · cases h

/-- Setting a directory where nothing is adds it, and that is all. -/
theorem extends_set {place : Location} (hfree : fs.get? place = none) :
    Extends fs (fs.set place .directory) where
  workingDirectory := rfl
  get? other e hother := by
    have hne : other ≠ place := by
      rintro rfl
      rw [hfree] at hother
      cases hother
    rw [get?_set_of_ne hne, hother]
  new other e hnone hsome := by
    by_cases hne : other = place
    · subst hne
      rw [get?_set, if_pos rfl] at hsome
      split at hsome <;> exact (Option.some.inj hsome).symm
    · rw [get?_set_of_ne hne, hnone] at hsome
      cases hsome

theorem extends_of_makeDirectory {parents : List Component} {c : Component}
    (h : fs.makeDirectory parents c = .ok made) : Extends fs made := by
  obtain ⟨above, name, -, -, hfree, rfl⟩ := makeDirectory_inv h
  exact extends_set hfree

/-- Making directories only adds directories, also when it fails. -/
theorem extends_makeDirectories (fs : FileSystem) (cs : List Component) :
    Extends fs (fs.makeDirectories cs).1 := by
  induction cs with
  | nil => exact Extends.refl fs
  | cons c up ih =>
    unfold makeDirectories
    split
    · next hmade => exact extends_of_makeDirectory hmade
    · split
      · next habove =>
        rw [habove] at ih
        exact ih
      · next above habove =>
        rw [habove] at ih
        split
        · next hmade => exact ih.trans (extends_of_makeDirectory hmade)
        · split <;> exact ih
    · split <;> exact Extends.refl fs

/-! ## Changes in some places -/

/-- A file system that grows by directories and keeps its files, but for some places, at
which files are written. -/
structure ChangesIn (targets : Location → Prop) (fs fs' : FileSystem) : Prop
    extends Grows fs fs' where
  file : ∀ other content, ¬ targets other → fs.get? other = some (.file content) →
    fs'.get? other = some (.file content)
  isFile : ∀ other content, fs.get? other = some (.file content) →
    ∃ content', fs'.get? other = some (.file content')
  new : ∀ other e, ¬ targets other → fs.get? other = none → fs'.get? other = some e →
    e = .directory

/-- A file system that changes in one place. -/
abbrev ChangesAt (place : Location) : FileSystem → FileSystem → Prop := ChangesIn (· = place)

namespace ChangesIn

variable {targets targets' : Location → Prop}

theorem refl (targets : Location → Prop) (fs : FileSystem) : ChangesIn targets fs fs where
  toGrows := Grows.refl fs
  file _ _ _ h := h
  isFile _ content h := ⟨content, h⟩
  new _ _ _ hnone hsome := by
    rw [hnone] at hsome
    cases hsome

theorem mono (h : ChangesIn targets fs fs') (hle : ∀ place, targets place → targets' place) :
    ChangesIn targets' fs fs' where
  toGrows := h.toGrows
  file other content hne := h.file other content fun ht => hne (hle other ht)
  isFile := h.isFile
  new other e hne := h.new other e fun ht => hne (hle other ht)

theorem trans (h : ChangesIn targets fs fs') (h' : ChangesIn targets fs' fs'') :
    ChangesIn targets fs fs'' where
  toGrows := h.toGrows.trans h'.toGrows
  file other content hne hother := h'.file other content hne (h.file other content hne hother)
  isFile other content hother := by
    obtain ⟨content', hother'⟩ := h.isFile other content hother
    exact h'.isFile other content' hother'
  new other e hne hnone hsome := by
    cases hmiddle : fs'.get? other with
    | none => exact h'.new other e hne hmiddle hsome
    | some e' =>
      have hdirectory := h.new other e' hne hnone hmiddle
      rw [hdirectory] at hmiddle
      rw [h'.directory other hmiddle] at hsome
      exact (Option.some.inj hsome).symm

/-- A file elsewhere is read as before. -/
theorem read (h : ChangesIn targets fs fs') (hne : ¬ targets (fs.place p))
    (hread : fs.read p = .ok content) : fs'.read p = .ok content := by
  obtain ⟨hreach, hfile⟩ := read_eq_ok_iff.mp hread
  refine read_eq_ok_iff.mpr ⟨hreach.mono h.toGrows, ?_⟩
  rw [h.place_eq]
  exact h.file _ _ hne hfile

/-- A file elsewhere has been there before. -/
theorem file_of_file {other : Location} (h : ChangesIn targets fs fs') (hne : ¬ targets other)
    (hfile : fs'.get? other = some (.file content)) : fs.get? other = some (.file content) := by
  cases hother : fs.get? other with
  | none => cases h.new other _ hne hother hfile
  | some e =>
    cases e with
    | directory =>
      rw [h.directory other hother] at hfile
      cases hfile
    | file content' =>
      rw [h.file other content' hne hother] at hfile
      exact hfile

/-! ### Failures that stay

A walk that fails where something is in the way fails for good.  Only what is missing
can be there later. -/

variable {place : Location} {c : Component} {cs : List Component} {e : FileFault}

theorem enter_error (h : ChangesIn targets fs fs') (hne : e ≠ .notFound)
    (hstep : fs.enter place c = .error e) : fs'.enter place c = .error e := by
  unfold FileSystem.enter at hstep ⊢
  split at hstep
  · cases hstep
    exact absurd rfl hne
  · next content hplace =>
    obtain ⟨content', hplace'⟩ := h.isFile place content hplace
    rw [hplace']
    exact hstep
  · next hplace =>
    rw [h.directory place hplace]
    cases c with
    | normal name =>
      dsimp only at hstep ⊢
      split at hstep
      · next hlong =>
        rw [if_pos hlong]
        exact hstep
      · split at hstep
        · cases hstep
        · cases hstep
          exact absurd rfl hne
    | _ => cases hstep

theorem walkFrom_error (h : ChangesIn targets fs fs') (hne : e ≠ .notFound)
    (hwalk : fs.walkFrom place cs = .error e) : fs'.walkFrom place cs = .error e := by
  induction cs generalizing place with
  | nil => cases hwalk
  | cons c cs ih =>
    rw [FileSystem.walkFrom] at hwalk ⊢
    split at hwalk
    · next hstep =>
      rw [h.toGrows.enter hstep]
      exact ih hwalk
    · next hstep =>
      cases hwalk
      rw [h.enter_error hne hstep]

/-- Reading fails as before, unless the file was missing. -/
theorem read_error (h : ChangesIn targets fs fs') (hne : e ≠ .notFound)
    (hread : fs.read p = .error e) : fs'.read p = .error e := by
  unfold FileSystem.read at hread ⊢
  split at hread
  · exact hread
  · split at hread
    · next hwalk =>
      cases hread
      rw [FileSystem.walk] at hwalk
      rw [FileSystem.walk, h.workingDirectory, h.walkFrom_error hne hwalk]
    · next hwalk =>
      rw [h.toGrows.walk hwalk]
      dsimp only
      split at hread
      · cases hread
        exact absurd rfl hne
      · next hplace =>
        rw [h.directory _ hplace]
        exact hread
      · next hplace =>
        obtain ⟨content', hplace'⟩ := h.isFile _ _ hplace
        rw [hplace']
        split at hread
        · next hnames =>
          simp only [hnames, ↓reduceIte]
          exact hread
        · cases hread

end ChangesIn

theorem Extends.changesIn (h : Extends fs fs') (targets : Location → Prop) :
    ChangesIn targets fs fs' where
  toGrows := h.grows
  file other _ _ hother := h.get? other _ hother
  isFile other content hother := ⟨content, h.get? other _ hother⟩
  new other e _ hnone hsome := h.new other e hnone hsome

theorem changesAt_of_write (h : fs.write p content = .ok written) :
    ChangesAt (fs.place p) fs written := by
  obtain ⟨hfree, rfl, -⟩ := write_ok h
  refine ⟨Grows.set fun heq => absurd heq hfree, ?_, ?_, ?_⟩
  · intro other bytes hne hother
    rwa [get?_set_of_ne hne]
  · intro other bytes hother
    by_cases hne : other = fs.place p
    · have hroot : other ≠ [] := by
        rintro rfl
        cases hother
      exact ⟨content, hne ▸ get?_set_self (hne ▸ hroot)⟩
    · exact ⟨bytes, (get?_set_of_ne hne).trans hother⟩
  · intro other e hne hnone hsome
    rw [get?_set_of_ne hne, hnone] at hsome
    cases hsome

end FileSystem
end StyleSheet
