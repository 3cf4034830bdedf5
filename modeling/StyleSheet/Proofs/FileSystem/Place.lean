import StyleSheet.FileSystem
import StyleSheet.Proofs.Path

/-!
# Where a walk ends, and what keeps it possible

There are no links, so where components lead to can be told without the tree: `locate`
follows them through the names alone, and a walk either fails or ends there
(`walk_eq_locate`).

Walks do not get lost.  A file system `Grows` when its directories stay directories and
nothing is removed; then each walk that was possible ends where it did before.
-/

namespace StyleSheet

/-- Where a component leads to from a location. -/
def Component.follow (place : Location) : Component → Location
  | .root => []
  | .current => place
  | .parent => place.dropLast
  | .normal name => place ++ [name]

/-- Where components lead to from a location. -/
def locate (place : Location) (cs : List Component) : Location := cs.foldl Component.follow place

@[simp] theorem locate_cons (place : Location) (c : Component) (cs : List Component) :
    locate place (c :: cs) = locate (c.follow place) cs := rfl

theorem locate_append (place : Location) (cs ds : List Component) :
    locate place (cs ++ ds) = locate (locate place cs) ds :=
  List.foldl_append

/-! ## Places of paths -/

/-- Of a path only its start and its steps count. -/
theorem locate_components (place : Location) (p : Path) :
    locate place p.components = locate (if p.isAbsolute then [] else place) p.steps := by
  rcases p.components_cases with ⟨habs, hp⟩ | ⟨habs, hp | hp⟩ <;> rw [hp, habs] <;> rfl

theorem locate_names (place : Location) (names : List String) :
    locate place (names.map .normal) = place ++ names := by
  induction names generalizing place with
  | nil => exact (List.append_nil place).symm
  | cons name names ih =>
    rw [List.map_cons, locate_cons, ih, Component.follow, List.append_assoc]
    rfl

/-- An output path leads from the place of its root down the names that are its steps. -/
theorem locate_of_resolve {root p target : Path} (h : Path.resolve root p = .ok target)
    (place : Location) :
    ∃ names : List String, p.steps = names.map .normal ∧
      locate place target.components = locate place root.components ++ names := by
  obtain ⟨names, hnames⟩ := Path.exists_names_of_resolve h
  obtain ⟨habsolute, hsteps⟩ := Path.steps_of_resolve h
  refine ⟨names, hnames, ?_⟩
  rw [locate_components place, habsolute, hsteps, locate_append, ← locate_components, hnames,
    locate_names]

/-- Two output paths lead to the same place only if their steps are the same. -/
theorem locate_eq_iff_of_resolve {root p q target target' : Path}
    (hp : Path.resolve root p = .ok target) (hq : Path.resolve root q = .ok target')
    (place : Location) :
    locate place target.components = locate place target'.components ↔ p.steps = q.steps := by
  obtain ⟨names, hnames, hplace⟩ := locate_of_resolve hp place
  obtain ⟨names', hnames', hplace'⟩ := locate_of_resolve hq place
  rw [hplace, hplace', hnames, hnames', List.append_cancel_left_eq]
  exact (List.map_inj_right fun _ _ h => Component.normal.inj h).symm

namespace FileSystem

variable {fs fs' fs'' : FileSystem} {place other next : Location} {c : Component}
  {cs : List Component} {e : Entry}

/-! ## Entries that are set -/

theorem get?_set_self (h : place ≠ []) : (fs.set place e).get? place = some e := by
  rw [get?_set, if_neg h, if_pos rfl]

theorem get?_set_of_ne (h : other ≠ place) : (fs.set place e).get? other = fs.get? other := by
  rw [get?_set, if_neg h]
  split
  · next hroot =>
    rw [hroot]
    rfl
  · rfl

/-! ## Walks -/

/-- A step leads from a directory, to where its component leads to. -/
theorem enter_ok (h : fs.enter place c = .ok next) :
    fs.get? place = some .directory ∧ next = c.follow place := by
  unfold enter at h
  split at h
  · cases h
  · cases h
  · next hplace =>
    refine ⟨hplace, ?_⟩
    cases c with
    | normal name =>
      dsimp only at h
      split at h
      · cases h
      · split at h
        · cases h
          rfl
        · cases h
    | _ =>
      cases h
      rfl

theorem walkFrom_eq_locate (h : fs.walkFrom place cs = .ok next) : next = locate place cs := by
  induction cs generalizing place with
  | nil =>
    cases h
    rfl
  | cons c cs ih =>
    unfold walkFrom at h
    split at h
    · next step hstep =>
      obtain ⟨-, rfl⟩ := enter_ok hstep
      exact ih h
    · cases h

theorem walk_eq_locate (h : fs.walk cs = .ok next) : next = locate fs.workingDirectory cs :=
  walkFrom_eq_locate h

/-- A walk to a directory ends at a directory. -/
theorem walkDirectory_ok :
    fs.walkDirectory cs = .ok place ↔
      fs.walk cs = .ok place ∧ fs.get? place = some .directory := by
  unfold walkDirectory
  constructor
  · intro h
    split at h
    · cases h
    · next hwalk =>
      split at h
      · next hplace =>
        cases h
        exact ⟨hwalk, hplace⟩
      · cases h
      · cases h
  · rintro ⟨hwalk, hplace⟩
    simp only [hwalk, hplace]

/-- A walk goes on from a directory to a name in it. -/
theorem walk_concat (h : fs.walkDirectory cs = .ok place) {name : String}
    (hlength : ¬ maxNameBytes < name.utf8ByteSize)
    (hsome : (fs.get? (place ++ [name])).isSome = true) :
    fs.walk (cs ++ [.normal name]) = .ok (place ++ [name]) := by
  obtain ⟨hwalk, hdirectory⟩ := walkDirectory_ok.mp h
  have henter : fs.enter place (.normal name) = .ok (place ++ [name]) := by
    simp only [enter, hdirectory, if_neg hlength, if_pos hsome]
  rw [walk] at hwalk
  rw [walk, walkFrom_append, hwalk]
  simp only [walkFrom, henter]

/-! ## Growth -/

/-- Directories stay directories, and no entry is removed. -/
structure Grows (fs fs' : FileSystem) : Prop where
  workingDirectory : fs'.workingDirectory = fs.workingDirectory
  directory : ∀ place, fs.get? place = some .directory → fs'.get? place = some .directory
  isSome : ∀ place, (fs.get? place).isSome = true → (fs'.get? place).isSome = true

namespace Grows

theorem refl (fs : FileSystem) : Grows fs fs := ⟨rfl, fun _ h => h, fun _ h => h⟩

theorem trans (h : Grows fs fs') (h' : Grows fs' fs'') : Grows fs fs'' where
  workingDirectory := h'.workingDirectory.trans h.workingDirectory
  directory place hplace := h'.directory place (h.directory place hplace)
  isSome place hplace := h'.isSome place (h.isSome place hplace)

/-- Setting an entry makes a file system grow, unless a directory is overwritten. -/
theorem set (h : fs.get? place = some .directory → e = .directory) : Grows fs (fs.set place e) where
  workingDirectory := rfl
  directory other hother := by
    by_cases hne : other = place
    · subst hne
      rw [get?_set, if_pos rfl, h hother]
      split <;> rfl
    · rw [get?_set_of_ne hne, hother]
  isSome other hother := by
    by_cases hne : other = place
    · subst hne
      rw [get?_set, if_pos rfl]
      split <;> rfl
    · rwa [get?_set_of_ne hne]

theorem enter (h : Grows fs fs') (hstep : fs.enter place c = .ok next) :
    fs'.enter place c = .ok next := by
  have hplace := h.directory place (enter_ok hstep).1
  unfold FileSystem.enter at hstep ⊢
  rw [(enter_ok hstep).1] at hstep
  rw [hplace]
  cases c with
  | normal name =>
    dsimp only at hstep ⊢
    split at hstep
    · cases hstep
    · next hlength =>
      rw [if_neg hlength]
      split at hstep
      · next hsome =>
        rw [if_pos (h.isSome _ hsome)]
        exact hstep
      · cases hstep
  | _ => exact hstep

theorem walkFrom (h : Grows fs fs') (hwalk : fs.walkFrom place cs = .ok next) :
    fs'.walkFrom place cs = .ok next := by
  induction cs generalizing place with
  | nil => exact hwalk
  | cons c cs ih =>
    unfold FileSystem.walkFrom at hwalk ⊢
    split at hwalk
    · next step hstep =>
      rw [h.enter hstep]
      exact ih hwalk
    · cases hwalk

theorem walk (h : Grows fs fs') (hwalk : fs.walk cs = .ok next) : fs'.walk cs = .ok next := by
  rw [FileSystem.walk, h.workingDirectory]
  exact h.walkFrom hwalk

theorem walkDirectory (h : Grows fs fs') (hwalk : fs.walkDirectory cs = .ok place) :
    fs'.walkDirectory cs = .ok place := by
  obtain ⟨hwalk, hplace⟩ := walkDirectory_ok.mp hwalk
  exact walkDirectory_ok.mpr ⟨h.walk hwalk, h.directory place hplace⟩

end Grows
end FileSystem
end StyleSheet
