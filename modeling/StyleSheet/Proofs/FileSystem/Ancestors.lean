import StyleSheet.Proofs.FileSystem.Files

/-!
# Where new entries are

The directories that are made for a file are those on the way to it.  On a path without
two dots the way only goes down, so the file is below all of them (`newIn_makeParents`).
With two dots a directory could be made, entered and left again.
-/

namespace StyleSheet

variable {place other : Location} {p : Path} {front cs : List Component}

/-- A place strictly below another one. -/
def Below (base place : Location) : Prop := ∃ names, names ≠ [] ∧ place = base ++ names

theorem Below.isPrefix {base : Location} (h : Below base place) : base <+: place := by
  obtain ⟨names, -, rfl⟩ := h
  exact List.prefix_append base names

/-- The first components of a path lead to a place above that of the path. -/
theorem below_locate_of_prefix (hparent : .parent ∉ p.components) (hne : front ≠ [])
    (hfront : front <+: p.components) (hproper : front ≠ p.components) :
    Below (locate place front) (locate place p.components) := by
  obtain ⟨rest, hrest⟩ := hfront
  have hnormal : ∀ c ∈ rest, ∃ name, c = .normal name := by
    intro c hc
    refine Path.exists_name_of_mem_tail hparent ?_
    rw [← hrest, List.tail_append_of_ne_nil hne]
    exact List.mem_append_right _ hc
  obtain ⟨names, rfl⟩ := Path.exists_names hnormal
  refine ⟨names, ?_, ?_⟩
  · rintro rfl
    exact hproper ((List.append_nil front).symm.trans hrest)
  · rw [← hrest, locate_append, locate_names]

namespace FileSystem

variable {fs fs' fs'' made written : FileSystem} {content : ByteArray}

/-- What is new is in some places. -/
def NewIn (places : Location → Prop) (fs fs' : FileSystem) : Prop :=
  ∀ other, fs.get? other = none → (fs'.get? other).isSome = true → places other

namespace NewIn

variable {places places' : Location → Prop}

theorem refl (places : Location → Prop) (fs : FileSystem) : NewIn places fs fs := by
  intro other hnone hsome
  rw [hnone] at hsome
  cases hsome

theorem mono (h : NewIn places fs fs') (hle : ∀ place, places place → places' place) :
    NewIn places' fs fs' :=
  fun other hnone hsome => hle other (h other hnone hsome)

theorem trans (h : NewIn places fs fs') (h' : NewIn places fs' fs'') : NewIn places fs fs'' := by
  intro other hnone hsome
  cases hmiddle : fs'.get? other with
  | none => exact h' other hmiddle hsome
  | some e => exact h other hnone (by rw [hmiddle]; rfl)

/-- An entry that is set is the only new one. -/
theorem set (place : Location) (e : Entry) : NewIn (· = place) fs (fs.set place e) := by
  intro other hnone hsome
  by_cases hne : other = place
  · exact hne
  · rw [get?_set_of_ne hne, hnone] at hsome
    cases hsome

end NewIn

/-! ## Directories on the way -/

/-- Places that the first of some components lead to. -/
def OnWay (place : Location) (cs : List Component) (other : Location) : Prop :=
  ∃ front, front ≠ [] ∧ front <+: cs ∧ other = locate place front

theorem OnWay.concat {c : Component} (h : OnWay place cs other) :
    OnWay place (cs ++ [c]) other := by
  obtain ⟨front, hne, hfront, hother⟩ := h
  exact ⟨front, hne, hfront.trans (List.prefix_append cs [c]), hother⟩

/-- A directory that is made is where its components lead to. -/
theorem newIn_of_makeDirectory {c : Component} (h : fs.makeDirectory cs c = .ok made) :
    NewIn (OnWay fs.workingDirectory (cs ++ [c])) fs made := by
  obtain ⟨above, name, rfl, habove, -, rfl⟩ := makeDirectory_inv h
  refine (NewIn.set _ _).mono fun other hother => ?_
  refine ⟨cs ++ [.normal name], by simp, List.prefix_refl _, ?_⟩
  rw [hother, locate_append, ← walk_eq_locate (walkDirectory_ok.mp habove).1]
  rfl

/-- Directories are made on the way that their components lead. -/
theorem newIn_makeDirectories (fs : FileSystem) (cs : List Component) :
    NewIn (OnWay fs.workingDirectory cs.reverse) fs (fs.makeDirectories cs).1 := by
  induction cs with
  | nil => exact NewIn.refl _ fs
  | cons c up ih =>
    have hextends := extends_makeDirectories fs up
    replace ih := ih.mono fun _ => OnWay.concat (c := c)
    rw [List.reverse_cons]
    unfold makeDirectories
    split
    · next hmade => exact newIn_of_makeDirectory hmade
    · split
      · next habove =>
        rw [habove] at ih
        exact ih
      · next above habove =>
        rw [habove] at ih hextends
        split
        · next hmade =>
          have hmade := newIn_of_makeDirectory hmade
          rw [hextends.workingDirectory] at hmade
          exact ih.trans hmade
        · split <;> exact ih
    · split <;> exact NewIn.refl _ fs

/-! ## Files and what is above them -/

/-- Some places, and those above them. -/
def AtOrAbove (targets : Location → Prop) (other : Location) : Prop :=
  ∃ target, targets target ∧ other <+: target

theorem AtOrAbove.mono {targets targets' : Location → Prop}
    (hle : ∀ place, targets place → targets' place) (h : AtOrAbove targets other) :
    AtOrAbove targets' other := by
  obtain ⟨target, htarget, habove⟩ := h
  exact ⟨target, hle target htarget, habove⟩

/-- The directories that are made for a file are strictly above it. -/
theorem newIn_makeParents (fs : FileSystem) (hparent : .parent ∉ p.components) :
    NewIn (fun other => Below other (fs.place p)) fs (fs.makeParents p).1 := by
  refine (newIn_makeDirectories fs _).mono fun other hother => ?_
  obtain ⟨front, hne, hfront, rfl⟩ := hother
  rw [List.tail_reverse, List.reverse_reverse] at hfront
  refine below_locate_of_prefix hparent hne (hfront.trans (List.dropLast_prefix _)) ?_
  rintro rfl
  have hlength := hfront.length_le
  have hpos := List.length_pos_iff.mpr hne
  rw [List.length_dropLast] at hlength
  omega

theorem newIn_of_write (h : fs.write p content = .ok written) :
    NewIn (AtOrAbove (· = fs.place p)) fs written := by
  obtain ⟨-, rfl, -⟩ := write_ok h
  exact (NewIn.set _ _).mono fun other hother => ⟨other, hother, List.prefix_refl other⟩

end FileSystem
end StyleSheet
