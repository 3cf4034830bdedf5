import StyleSheet.Proofs.Output.Interruption

/-!
# Output stays under the root

Which paths are taken is decided by their components alone, and the components of the file
of a path are those of the root and then its own (`Path.exists_resolve_iff`,
`Path.undotted_of_resolve`).  None of these leads back up, so the place of the file is at
or below that of the root.

It is below, and not at it, for each file that is written.  A path of dots alone is taken
and leads to the root itself, but it can only name a directory.

Every step of a run, the one that fails included, therefore changes files below the root
only (`changesIn_below_writeSheet`), and so does the run between any two of its turns
(`output_below_root`).
-/

namespace StyleSheet

open FileSystem

variable {root target p : Path} {files : FileSystem} {s : GeneratedSheet}
  {sheets : List GeneratedSheet} {e : Failure} {i j : Nat}

/-- The file of an output path is below the root, unless the path can only name a
directory. -/
theorem below_of_resolve (h : Path.resolve root p = .ok target)
    (hfile : namesDirectory target = false) :
    Below (files.place root) (files.place target) := by
  obtain ⟨names, hnames, hplace⟩ := locate_of_resolve h files.workingDirectory
  refine ⟨names, ?_, hplace⟩
  rintro rfl
  obtain ⟨rfl, -⟩ := Path.resolve_ok h
  have htext : p.text ≠ "" := (Path.exists_resolve_iff.mp ⟨_, h⟩).1
  have hnone : (root.join p).lastName? = none :=
    Path.lastName?_join_eq_none (Path.isAbsolute_of_resolve h) htext hnames
  rw [namesDirectory, hnone, Option.isNone_none, Bool.or_true] at hfile
  cases hfile

/-- A sheet changes files below the root only, also if it fails. -/
theorem changesIn_below_writeSheet (root : Path) (s : GeneratedSheet) (files : FileSystem) :
    ChangesIn (Below (files.place root)) files (writeSheet root s files).files := by
  cases hone : (writeSheet root s files).result with
  | error e => exact (extends_of_writeSheet_error (Run.eq_of_result hone)).changesIn _
  | ok wasWritten =>
    obtain ⟨target, hresolve, hread, hchange⟩ := writeSheet_ok hone
    refine hchange.mono fun place hplace => ?_
    obtain ⟨hreach, -⟩ := read_eq_ok_iff.mp hread
    rw [hplace]
    exact below_of_resolve hresolve hreach.file

theorem atTurn_succ_of_error (h : (writeSheet root s files).result = .error e) (i : Nat) :
    atTurn root (s :: sheets) files (i + 1) = (writeSheet root s files).files := by
  rw [atTurn, List.take_succ_cons]
  simp only [writeSheets, h]

/-- A turn writes one sheet, or does nothing after the last sheet and after a failure. -/
theorem atTurn_step (root : Path) (sheets : List GeneratedSheet) (files : FileSystem) (i : Nat) :
    atTurn root sheets files (i + 1) = atTurn root sheets files i ∨
      ∃ s, sheets[i]? = some s ∧ atTurn root sheets files (i + 1) =
        (writeSheet root s (atTurn root sheets files i)).files := by
  induction sheets generalizing files i with
  | nil =>
    left
    rw [atTurn, atTurn, List.take_nil, List.take_nil]
  | cons s rest ih =>
    cases hone : (writeSheet root s files).result with
    | error e =>
      cases i with
      | zero => exact .inr ⟨s, rfl, atTurn_succ_of_error hone 0⟩
      | succ i =>
        left
        rw [atTurn_succ_of_error hone, atTurn_succ_of_error hone]
    | ok wasWritten =>
      cases i with
      | zero => exact .inr ⟨s, rfl, atTurn_succ hone 0⟩
      | succ i =>
        rw [atTurn_succ hone, atTurn_succ hone]
        exact ih (writeSheet root s files).files i

/-- A run changes files below the root only, between any two of its turns. -/
theorem changesIn_below_atTurn (root : Path) (sheets : List GeneratedSheet) (files : FileSystem)
    (hij : i ≤ j) :
    ChangesIn (Below (files.place root)) (atTurn root sheets files i)
      (atTurn root sheets files j) := by
  have hturn : ∀ n, ChangesIn (Below ((atTurn root sheets files n).place root))
      (atTurn root sheets files n) (atTurn root sheets files (n + 1)) := by
    intro n
    rcases atTurn_step root sheets files n with hsame | ⟨s, -, hstep⟩
    · rw [hsame]
      exact ChangesIn.refl _ _
    · rw [hstep]
      exact changesIn_below_writeSheet root s _
  have hplace : ∀ n, (atTurn root sheets files n).place root = files.place root := by
    intro n
    induction n with
    | zero => rfl
    | succ n ih => rw [(hturn n).place_eq, ih]
  induction hij with
  | refl => exact ChangesIn.refl _ _
  | step _ ih => exact ih.trans (hplace _ ▸ hturn _)

/-- Output stays under the root.

* A path is taken exactly if it is not empty, does not start with a slash, and contains no
  two dots; then the components of its file are those of the root and its own, dots aside.
* Of another path it is reported that it is empty, or else what is wrong with the first of
  its components that must not be there.
* A file that is created or overwritten between two turns of a run, which may fail, is below
  the root; turn `0` is the start of the run, and the turn after the last sheet its end. -/
theorem output_below_root (root : Path) :
    (∀ p, ((∃ target, Path.resolve root p = .ok target) ↔
          p.text ≠ "" ∧ p.text.toList.head? ≠ some '/' ∧ .parent ∉ p.components) ∧
        (∀ target, Path.resolve root p = .ok target →
          target.undotted = root.undotted ++ p.undotted) ∧
        ∀ refused, Path.resolve root p = .error refused → refused.path = p ∧
          (p.text = "" ∧ refused.refusal.reason = "path is empty" ∨
            p.text ≠ "" ∧ ∃ front c rest, p.components = front ++ c :: rest ∧
              .root ∉ front ∧ .parent ∉ front ∧
              (c = .root ∧ refused.refusal.reason = "path must be relative" ∨
                c = .parent ∧ refused.refusal.reason = "path must not contain `..`"))) ∧
      ∀ sheets files i j place content, i ≤ j →
        (atTurn root sheets files j).get? place = some (.file content) →
        (atTurn root sheets files i).get? place ≠ some (.file content) →
          Below (files.place root) place := by
  refine ⟨fun p => ⟨Path.exists_resolve_iff, fun target => Path.undotted_of_resolve, ?_⟩, ?_⟩
  · intro refused h
    obtain ⟨hpath, ⟨htext, hempty⟩ | ⟨htext, front, c, rest, hsplit, hfront, hc⟩⟩ :=
      Path.resolve_error h
    · exact ⟨hpath, .inl ⟨htext, by rw [hempty]; rfl⟩⟩
    · have hnotMem : ∀ d : Component, d.refusal? ≠ none → d ∉ front :=
        fun d hd hmem => hd (hfront d hmem)
      refine ⟨hpath, .inr ⟨htext, front, c, rest, hsplit, hnotMem _ (by decide),
        hnotMem _ (by decide), ?_⟩⟩
      cases c with
      | root => exact .inl ⟨rfl, by rw [← Option.some.inj hc]; rfl⟩
      | parent => exact .inr ⟨rfl, by rw [← Option.some.inj hc]; rfl⟩
      | current => cases hc
      | normal name => cases hc
  · intro sheets files i j place content hij hfile hnew
    by_cases hbelow : Below (files.place root) place
    · exact hbelow
    · exact absurd ((changesIn_below_atTurn root sheets files hij).file_of_file hbelow hfile) hnew

/-- The second sheet would climb out of a directory. -/
def climbingSheets : List GeneratedSheet :=
  [⟨⟨"./a.uss"⟩, "x"⟩, ⟨⟨"d/../b"⟩, "y"⟩, ⟨⟨"b.uss"⟩, "z"⟩]

/-- The first sheet is written below the root, and the run ends at the second. -/
theorem output_below_root_climbing :
    let run := writeSheets ⟨"out/."⟩ climbingSheets twoFiles
    run.result = .error (.outputPath ⟨⟨"d/../b"⟩, .climbs⟩) ∧
      run.files.get? ["out", "a.uss"] = some (.file "x".toUTF8) ∧
      Below ["out"] ["out", "a.uss"] ∧
      (∃ target, Path.resolve ⟨"out/."⟩ ⟨"./a.uss"⟩ = .ok target) ∧
      ∃ front rest, (⟨"d/../b"⟩ : Path).components = front ++ Component.parent :: rest := by
  intro run
  obtain ⟨hpaths, hfiles⟩ := output_below_root ⟨"out/."⟩
  refine ⟨rfl, rfl, hfiles climbingSheets twoFiles 0 3 _ "x".toUTF8 (by omega) rfl fun h => ?_,
    (hpaths ⟨"./a.uss"⟩).1.mpr (by decide +kernel), ?_⟩
  · cases h
  obtain ⟨-, ⟨hempty, -⟩ | ⟨-, front, c, rest, hsplit, -, -, ⟨-, hreason⟩ | ⟨rfl, -⟩⟩⟩ :=
    (hpaths ⟨"d/../b"⟩).2.2 _ rfl
  · exact absurd hempty (by decide)
  · exact absurd hreason (by decide)
  · exact ⟨front, rest, hsplit⟩

end StyleSheet
