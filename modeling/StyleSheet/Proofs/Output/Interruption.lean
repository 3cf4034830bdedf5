import StyleSheet.Proofs.Output.FinalState

/-!
# Where a failing run stops

A run that fails ends at the first sheet that could not be written.  The sheets before it
are written as if they had been the whole list, and of the failing sheet nothing remains
but directories (`writeSheets_stops`).

A sheet can fail at four points.  Where its path is not taken, or its file cannot be read,
nothing has happened yet.  After that the directories above its file are made, which can
stop half way, and the file is written last; so what is left in all four cases is what
making those directories left (`writeSheet_error`).
-/

namespace StyleSheet

open FileSystem

variable {root target : Path} {files before after : FileSystem} {s : GeneratedSheet}
  {sheets : List GeneratedSheet} {log : List LogRecord} {e : Failure}

theorem Run.eq_of_result {α : Type} {run : Run α} {result : Except Failure α}
    (h : run.result = result) : run = ⟨run.files, run.log, result⟩ := by
  cases h
  rfl

/-! ## The sheet that fails -/

/-- A write that fails leaves the directories that were made for it. -/
theorem writeTarget_error {content : ByteArray}
    (h : writeTarget target content files = ⟨after, log, .error e⟩) :
    after = (files.makeParents target).1 ∧ log = [] ∧ ∃ fault, e = .file fault := by
  unfold writeTarget at h
  split at h
  · next fault hmade =>
    cases h
    exact ⟨by rw [hmade], rfl, fault, rfl⟩
  · next hmade =>
    split at h
    · next fault hwrite =>
      cases h
      exact ⟨by rw [hmade], rfl, fault, rfl⟩
    · cases h

/-- A sheet fails because its path is not taken, or because of its file.  Then nothing
happened, or directories were made for the file. -/
theorem writeSheet_error (h : writeSheet root s files = ⟨after, log, .error e⟩) :
    log = [] ∧
      ((∃ refused, Path.resolve root s.path = .error refused ∧ e = .outputPath refused ∧
          after = files) ∨
        ∃ target fault, Path.resolve root s.path = .ok target ∧ e = .file fault ∧
          (after = files ∨ after = (files.makeParents target).1)) := by
  unfold writeSheet at h
  split at h
  · next refused hresolve =>
    cases h
    exact ⟨rfl, .inl ⟨refused, hresolve, rfl, rfl⟩⟩
  · next target hresolve =>
    split at h
    · next fault hread =>
      cases h
      exact ⟨rfl, .inr ⟨target, fault, hresolve, rfl, .inl rfl⟩⟩
    · split at h
      · cases h
      · dsimp only at h
        split at h
        · next hrun =>
          cases h
          obtain ⟨hfiles, hlog, fault, rfl⟩ := writeTarget_error (Run.eq_of_result hrun)
          exact ⟨hlog, .inr ⟨target, fault, hresolve, rfl, .inr hfiles⟩⟩
        · cases h

theorem outputPath_iff_of_error (h : writeSheet root s files = ⟨after, log, .error e⟩)
    (refused : RefusedPath) :
    e = .outputPath refused ↔ Path.resolve root s.path = .error refused := by
  obtain ⟨-, ⟨refused', hresolve, rfl, -⟩ | ⟨target, fault, hresolve, rfl, -⟩⟩ :=
    writeSheet_error h
  · rw [hresolve, Failure.outputPath.injEq, Except.error.injEq]
  · rw [hresolve]
    exact iff_of_false (fun heq => by cases heq) fun heq => by cases heq

/-- A sheet that fails adds directories at most. -/
theorem extends_of_writeSheet_error (h : writeSheet root s files = ⟨after, log, .error e⟩) :
    Extends files after := by
  obtain ⟨-, ⟨refused, -, -, rfl⟩ | ⟨target, fault, -, -, rfl | rfl⟩⟩ := writeSheet_error h
  · exact Extends.refl _
  · exact Extends.refl _
  · exact files.extends_makeDirectories _

/-- The directories that a failing sheet adds are above its file. -/
theorem newIn_of_writeSheet_error (hroot : .parent ∉ root.components)
    (h : writeSheet root s files = ⟨after, log, .error e⟩) :
    NewIn (fun place => ∃ file, s.place? root files = some file ∧ Below place file) files
      after := by
  obtain ⟨-, ⟨refused, -, -, rfl⟩ | ⟨target, fault, hresolve, -, rfl | rfl⟩⟩ :=
    writeSheet_error h
  · exact NewIn.refl _ _
  · exact NewIn.refl _ _
  · have hparent := Path.parent_notMem_of_resolve_target hroot hresolve
    refine (newIn_makeParents files hparent).mono fun place hbelow => ?_
    exact ⟨files.place target, GeneratedSheet.place?_of_resolve hresolve, hbelow⟩

/-! ## The run that stops -/

/-- A run that fails has written the sheets before one that cannot be written then. -/
theorem writeSheets_error (h : writeSheets root sheets files = ⟨after, log, .error e⟩) :
    ∃ front s rest before report, sheets = front ++ s :: rest ∧
      writeSheets root front files = ⟨before, log, .ok report⟩ ∧
      writeSheet root s before = ⟨after, [], .error e⟩ := by
  induction sheets generalizing files log with
  | nil => cases h
  | cons s sheets ih =>
    cases hone : writeSheet root s files with
    | mk middle own result =>
      cases result with
      | error fault =>
        simp only [writeSheets, hone] at h
        cases h
        obtain ⟨rfl, -⟩ := writeSheet_error hone
        exact ⟨[], s, sheets, files, .empty, rfl, rfl, hone⟩
      | ok wasWritten =>
        simp only [writeSheets, hone] at h
        split at h
        · next hothers =>
          cases h
          obtain ⟨front, t, rest, before, report, rfl, hfront, hfail⟩ :=
            ih (Run.eq_of_result hothers)
          refine ⟨s :: front, t, rest, before, report.cons s.path wasWritten, rfl, ?_, hfail⟩
          simp only [writeSheets, hone, hfront]
        · cases h

/-- A run that fails stops cleanly: `front` are the sheets before the one, `s`, that failed.

* The sheets before it alone are written without failure, which leaves `before`.
* Each file holds afterwards what it holds in `before`.  So a file that is none of theirs
  is as it was at the start.
* Nothing is removed, and what is new since `before` are directories above the file of `s`.
* The failure is about an output path exactly if that of `s` is not taken. -/
theorem writeSheets_stops (hroot : .parent ∉ root.components)
    (h : writeSheets root sheets files = ⟨after, log, .error e⟩) :
    ∃ front s rest before report, sheets = front ++ s :: rest ∧
      writeSheets root front files = ⟨before, log, .ok report⟩ ∧
      writeSheet root s before = ⟨after, [], .error e⟩ ∧
      (∀ place content,
        after.get? place = some (.file content) ↔ before.get? place = some (.file content)) ∧
      (∀ place content, (∀ t ∈ front, t.place? root files ≠ some place) →
        (after.get? place = some (.file content) ↔ files.get? place = some (.file content))) ∧
      (∀ place, (files.get? place).isSome = true → (after.get? place).isSome = true) ∧
      (∀ place entry, before.get? place = some entry → after.get? place = some entry) ∧
      (∀ place, before.get? place = none → (after.get? place).isSome = true →
        after.get? place = some .directory ∧
          ∃ file, s.place? root files = some file ∧ Below place file) ∧
      ∀ refused, e = .outputPath refused ↔ Path.resolve root s.path = .error refused := by
  obtain ⟨front, s, rest, before, report, hsheets, hfront, hfail⟩ := writeSheets_error h
  have hresult : (writeSheets root front files).result = .ok report := by rw [hfront]
  have hwritten : ChangesIn (IsTarget root files front) files before := by
    have hchange := changesIn_writeSheets hresult
    rwa [hfront] at hchange
  have hextends := extends_of_writeSheet_error hfail
  have hnew := newIn_of_writeSheet_error hroot hfail
  have hfile : ∀ place content,
      after.get? place = some (.file content) ↔ before.get? place = some (.file content) := by
    intro place content
    constructor
    · exact (hextends.changesIn fun _ => False).file_of_file id
    · exact hextends.get? place _
  refine ⟨front, s, rest, before, report, hsheets, hfront, hfail, hfile, ?_, ?_, hextends.get?, ?_,
    outputPath_iff_of_error hfail⟩
  · intro place content hnone
    have hother : ¬ IsTarget root files front place := by
      rintro ⟨t, ht, htarget⟩
      exact hnone t ht htarget
    rw [hfile]
    exact ⟨hwritten.file_of_file hother, hwritten.file place content hother⟩
  · intro place hsome
    exact hextends.grows.isSome place (hwritten.isSome place hsome)
  · intro place hnone hsome
    obtain ⟨entry, hentry⟩ := Option.isSome_iff_exists.mp hsome
    obtain ⟨file, htarget, hbelow⟩ := hnew place hnone hsome
    rw [s.place?_of_grows hwritten.toGrows] at htarget
    exact ⟨hextends.new place entry hnone hentry ▸ hentry, file, htarget, hbelow⟩

/-- The second sheet names a directory, and the one after it is not written. -/
def brokenSheets : List GeneratedSheet :=
  [⟨⟨"a.uss"⟩, "x"⟩, ⟨⟨"d/e/"⟩, "y"⟩, ⟨⟨"b.uss"⟩, "z"⟩]

/-- The first sheet is written, and the directory `d` is made for the second.  The file of the
third one and the file that is no sheet's hold what they did. -/
theorem writeSheets_stops_at_directory :
    let run := writeSheets ⟨"out"⟩ brokenSheets twoFiles
    run.result = .error (.file .isDirectory) ∧
      run.files.get? ["out", "a.uss"] = some (.file "x".toUTF8) ∧
      run.files.get? ["out", "d"] = some .directory ∧
      run.files.get? ["out", "b.uss"] = some (.file "b".toUTF8) ∧
      run.files.get? ["out", "keep"] = some (.file "k".toUTF8) := by
  intro run
  have h : run = ⟨run.files, run.log, .error (.file .isDirectory)⟩ := rfl
  obtain ⟨front, s, rest, before, report, hsheets, -, -, -, hkept, -⟩ :=
    writeSheets_stops (by decide +kernel) h
  have hnone : ∀ t ∈ brokenSheets, t.place? ⟨"out"⟩ twoFiles ≠ some ["out", "keep"] := by
    decide +kernel
  refine ⟨rfl, rfl, rfl, rfl, (hkept ["out", "keep"] _ fun t ht => hnone t ?_).mpr rfl⟩
  rw [hsheets]
  exact List.mem_append_left _ ht

end StyleSheet
