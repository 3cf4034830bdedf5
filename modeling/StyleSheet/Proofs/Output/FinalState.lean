import StyleSheet.Proofs.FileSystem.Ancestors
import StyleSheet.Proofs.Output.Settled

/-!
# What a successful run leaves

When a list of sheets was written without failure, each of their files holds the text of
the last sheet for it.  All other files are as they were, nothing is removed, and what is
new are files of sheets and the directories above them.  The report tells apart the sheets
that were settled at their turn and those that had to be written (`writeSheets_leaves`).

The files are told by their locations (`GeneratedSheet.place?`), since several sheets can
have one file; what one step does to the tree is `ChangesAt` and `NewIn`, and a run is a
chain of such steps.
-/

namespace StyleSheet

open FileSystem

variable {root target : Path} {files after : FileSystem} {s : GeneratedSheet}
  {sheets : List GeneratedSheet} {place : Location} {report : WriteReport} {wasWritten : Bool}

/-- The location of the file of a sheet, if its path is taken. -/
def GeneratedSheet.place? (root : Path) (files : FileSystem) (s : GeneratedSheet) :
    Option Location :=
  match Path.resolve root s.path with
  | .ok target => some (files.place target)
  | .error _ => none

theorem GeneratedSheet.place?_of_resolve (h : Path.resolve root s.path = .ok target) :
    s.place? root files = some (files.place target) := by
  rw [place?, h]

theorem GeneratedSheet.place?_of_grows (h : Grows files after) (s : GeneratedSheet) :
    s.place? root after = s.place? root files := by
  unfold place?
  split
  · rw [h.place_eq]
  · rfl

theorem findRev?_eq_none {α : Type} {p : α → Bool} {xs : List α} :
    xs.findRev? p = none ↔ ∀ x ∈ xs, ¬ p x = true := by
  induction xs with
  | nil => simp [List.findRev?]
  | cons x xs ih =>
    rw [List.findRev?, List.forall_mem_cons, ← ih]
    cases xs.findRev? p with
    | some y => simp
    | none => simp

/-- Whether a location is that of the file of a sheet. -/
def IsTarget (root : Path) (files : FileSystem) (sheets : List GeneratedSheet)
    (place : Location) : Prop :=
  ∃ s ∈ sheets, s.place? root files = some place

theorem isTarget_cons : IsTarget root files (s :: sheets) place ↔
    s.place? root files = some place ∨ IsTarget root files sheets place := by
  simp [IsTarget]

/-! ## One sheet -/

theorem changesIn_writeSheet (h : (writeSheet root s files).result = .ok wasWritten) :
    ChangesIn (fun place => s.place? root files = some place) files
      (writeSheet root s files).files := by
  obtain ⟨target, hresolve, -, hchange⟩ := writeSheet_ok h
  refine hchange.mono fun place hplace => ?_
  rw [GeneratedSheet.place?_of_resolve hresolve, hplace]

theorem newIn_writeTarget {content : ByteArray} (hparent : .parent ∉ target.components)
    (h : (writeTarget target content files).result = .ok ()) :
    NewIn (AtOrAbove (· = files.place target)) files (writeTarget target content files).files := by
  unfold writeTarget at h ⊢
  split at h
  · cases h
  · next made hmade =>
    have hnew := (newIn_makeParents files hparent).mono fun other hbelow =>
      (⟨_, rfl, hbelow.isPrefix⟩ : AtOrAbove (· = files.place target) other)
    have hextends := files.extends_makeDirectories target.components.reverse.tail
    rw [← makeParents] at hextends
    rw [hmade] at hnew hextends
    split at h
    · cases h
    · next hwrite =>
      have hwritten := newIn_of_write hwrite
      rw [hextends.grows.place_eq] at hwritten
      exact hnew.trans hwritten

theorem newIn_writeSheet (hroot : .parent ∉ root.components)
    (h : (writeSheet root s files).result = .ok wasWritten) :
    NewIn (AtOrAbove fun place => s.place? root files = some place) files
      (writeSheet root s files).files := by
  obtain ⟨target, existing, hresolve, -, ⟨-, -, hfiles⟩ | ⟨-, hrun, hfiles⟩⟩ := writeSheet_inv h
  · rw [hfiles]
    exact NewIn.refl _ files
  · have htarget : ∀ place, place = files.place target → s.place? root files = some place := by
      rintro place rfl
      exact GeneratedSheet.place?_of_resolve hresolve
    have hparent := Path.parent_notMem_of_resolve_target hroot hresolve
    rw [hfiles]
    exact (newIn_writeTarget hparent hrun).mono fun _ => AtOrAbove.mono htarget

/-- A sheet is left alone exactly if it is settled, and then nothing changes. -/
theorem writeSheet_eq_false_iff (h : (writeSheet root s files).result = .ok wasWritten) :
    wasWritten = false ↔ s.Settled root files := by
  constructor
  · rintro rfl
    obtain ⟨target, existing, hresolve, hexisting, ⟨-, rfl, -⟩ | ⟨htrue, -⟩⟩ := writeSheet_inv h
    · exact ⟨target, hresolve, readIfPresent_eq_some_iff.mp hexisting⟩
    · cases htrue
  · intro hsettled
    rw [writeSheet_of_settled hsettled] at h
    exact (Except.ok.inj h).symm

/-! ## A list of sheets -/

theorem changesIn_writeSheets (h : (writeSheets root sheets files).result = .ok report) :
    ChangesIn (IsTarget root files sheets) files (writeSheets root sheets files).files := by
  induction sheets generalizing files report with
  | nil => exact ChangesIn.refl _ files
  | cons s rest ih =>
    obtain ⟨wasWritten, report', hone, hothers, hfiles, -⟩ := writeSheets_cons_ok h
    have hfirst := changesIn_writeSheet hone
    have hrest := ih hothers
    rw [hfiles]
    refine (hfirst.mono fun place hplace => isTarget_cons.mpr (.inl hplace)).trans
      (hrest.mono fun place hplace => isTarget_cons.mpr (.inr ?_))
    obtain ⟨t, ht, hplace⟩ := hplace
    exact ⟨t, ht, t.place?_of_grows hfirst.toGrows ▸ hplace⟩

theorem newIn_writeSheets (hroot : .parent ∉ root.components)
    (h : (writeSheets root sheets files).result = .ok report) :
    NewIn (AtOrAbove (IsTarget root files sheets)) files (writeSheets root sheets files).files := by
  induction sheets generalizing files report with
  | nil => exact NewIn.refl _ files
  | cons s rest ih =>
    obtain ⟨wasWritten, report', hone, hothers, hfiles, -⟩ := writeSheets_cons_ok h
    have hgrows := (changesIn_writeSheet hone).toGrows
    rw [hfiles]
    refine ((newIn_writeSheet hroot hone).mono fun place => AtOrAbove.mono fun target htarget =>
        isTarget_cons.mpr (.inl htarget)).trans
      ((ih hothers).mono fun place => AtOrAbove.mono fun target htarget =>
        isTarget_cons.mpr (.inr ?_))
    obtain ⟨t, ht, hplace⟩ := htarget
    exact ⟨t, ht, t.place?_of_grows hgrows ▸ hplace⟩

/-- The last sheet for a file decides what the file holds. -/
theorem get?_of_findRev? (h : (writeSheets root sheets files).result = .ok report)
    {last : GeneratedSheet}
    (hlast : sheets.findRev? (·.place? root files = some place) = some last) :
    (writeSheets root sheets files).files.get? place = some (.file last.text.toUTF8) := by
  induction sheets generalizing files report with
  | nil => cases hlast
  | cons s rest ih =>
    obtain ⟨wasWritten, report', hone, hothers, hfiles, -⟩ := writeSheets_cons_ok h
    have hgrows := (changesIn_writeSheet hone).toGrows
    rw [hfiles]
    rw [List.findRev?] at hlast
    split at hlast
    · next later hlater =>
      cases hlast
      exact ih hothers (by simpa only [GeneratedSheet.place?_of_grows hgrows] using hlater)
    · next hnone =>
      split at hlast
      · next hplace =>
        cases hlast
        -- no later sheet is for this file, so it stays as this one leaves it
        have hrest : ¬ IsTarget root (writeSheet root last files).files rest place := by
          rintro ⟨t, ht, htarget⟩
          rw [t.place?_of_grows hgrows] at htarget
          exact findRev?_eq_none.mp hnone t ht (decide_eq_true htarget)
        obtain ⟨target, hresolve, hread, -⟩ := writeSheet_ok hone
        have hfile := (read_eq_ok_iff.mp hread).2
        rw [decide_eq_true_iff, GeneratedSheet.place?_of_resolve hresolve] at hplace
        rw [hgrows.place_eq, Option.some.inj hplace] at hfile
        exact (changesIn_writeSheets hothers).file _ _ hrest hfile
      · cases hlast

/-! ## The report -/

/-- The file system at the turn of the sheet number `i`. -/
def atTurn (root : Path) (sheets : List GeneratedSheet) (files : FileSystem) (i : Nat) :
    FileSystem :=
  (writeSheets root (sheets.take i) files).files

theorem atTurn_succ (h : (writeSheet root s files).result = .ok wasWritten) (i : Nat) :
    atTurn root (s :: sheets) files (i + 1) =
      atTurn root sheets (writeSheet root s files).files i := by
  rw [atTurn, List.take_succ_cons, atTurn]
  simp only [writeSheets, h]
  split
  · rfl
  · rfl

/-- The sheets that were settled at their turn are reported as unchanged, the others as
written, both in order. -/
theorem report_eq (h : (writeSheets root sheets files).result = .ok report) :
    report.written = (sheets.zipIdx.filter fun x =>
        ¬ x.1.Settled root (atTurn root sheets files x.2)).map (·.1.path) ∧
      report.unchanged = (sheets.zipIdx.filter fun x =>
        x.1.Settled root (atTurn root sheets files x.2)).map (·.1.path) := by
  induction sheets generalizing files report with
  | nil =>
    cases h
    exact ⟨rfl, rfl⟩
  | cons s rest ih =>
    obtain ⟨wasWritten, report', hone, hothers, hfiles, rfl⟩ := writeSheets_cons_ok h
    obtain ⟨hwritten, hunchanged⟩ := ih hothers
    have hfirst : s.Settled root (atTurn root (s :: rest) files 0) ↔ wasWritten = false :=
      (writeSheet_eq_false_iff hone).symm
    have hlater : ∀ x : GeneratedSheet × Nat,
        x.1.Settled root (atTurn root (s :: rest) files (x.2 + 1)) ↔
          x.1.Settled root (atTurn root rest (writeSheet root s files).files x.2) := fun x => by
      rw [atTurn_succ hone]
    rw [List.zipIdx_cons', List.filter_cons, List.filter_cons, List.filter_map, List.filter_map]
    simp only [Function.comp_def, Prod.map, id_eq, hfirst, hlater]
    cases wasWritten with
    | true => simp [WriteReport.cons, hwritten, hunchanged]
    | false => simp [WriteReport.cons, hwritten, hunchanged]

/-- If nothing is reported as written, nothing happened. -/
theorem files_eq_of_written_eq_nil (h : (writeSheets root sheets files).result = .ok report)
    (hwritten : report.written = []) : (writeSheets root sheets files).files = files := by
  induction sheets generalizing files report with
  | nil => rfl
  | cons s rest ih =>
    obtain ⟨wasWritten, report', hone, hothers, hfiles, rfl⟩ := writeSheets_cons_ok h
    cases wasWritten with
    | true => cases hwritten
    | false =>
      have hsettled := (writeSheet_eq_false_iff hone).mp rfl
      rw [writeSheet_of_settled hsettled] at hothers hfiles
      rw [hfiles, ih hothers hwritten]

/-- What a successful run leaves.

* The file of every sheet holds the text of the last sheet for it.
* Other files are as they were, nothing is removed, and directories stay directories.
* What is new is at the file of a sheet, or a directory above one.
* The sheets that were settled at their turn are reported as unchanged, the others as
  written, both in order; and if nothing is reported as written, nothing happened. -/
theorem writeSheets_leaves (hroot : .parent ∉ root.components) {log : List LogRecord}
    (h : writeSheets root sheets files = ⟨after, log, .ok report⟩) :
    (∀ s ∈ sheets, ∃ place last, s.place? root files = some place ∧
        sheets.findRev? (·.place? root files = some place) = some last ∧
          after.get? place = some (.file last.text.toUTF8)) ∧
      (∀ place content, files.get? place = some (.file content) →
        (∀ s ∈ sheets, s.place? root files ≠ some place) →
          after.get? place = some (.file content)) ∧
      (∀ place, (files.get? place).isSome = true → (after.get? place).isSome = true) ∧
      (∀ place, files.get? place = some .directory → after.get? place = some .directory) ∧
      (∀ place, files.get? place = none → (after.get? place).isSome = true →
        ∃ s ∈ sheets, ∃ target, s.place? root files = some target ∧
          (place = target ∨ place <+: target ∧ after.get? place = some .directory)) ∧
      report.written = (sheets.zipIdx.filter fun x =>
        ¬ x.1.Settled root (atTurn root sheets files x.2)).map (·.1.path) ∧
      report.unchanged = (sheets.zipIdx.filter fun x =>
        x.1.Settled root (atTurn root sheets files x.2)).map (·.1.path) ∧
      (report.changed = false → after = files) := by
  have hresult : (writeSheets root sheets files).result = .ok report := by rw [h]
  have hafter : after = (writeSheets root sheets files).files := by rw [h]
  have hchange := changesIn_writeSheets hresult
  obtain ⟨hwritten, hunchanged⟩ := report_eq hresult
  rw [hafter]
  refine ⟨?_, ?_, hchange.isSome, hchange.directory, ?_, hwritten, hunchanged, ?_⟩
  · intro s hs
    obtain ⟨target, hresolve⟩ := exists_resolve_of_writeSheets hresult hs
    have hplace : s.place? root files = some (files.place target) :=
      GeneratedSheet.place?_of_resolve hresolve
    cases hlast : sheets.findRev? (·.place? root files = some (files.place target)) with
    | none => exact absurd (decide_eq_true hplace) (findRev?_eq_none.mp hlast s hs)
    | some last => exact ⟨_, last, hplace, hlast, get?_of_findRev? hresult hlast⟩
  · intro place content hfile hnone
    refine hchange.file place content ?_ hfile
    rintro ⟨s, hs, hplace⟩
    exact hnone s hs hplace
  · intro place hnone hsome
    by_cases htarget : IsTarget root files sheets place
    · obtain ⟨s, hs, hplace⟩ := htarget
      exact ⟨s, hs, place, hplace, .inl rfl⟩
    · obtain ⟨target, ⟨s, hs, hplace⟩, habove⟩ :=
        newIn_writeSheets hroot hresult place hnone hsome
      obtain ⟨e, he⟩ := Option.isSome_iff_exists.mp hsome
      have hdirectory := hchange.new place e htarget hnone he
      exact ⟨s, hs, target, hplace, .inr ⟨habove, hdirectory ▸ he⟩⟩
  · intro hchanged
    refine files_eq_of_written_eq_nil hresult ?_
    simpa [WriteReport.changed] using hchanged

/-- A directory with a file that is no sheet's, and one that is settled. -/
def twoFiles : FileSystem :=
  ⟨[(["out"], .directory), (["out", "keep"], .file "k".toUTF8),
    (["out", "b.uss"], .file "b".toUTF8)], []⟩

/-- Two spellings of one file, a settled sheet, a sheet in a new directory, and a sheet that
is settled by the time it is written. -/
def fiveSheets : List GeneratedSheet :=
  [⟨⟨"a.uss"⟩, "x"⟩, ⟨⟨"b.uss"⟩, "b"⟩, ⟨⟨"./a.uss"⟩, "y"⟩, ⟨⟨"d/c.uss"⟩, ""⟩, ⟨⟨"a.uss"⟩, "y"⟩]

/-- The later text of `a.uss` remains, and the file that is no sheet's is kept. -/
theorem writeSheets_leaves_five_sheets :
    let run := writeSheets ⟨"out"⟩ fiveSheets twoFiles
    run.result = .ok ⟨[⟨"a.uss"⟩, ⟨"./a.uss"⟩, ⟨"d/c.uss"⟩], [⟨"b.uss"⟩, ⟨"a.uss"⟩]⟩ ∧
      run.files.get? ["out", "a.uss"] = some (.file "y".toUTF8) ∧
      run.files.get? ["out", "keep"] = some (.file "k".toUTF8) := by
  intro run
  have h : run = ⟨_, _, .ok ⟨[⟨"a.uss"⟩, ⟨"./a.uss"⟩, ⟨"d/c.uss"⟩], [⟨"b.uss"⟩, ⟨"a.uss"⟩]⟩⟩ := rfl
  obtain ⟨htargets, hkept, -⟩ := writeSheets_leaves (by decide +kernel) h
  obtain ⟨place, last, hplace, hlast, hfile⟩ := htargets ⟨⟨"a.uss"⟩, "x"⟩ List.mem_cons_self
  cases hplace
  have htext : last = ⟨⟨"a.uss"⟩, "y"⟩ := by
    have hfound : fiveSheets.findRev? (·.place? ⟨"out"⟩ twoFiles = some ["out", "a.uss"]) =
        some ⟨⟨"a.uss"⟩, "y"⟩ := by decide +kernel
    exact Option.some.inj (hlast.symm.trans hfound)
  rw [htext] at hfile
  exact ⟨rfl, hfile, hkept ["out", "keep"] _ rfl (by decide +kernel)⟩

end StyleSheet
