import StyleSheet.Proofs.Output.Settled
import StyleSheet.Proofs.Registry

/-!
# Generating again

Generating a registry again should change nothing: once its sheets were written, checking
them should find nothing to report, and writing them again should touch no file.

The registry keeps paths apart by their components, and a dot at the start is a
component.  So `a.uss` and `./a.uss` are two sheets with one file, and the second one
overwrites the first.  This is the only way in which it goes wrong (`regeneration_iff`):
a registry in which such a pair has one text is settled once it was written.
-/

namespace StyleSheet

variable {ε : Type} {root : Path} {files after : FileSystem} {sheets : List GeneratedSheet}

/-- Settled sheets are those that are up to date and are left alone. -/
theorem upToDate_iff_settled :
    (checkSheets root files sheets = ([], .ok []) ∧
        writeSheets root sheets files = ⟨files, [], .ok ⟨[], sheets.map (·.path)⟩⟩) ↔
      ∀ s ∈ sheets, s.Settled root files := by
  rw [checkSheets_eq_nil_iff]
  exact ⟨fun h => h.1, fun h => ⟨h, writeSheets_of_settled h⟩⟩

/-- A dot at the start of an output path is no step. -/
theorem Path.steps_eq_of_current {p q target target' : Path}
    (hp : resolve root p = .ok target) (hq : resolve root q = .ok target')
    (h : p.components = .current :: q.components) : p.steps = q.steps := by
  have hdots : p.undotted = q.undotted := by
    rw [undotted, undotted, h]
    rfl
  rwa [undotted_eq, undotted_eq, isAbsolute_of_resolve hp, isAbsolute_of_resolve hq] at hdots

/-- Sheets of a registry with one file are the same, or a dot at the start tells their
paths apart. -/
theorem Registry.text_eq_iff {calls : List (Call ε)} {report : WriteReport}
    (h : (writeSheets root (run calls).generateAll files).result = .ok report) :
    (∀ s ∈ (run calls).generateAll, ∀ t ∈ (run calls).generateAll,
        s.path.steps = t.path.steps → s.text = t.text) ↔
      ∀ s ∈ (run calls).generateAll, ∀ t ∈ (run calls).generateAll,
        s.path.components = .current :: t.path.components → s.text = t.text := by
  constructor
  · intro hsteps s hs t ht hdot
    obtain ⟨target, hresolve⟩ := exists_resolve_of_writeSheets h hs
    obtain ⟨target', hresolve'⟩ := exists_resolve_of_writeSheets h ht
    exact hsteps s hs t ht (Path.steps_eq_of_current hresolve hresolve' hdot)
  · intro hdot s hs t ht hsteps
    obtain ⟨target, hresolve⟩ := exists_resolve_of_writeSheets h hs
    obtain ⟨target', hresolve'⟩ := exists_resolve_of_writeSheets h ht
    rcases Path.components_of_steps_eq (Path.isAbsolute_of_resolve hresolve)
      (Path.isAbsolute_of_resolve hresolve') hsteps with heq | heq | heq
    · rw [eq_of_components_eq hs ht heq]
    · exact hdot s hs t ht heq
    · exact (hdot t ht s hs heq).symm

/-- After the sheets of a registry were written, they are up to date and writing them
again leaves all files alone, exactly if a dot makes no difference: sheets with paths that
differ in a dot at the start have the same text. -/
theorem regeneration_iff (calls : List (Registry.Call ε)) (root : Path) (files : FileSystem)
    (report : WriteReport) {log : List LogRecord}
    (hsheets : (Registry.run calls).generateAll = sheets)
    (h : writeSheets root sheets files = ⟨after, log, .ok report⟩) :
    (checkSheets root after sheets = ([], .ok []) ∧
        writeSheets root sheets after = ⟨after, [], .ok ⟨[], sheets.map (·.path)⟩⟩) ↔
      ∀ s ∈ sheets, ∀ t ∈ sheets,
        s.path.components = .current :: t.path.components → s.text = t.text := by
  subst hsheets
  have hresult : (writeSheets root (Registry.run calls).generateAll files).result = .ok report := by
    rw [h]
  have hafter : (writeSheets root (Registry.run calls).generateAll files).files = after := by
    rw [h]
  rw [upToDate_iff_settled, ← Registry.text_eq_iff hresult, ← settled_iff hresult, hafter]

/-- A registry of two sheets. -/
def twoSheets (p q : Path) : Registry :=
  Registry.run (ε := Empty) [.declare p [⟨.raw ".a", []⟩], .declare q [⟨.raw ".b", []⟩]]

/-- Two sheets with files of their own are up to date once they were written. -/
theorem regeneration_iff_two_files :
    let sheets := (twoSheets ⟨"a.uss"⟩ ⟨"./b.uss"⟩).generateAll
    let after := (writeSheets ⟨"out"⟩ sheets ⟨[], []⟩).files
    checkSheets ⟨"out"⟩ after sheets = ([], .ok []) ∧
      writeSheets ⟨"out"⟩ sheets after = ⟨after, [], .ok ⟨[], [⟨"a.uss"⟩, ⟨"./b.uss"⟩]⟩⟩ :=
  (regeneration_iff _ _ ⟨[], []⟩ ⟨[⟨"a.uss"⟩, ⟨"./b.uss"⟩], []⟩ rfl rfl).mpr (by decide +kernel)

/-- With `a.uss` and `./a.uss` the first sheet is out of date once both were written. -/
theorem not_regeneration :
    ¬ ∀ (calls : List (Registry.Call Empty)) (root : Path) (files : FileSystem)
      (report : WriteReport),
      (writeSheets root (Registry.run calls).generateAll files).result = .ok report →
        (checkSheets root (writeSheets root (Registry.run calls).generateAll files).files
          (Registry.run calls).generateAll).2 = .ok [] := by
  intro hall
  have hcheck := hall _ ⟨"out"⟩ ⟨[], []⟩ ⟨[⟨"a.uss"⟩, ⟨"./a.uss"⟩], []⟩
    (rfl : (writeSheets _ (twoSheets ⟨"a.uss"⟩ ⟨"./a.uss"⟩).generateAll _).result = _)
  have hstale : (checkSheets ⟨"out"⟩
      (writeSheets ⟨"out"⟩ (twoSheets ⟨"a.uss"⟩ ⟨"./a.uss"⟩).generateAll ⟨[], []⟩).files
      (twoSheets ⟨"a.uss"⟩ ⟨"./a.uss"⟩).generateAll).2 =
        .ok [⟨⟨"a.uss"⟩, .changed [.missing ".a", .unexpected ".b"]⟩] := rfl
  have hfalse := hstale.symm.trans hcheck
  cases hfalse

end StyleSheet
