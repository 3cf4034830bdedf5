import StyleSheet.Output.Check
import StyleSheet.Output.Write
import StyleSheet.Proofs.FileSystem.Files

/-!
# Sheets whose files hold their texts

A sheet is settled (`GeneratedSheet.Settled`) if its file can be read and holds its text.
Settled sheets are what checking passes over and what writing leaves alone
(`checkSheets_eq_nil_iff`, `writeSheets_of_settled`).

Writing a sheet settles it (`writeSheet_ok`), and it stays settled until a sheet with
another text is written to its file.  So after a whole list was written, all of its sheets
are settled exactly if no two of them have one file and two texts (`settled_iff`).
-/

namespace StyleSheet

variable {root target : Path} {files : FileSystem} {s t : GeneratedSheet}
  {sheets : List GeneratedSheet}

/-- The file of the sheet holds its text. -/
def GeneratedSheet.Settled (root : Path) (files : FileSystem) (s : GeneratedSheet) : Prop :=
  ∃ target, Path.resolve root s.path = .ok target ∧ files.read target = .ok s.text.toUTF8

/-- Whether the file of the sheet holds its text. -/
def GeneratedSheet.isSettled (root : Path) (files : FileSystem) (s : GeneratedSheet) : Bool :=
  match Path.resolve root s.path with
  | .error _ => false
  | .ok target =>
    match files.read target with
    | .error _ => false
    | .ok content => sameContent content s.text.toUTF8

theorem GeneratedSheet.isSettled_iff : s.isSettled root files = true ↔ s.Settled root files := by
  unfold isSettled Settled
  cases Path.resolve root s.path with
  | error e => simp
  | ok target =>
    cases hread : files.read target with
    | error e => simp [hread]
    | ok content => simp [hread, sameContent_iff]

instance : Decidable (s.Settled root files) := decidable_of_iff _ GeneratedSheet.isSettled_iff

/-! ## Settled sheets are passed over -/

theorem staleness?_eq_none_iff {text : String} {existing : Option ByteArray} :
    staleness? text existing = none ↔ existing = some text.toUTF8 := by
  cases existing with
  | none => simp [staleness?]
  | some content =>
    show (if sameContent content text.toUTF8 then none else some _) = none ↔ _
    by_cases hsame : content = text.toUTF8
    · rw [if_pos ((sameContent_iff _ _).mpr hsame), hsame]
      exact iff_of_true rfl rfl
    · rw [if_neg fun h => hsame ((sameContent_iff _ _).mp h)]
      exact iff_of_false (fun h => by cases h) fun h => hsame (Option.some.inj h)

/-- Checking passes over a list of sheets exactly if all of them are settled. -/
theorem checkSheets_eq_nil_iff :
    checkSheets root files sheets = ([], .ok []) ↔ ∀ s ∈ sheets, s.Settled root files := by
  induction sheets with
  | nil => exact iff_of_true rfl fun s hs => by cases hs
  | cons s rest ih =>
    rw [List.forall_mem_cons, ← ih]
    constructor
    · intro h
      unfold checkSheets at h
      split at h
      · cases h
      · next target hresolve =>
        split at h
        · cases h
        · next existing hexisting =>
          dsimp only at h
          split at h
          · next hstale =>
            rw [staleness?_eq_none_iff.mp hstale] at hexisting
            exact ⟨⟨target, hresolve, FileSystem.readIfPresent_eq_some_iff.mp hexisting⟩, h⟩
          · cases h
    · rintro ⟨⟨target, hresolve, hread⟩, hrest⟩
      have hpresent := FileSystem.readIfPresent_eq_some_iff.mpr hread
      have hstale : staleness? s.text (some s.text.toUTF8) = none :=
        staleness?_eq_none_iff.mpr rfl
      simp only [checkSheets, hresolve, hpresent, hstale]
      exact hrest

theorem writeSheet_of_settled (h : s.Settled root files) :
    writeSheet root s files = ⟨files, [], .ok false⟩ := by
  obtain ⟨target, hresolve, hread⟩ := h
  have hpresent := FileSystem.readIfPresent_eq_some_iff.mpr hread
  have hsame : (some s.text.toUTF8).any (sameContent · s.text.toUTF8) = true :=
    (sameContent_iff _ _).mpr rfl
  simp only [writeSheet, hresolve, hpresent, if_pos hsame]

/-- Settled sheets are left alone. -/
theorem writeSheets_of_settled (h : ∀ s ∈ sheets, s.Settled root files) :
    writeSheets root sheets files = ⟨files, [], .ok ⟨[], sheets.map (·.path)⟩⟩ := by
  induction sheets with
  | nil => rfl
  | cons s rest ih =>
    obtain ⟨hs, hrest⟩ := List.forall_mem_cons.mp h
    simp only [writeSheets, writeSheet_of_settled hs, ih hrest]
    rfl

/-! ## Writing settles a sheet -/

/-- A write sets the file, and changes no other. -/
theorem writeTarget_ok {content : ByteArray}
    (h : (writeTarget target content files).result = .ok ()) :
    (writeTarget target content files).files.read target = .ok content ∧
      FileSystem.ChangesAt (files.place target) files
        (writeTarget target content files).files := by
  unfold writeTarget at h ⊢
  split at h
  · cases h
  · next made hmade =>
    have hextends : FileSystem.Extends files made := by
      have hparents := files.extends_makeDirectories target.components.reverse.tail
      rwa [← FileSystem.makeParents, hmade] at hparents
    split at h
    · cases h
    · next written hwrite =>
      have hchange := FileSystem.changesAt_of_write hwrite
      rw [hextends.grows.place_eq] at hchange
      exact ⟨(FileSystem.write_ok hwrite).2.2, (hextends.changesIn _).trans hchange⟩

/-- A sheet whose turn succeeds had its file looked for; the file holds its text already, or
is written. -/
theorem writeSheet_inv {wasWritten : Bool}
    (h : (writeSheet root s files).result = .ok wasWritten) :
    ∃ target existing, Path.resolve root s.path = .ok target ∧
      files.readIfPresent target = .ok existing ∧
      (wasWritten = false ∧ existing = some s.text.toUTF8 ∧
          (writeSheet root s files).files = files ∨
        wasWritten = true ∧ (writeTarget target s.text.toUTF8 files).result = .ok () ∧
          (writeSheet root s files).files = (writeTarget target s.text.toUTF8 files).files) := by
  unfold writeSheet at h ⊢
  split at h
  · cases h
  · next target hresolve =>
    split at h
    · cases h
    · next existing hexisting =>
      refine ⟨target, existing, hresolve, hexisting, ?_⟩
      split at h
      · next hsame =>
        obtain ⟨content, rfl, hcontent⟩ := (Option.any_eq_true _ _).mp hsame
        cases h
        rw [if_pos hsame, (sameContent_iff _ _).mp hcontent]
        exact .inl ⟨rfl, rfl, rfl⟩
      · next hother =>
        rw [if_neg hother]
        dsimp only at h ⊢
        split at h
        · cases h
        · next hrun =>
          cases h
          exact .inr ⟨rfl, hrun, rfl⟩

/-- A sheet that is written without failure is settled, and no file but its own changed. -/
theorem writeSheet_ok {wasWritten : Bool}
    (h : (writeSheet root s files).result = .ok wasWritten) :
    ∃ target, Path.resolve root s.path = .ok target ∧
      (writeSheet root s files).files.read target = .ok s.text.toUTF8 ∧
      FileSystem.ChangesAt (files.place target) files (writeSheet root s files).files := by
  obtain ⟨target, existing, hresolve, hexisting, ⟨-, rfl, hfiles⟩ | ⟨-, hrun, hfiles⟩⟩ :=
    writeSheet_inv h
  · have hread := FileSystem.readIfPresent_eq_some_iff.mp hexisting
    rw [hfiles]
    exact ⟨target, hresolve, hread, FileSystem.ChangesIn.refl _ files⟩
  · rw [hfiles]
    exact ⟨target, hresolve, writeTarget_ok hrun⟩

/-- A settled sheet stays settled when another one is written, unless that one has
another text for the same file. -/
theorem GeneratedSheet.Settled.writeSheet (hs : s.Settled root files) {wasWritten : Bool}
    (h : (writeSheet root t files).result = .ok wasWritten)
    (htext : s.path.steps = t.path.steps → s.text = t.text) :
    s.Settled root (StyleSheet.writeSheet root t files).files := by
  obtain ⟨target, hresolve, hread⟩ := hs
  obtain ⟨target', hresolve', hread', hchange⟩ := writeSheet_ok h
  refine ⟨target, hresolve, ?_⟩
  have hplace := locate_eq_iff_of_resolve hresolve hresolve' files.workingDirectory
  by_cases hsteps : s.path.steps = t.path.steps
  · -- the file is the same one, and so is its new text
    obtain ⟨hreach, -⟩ := FileSystem.read_eq_ok_iff.mp hread
    obtain ⟨-, hfile⟩ := FileSystem.read_eq_ok_iff.mp hread'
    refine FileSystem.read_eq_ok_iff.mpr ⟨hreach.mono hchange.toGrows, ?_⟩
    rw [hchange.place_eq] at hfile ⊢
    rw [FileSystem.place, hplace.mpr hsteps, htext hsteps]
    exact hfile
  · exact hchange.read (fun heq => hsteps (hplace.mp heq)) hread

/-! ## Writing a list -/

/-- A list is written one sheet after the other. -/
theorem writeSheets_cons_ok {report : WriteReport}
    (h : (writeSheets root (s :: sheets) files).result = .ok report) :
    ∃ wasWritten report', (writeSheet root s files).result = .ok wasWritten ∧
      (writeSheets root sheets (writeSheet root s files).files).result = .ok report' ∧
      (writeSheets root (s :: sheets) files).files =
        (writeSheets root sheets (writeSheet root s files).files).files ∧
      report = report'.cons s.path wasWritten := by
  cases hone : (writeSheet root s files).result with
  | error e =>
    simp only [writeSheets, hone] at h
    cases h
  | ok wasWritten =>
    cases hothers : (writeSheets root sheets (writeSheet root s files).files).result with
    | error e =>
      simp only [writeSheets, hone, hothers] at h
      cases h
    | ok report' =>
      simp only [writeSheets, hone, hothers] at h
      refine ⟨wasWritten, report', rfl, rfl, ?_, (Except.ok.inj h).symm⟩
      simp only [writeSheets, hone, hothers]

/-- The paths of sheets that are written are taken. -/
theorem exists_resolve_of_writeSheets {report : WriteReport}
    (h : (writeSheets root sheets files).result = .ok report) (hs : s ∈ sheets) :
    ∃ target, Path.resolve root s.path = .ok target := by
  induction sheets generalizing files report with
  | nil => cases hs
  | cons t rest ih =>
    obtain ⟨wasWritten, report', hone, hothers, -⟩ := writeSheets_cons_ok h
    rcases List.mem_cons.mp hs with rfl | hs
    · obtain ⟨target, hresolve, -⟩ := writeSheet_ok hone
      exact ⟨target, hresolve⟩
    · exact ih hothers hs

theorem GeneratedSheet.Settled.writeSheets (hs : s.Settled root files) {report : WriteReport}
    (h : (writeSheets root sheets files).result = .ok report)
    (htext : ∀ t ∈ sheets, s.path.steps = t.path.steps → s.text = t.text) :
    s.Settled root (StyleSheet.writeSheets root sheets files).files := by
  induction sheets generalizing files report with
  | nil => exact hs
  | cons t rest ih =>
    obtain ⟨wasWritten, report', hone, hothers, hfiles, -⟩ := writeSheets_cons_ok h
    obtain ⟨ht, hrest⟩ := List.forall_mem_cons.mp htext
    rw [hfiles]
    exact ih (hs.writeSheet hone ht) hothers hrest

/-- Sheets with a settled file in common have the same text. -/
theorem GeneratedSheet.Settled.text_eq (hs : s.Settled root files) (ht : t.Settled root files)
    (hsteps : s.path.steps = t.path.steps) : s.text = t.text := by
  obtain ⟨target, hresolve, hread⟩ := hs
  obtain ⟨target', hresolve', hread'⟩ := ht
  have hplace : files.place target = files.place target' :=
    (locate_eq_iff_of_resolve hresolve hresolve' files.workingDirectory).mpr hsteps
  have hfile := (FileSystem.read_eq_ok_iff.mp hread).2
  rw [hplace, (FileSystem.read_eq_ok_iff.mp hread').2] at hfile
  exact String.toByteArray_inj.mp (Entry.file.inj (Option.some.inj hfile)).symm

/-- After a list was written, its sheets are settled exactly if no file has two texts. -/
theorem settled_iff {report : WriteReport}
    (h : (writeSheets root sheets files).result = .ok report) :
    (∀ s ∈ sheets, s.Settled root (writeSheets root sheets files).files) ↔
      ∀ s ∈ sheets, ∀ t ∈ sheets, s.path.steps = t.path.steps → s.text = t.text := by
  constructor
  · intro hsettled s hs t ht
    exact (hsettled s hs).text_eq (hsettled t ht)
  · intro htext
    induction sheets generalizing files report with
    | nil => intro s hs; cases hs
    | cons s rest ih =>
      obtain ⟨wasWritten, report', hone, hothers, hfiles, -⟩ := writeSheets_cons_ok h
      rw [hfiles]
      refine List.forall_mem_cons.mpr ⟨?_, ?_⟩
      · obtain ⟨target, hresolve, hread, -⟩ := writeSheet_ok hone
        have hs : s.Settled root (writeSheet root s files).files := ⟨target, hresolve, hread⟩
        exact hs.writeSheets hothers fun t ht =>
          htext s List.mem_cons_self t (List.mem_cons_of_mem s ht)
      · exact ih hothers fun t ht u hu =>
          htext t (List.mem_cons_of_mem s ht) u (List.mem_cons_of_mem s hu)

end StyleSheet
