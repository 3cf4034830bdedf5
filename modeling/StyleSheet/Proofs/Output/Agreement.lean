import Mathlib.Data.List.Nodup
import StyleSheet.Proofs.FileSystem.Tree
import StyleSheet.Proofs.Output.FinalState

/-!
# Checking foretells writing

A run looks for the file of each sheet in the tree that the earlier sheets have left, while
a check looks for all of them in the tree as it is.  If no two sheets have one file, both
find the same: an earlier sheet can add directories on the way to a later file, but cannot
make it appear, and what is in its way stays there (`GeneratedSheet.Finds.of_changesIn`).

So if a run succeeds, a check before it succeeds, and tells which sheets the run will write
(`checkSheets_of_writeSheets`).
-/

namespace StyleSheet

open FileSystem

variable {root target : Path} {files now : FileSystem} {s : GeneratedSheet}
  {sheets : List GeneratedSheet} {report : WriteReport} {wasWritten : Bool}
  {existing : Option ByteArray}

/-- The file of the sheet can be looked for, and this is what is found. -/
def GeneratedSheet.Finds (root : Path) (files : FileSystem) (s : GeneratedSheet)
    (existing : Option ByteArray) : Prop :=
  ∃ target, Path.resolve root s.path = .ok target ∧ files.readIfPresent target = .ok existing

namespace GeneratedSheet.Finds

/-- Whether a sheet is settled depends on what is found only. -/
theorem settled_iff (h : s.Finds root files existing) :
    s.Settled root files ↔ staleness? s.text existing = none := by
  obtain ⟨target, hresolve, hfound⟩ := h
  rw [staleness?_eq_none_iff]
  constructor
  · rintro ⟨target', hresolve', hread⟩
    cases hresolve.symm.trans hresolve'
    exact Except.ok.inj (hfound.symm.trans (readIfPresent_eq_some_iff.mpr hread))
  · rintro rfl
    exact ⟨target, hresolve, readIfPresent_eq_some_iff.mp hfound⟩

/-- What is found after changes elsewhere is found before them. -/
theorem of_changesIn (htree : files.IsTree) (hroot : .parent ∉ root.components)
    {targets : Location → Prop} (hchange : ChangesIn targets files now)
    (hne : ∀ place, s.place? root files = some place → ¬ targets place)
    (h : s.Finds root now existing) : s.Finds root files existing := by
  obtain ⟨target, hresolve, hfound⟩ := h
  obtain ⟨names, hnames⟩ :=
    Path.exists_names_of_parent_notMem (Path.parent_notMem_of_resolve_target hroot hresolve)
  exact ⟨target, hresolve, htree.readIfPresent_of_changesIn hnames hchange
    (hne _ (place?_of_resolve hresolve)) hfound⟩

end GeneratedSheet.Finds

/-- A sheet can only be written if its file can be looked for. -/
theorem exists_finds_of_writeSheet (h : (writeSheet root s files).result = .ok wasWritten) :
    ∃ existing, s.Finds root files existing := by
  obtain ⟨target, existing, hresolve, hexisting, -⟩ := writeSheet_inv h
  exact ⟨existing, target, hresolve, hexisting⟩

/-- A run that has changed no file of these sheets yet finds, sheet by sheet, what was there
at first. -/
theorem writeSheets_finds (htree : files.IsTree) (hroot : .parent ∉ root.components)
    (hdistinct : sheets.Pairwise fun s t => s.place? root files ≠ t.place? root files)
    {targets : Location → Prop} (hchange : ChangesIn targets files now)
    (hne : ∀ s ∈ sheets, ∀ place, s.place? root files = some place → ¬ targets place)
    (h : (writeSheets root sheets now).result = .ok report) :
    (∀ s ∈ sheets, ∃ existing, s.Finds root files existing) ∧
      report.written = (sheets.filter fun s => ¬ s.Settled root files).map (·.path) ∧
      report.unchanged = (sheets.filter fun s => s.Settled root files).map (·.path) := by
  induction sheets generalizing now targets report with
  | nil =>
    cases h
    exact ⟨fun s hs => absurd hs List.not_mem_nil, rfl, rfl⟩
  | cons s rest ih =>
    obtain ⟨wasWritten, report', hone, hothers, -, rfl⟩ := writeSheets_cons_ok h
    obtain ⟨hfirst, hlater⟩ := List.pairwise_cons.mp hdistinct
    obtain ⟨hs, hrest⟩ := List.forall_mem_cons.mp hne
    obtain ⟨existing, hnow⟩ := exists_finds_of_writeSheet hone
    have hfinds := hnow.of_changesIn htree hroot hchange hs
    have hsettled : wasWritten = false ↔ s.Settled root files := by
      rw [writeSheet_eq_false_iff hone, hnow.settled_iff, hfinds.settled_iff]
    -- the rest has to stay clear of the file of this sheet, too
    have hstep : ChangesIn (fun place => targets place ∨ s.place? root files = some place) files
        (writeSheet root s now).files := by
      refine (hchange.mono fun place => .inl).trans
        ((changesIn_writeSheet hone).mono fun place hplace => .inr ?_)
      rwa [s.place?_of_grows hchange.toGrows] at hplace
    have hclear : ∀ t ∈ rest, ∀ place, t.place? root files = some place →
        ¬ (targets place ∨ s.place? root files = some place) := by
      rintro t ht place hplace (htarget | hsame)
      · exact hrest t ht place hplace htarget
      · exact hfirst t ht (hsame.trans hplace.symm)
    obtain ⟨hfound, hwritten, hunchanged⟩ := ih hlater hstep hclear hothers
    refine ⟨List.forall_mem_cons.mpr ⟨⟨existing, hfinds⟩, hfound⟩, ?_⟩
    rw [List.filter_cons, List.filter_cons]
    simp only [← hsettled]
    cases wasWritten with
    | true => simp [WriteReport.cons, hwritten, hunchanged]
    | false => simp [WriteReport.cons, hwritten, hunchanged]

/-- If the files of all sheets can be looked for, those that are not settled are stale. -/
theorem checkSheets_of_finds (h : ∀ s ∈ sheets, ∃ existing, s.Finds root files existing) :
    ∃ stale, (checkSheets root files sheets).2 = .ok stale ∧
      stale.map (·.path) = (sheets.filter fun s => ¬ s.Settled root files).map (·.path) ∧
      ∀ z ∈ stale, ∃ (s : GeneratedSheet) (existing : Option ByteArray),
        s.Finds root files existing ∧ z.path = s.path ∧
          staleness? s.text existing = some z.staleness := by
  induction sheets with
  | nil => exact ⟨[], rfl, rfl, fun z hz => absurd hz List.not_mem_nil⟩
  | cons s rest ih =>
    obtain ⟨⟨existing, hfinds⟩, hrest⟩ := List.forall_mem_cons.mp h
    obtain ⟨stale, hcheck, hpaths, hstale⟩ := ih hrest
    rw [List.filter_cons]
    simp only [hfinds.settled_iff]
    obtain ⟨target, hresolve, hfound⟩ := hfinds
    simp only [checkSheets, hresolve, hfound]
    cases hstaleness : staleness? s.text existing with
    | none => exact ⟨stale, hcheck, by simpa using hpaths, hstale⟩
    | some staleness =>
      have hs : s.Finds root files existing := ⟨target, hresolve, hfound⟩
      exact ⟨⟨s.path, staleness⟩ :: stale, by rw [hcheck]; rfl, by simpa using hpaths,
        List.forall_mem_cons.mpr ⟨⟨s, existing, hs, rfl, hstaleness⟩, hstale⟩⟩

theorem staleness?_eq_missing_iff {text : String} {staleness : Staleness}
    (h : staleness? text existing = some staleness) : staleness = .missing ↔ existing = none := by
  cases existing with
  | none =>
    cases h
    exact iff_of_true rfl rfl
  | some content =>
    unfold staleness? at h
    dsimp only at h
    split at h
    · cases h
    · cases h
      exact iff_of_false (fun hmissing => by cases hmissing) fun hnone => by cases hnone

/-- What is not picked has the images that the picked do not have. -/
theorem filter_notMem_map_filter {α β : Type} [DecidableEq β] {f : α → β} {xs : List α}
    (hnodup : (xs.map f).Nodup) (p : α → Prop) [DecidablePred p] :
    (xs.map f).filter (· ∉ (xs.filter fun x => ¬ p x).map f) = (xs.filter p).map f := by
  rw [List.filter_map]
  refine congrArg (List.map f) (List.filter_congr fun x hx => ?_)
  rw [Function.comp_apply, decide_eq_decide]
  constructor
  · intro hnot
    by_contra hx'
    exact hnot (List.mem_map_of_mem (List.mem_filter.mpr ⟨hx, decide_eq_true hx'⟩))
  · intro hpx hmem
    obtain ⟨y, hy, hxy⟩ := List.mem_map.mp hmem
    obtain ⟨hy, hpy⟩ := List.mem_filter.mp hy
    rw [List.inj_on_of_nodup_map hnodup hy hx hxy] at hpy
    exact of_decide_eq_true hpy hpx

/-- Checking foretells writing.

If no two sheets have one file, and writing them succeeds, then checking them before
succeeds, too.  It reports as stale, in order, the sheets that are going to be written, and
passes over those that are going to be left alone; and a stale sheet is reported as missing
exactly if there is nothing at its place. -/
theorem checkSheets_of_writeSheets (htree : files.IsTree) (hroot : .parent ∉ root.components)
    (hdistinct : sheets.Pairwise fun s t => ∀ target target',
      Path.resolve root s.path = .ok target → Path.resolve root t.path = .ok target' →
        target.undotted ≠ target'.undotted)
    {after : FileSystem} {log : List LogRecord}
    (h : writeSheets root sheets files = ⟨after, log, .ok report⟩) :
    ∃ stale, (checkSheets root files sheets).2 = .ok stale ∧
      stale.map (·.path) = report.written ∧
      (sheets.map (·.path)).filter (· ∉ stale.map (·.path)) = report.unchanged ∧
      ∀ z ∈ stale, ∃ target, Path.resolve root z.path = .ok target ∧
        (z.staleness = .missing ↔ files.get? (files.place target) = none) := by
  have hresult : (writeSheets root sheets files).result = .ok report := by rw [h]
  have hplaces : sheets.Pairwise fun s t => s.place? root files ≠ t.place? root files := by
    refine hdistinct.imp_of_mem fun {s t} hs ht hne hsame => ?_
    obtain ⟨target, hresolve⟩ := exists_resolve_of_writeSheets hresult hs
    obtain ⟨target', hresolve'⟩ := exists_resolve_of_writeSheets hresult ht
    rw [GeneratedSheet.place?_of_resolve hresolve, GeneratedSheet.place?_of_resolve hresolve',
      Option.some.injEq] at hsame
    refine hne target target' hresolve hresolve' ?_
    rw [Path.undotted_eq_iff_of_resolve hresolve hresolve']
    exact (locate_eq_iff_of_resolve hresolve hresolve' files.workingDirectory).mp hsame
  have hnodup : (sheets.map (·.path)).Nodup := by
    refine List.pairwise_map.mpr (hplaces.imp fun {s t} hne hpath => hne ?_)
    rw [GeneratedSheet.place?, GeneratedSheet.place?, hpath]
  obtain ⟨hfound, hwritten, hunchanged⟩ := writeSheets_finds htree hroot hplaces
    (ChangesIn.refl (fun _ => False) files) (fun _ _ _ _ => not_false) hresult
  obtain ⟨stale, hcheck, hpaths, hstale⟩ := checkSheets_of_finds hfound
  refine ⟨stale, hcheck, hpaths.trans hwritten.symm, ?_, ?_⟩
  · rw [hpaths, hunchanged]
    exact filter_notMem_map_filter hnodup _
  · intro z hz
    obtain ⟨s, existing, ⟨target, hresolve, hfind⟩, hpath, hstaleness⟩ := hstale z hz
    obtain ⟨names, hnames⟩ :=
      Path.exists_names_of_parent_notMem (Path.parent_notMem_of_resolve_target hroot hresolve)
    refine ⟨target, hpath ▸ hresolve, ?_⟩
    rw [staleness?_eq_missing_iff hstaleness]
    exact htree.eq_none_iff hnames (Path.text_ne_of_resolve hresolve) hfind

/-- One sheet is settled, the file of one has another text, and that of one is missing, with
the directory for it. -/
def threeSheets : List GeneratedSheet :=
  [⟨⟨"b.uss"⟩, "b"⟩, ⟨⟨"./keep"⟩, "y"⟩, ⟨⟨"d/c.uss"⟩, "c"⟩]

/-- The two that are not settled are stale, and only the last is missing. -/
theorem checkSheets_of_writeSheets_three_sheets :
    twoFiles.IsTree ∧ ∃ stale, (checkSheets ⟨"out"⟩ twoFiles threeSheets).2 = .ok stale ∧
      stale.map (·.path) = [⟨"./keep"⟩, ⟨"d/c.uss"⟩] ∧
      ∀ z ∈ stale, z.staleness = .missing ↔ z.path = ⟨"d/c.uss"⟩ := by
  have htree : twoFiles.IsTree := by decide +kernel
  have hdistinct : threeSheets.Pairwise fun s t => ∀ target target',
      Path.resolve ⟨"out"⟩ s.path = .ok target → Path.resolve ⟨"out"⟩ t.path = .ok target' →
        target.undotted ≠ target'.undotted := by
    refine List.Pairwise.imp (R := fun s t => s.path.steps ≠ t.path.steps) ?_ (by decide +kernel)
    intro s t hne target target' hresolve hresolve' hsame
    exact hne ((Path.undotted_eq_iff_of_resolve hresolve hresolve').mp hsame)
  have hrun : writeSheets ⟨"out"⟩ threeSheets twoFiles =
      ⟨_, _, .ok ⟨[⟨"./keep"⟩, ⟨"d/c.uss"⟩], [⟨"b.uss"⟩]⟩⟩ := rfl
  obtain ⟨stale, hcheck, hpaths, -, hmissing⟩ :=
    checkSheets_of_writeSheets htree (by decide +kernel) hdistinct hrun
  refine ⟨htree, stale, hcheck, hpaths, fun z hz => ?_⟩
  obtain ⟨target, hresolve, hiff⟩ := hmissing z hz
  have hpath : z.path ∈ stale.map (·.path) := List.mem_map_of_mem hz
  rw [hpaths] at hpath
  rw [hiff]
  rcases List.mem_cons.mp hpath with hkeep | hnew
  · rw [hkeep] at hresolve ⊢
    cases hresolve
    decide +kernel
  · rw [List.mem_singleton.mp hnew] at hresolve ⊢
    cases hresolve
    decide +kernel

end StyleSheet
