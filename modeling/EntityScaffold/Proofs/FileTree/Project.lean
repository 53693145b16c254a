import EntityScaffold.Proofs.FileTree.Change

/-
The source files of a project: paths below its root, through plain folders, to a file. No source file stands on the way
to another one, so a tree goes on accepting a source file, or not, whatever other source files are written.
-/

namespace EntityScaffold

/-- A path below a project's root that leads through plain folders to a file of source text. -/
structure Path.IsSource (q : Path) : Prop where
  below : q.root = .here
  folders : ∀ part ∈ q.parent.parts, '.' ∉ part
  ending : ".ts".toList <:+ q.name

namespace Path.IsSource

variable {q : Path}

theorem ne_nil (h : q.IsSource) : q.parts ≠ [] := by
  intro hnil
  have ending := h.ending
  rw [Path.name, hnil] at ending
  exact absurd ending (by decide)

theorem dot (h : q.IsSource) : '.' ∈ q.name := h.ending.subset (by decide)

theorem plain (h : q.IsSource) : ∀ part ∈ q.parts, part ≠ "..".toList := by
  rw [Path.parts_eq h.ne_nil]
  intro part hm
  rcases List.mem_append.1 hm with hm | hm
  · rintro rfl
    exact h.folders _ hm (by decide)
  · rw [List.mem_singleton.1 hm]
    intro hup
    have ending := h.ending
    rw [hup] at ending
    exact absurd ending (by decide)

theorem parts_div (h : q.IsSource) (root : Path) : (root / q).parts = root.parts ++ q.parts := by
  obtain ⟨r, parts⟩ := q
  obtain rfl : r = .here := h.below
  rfl

theorem root_div (h : q.IsSource) (root : Path) : (root / q).root = root.root := by
  obtain ⟨r, parts⟩ := q
  obtain rfl : r = .here := h.below
  rfl

theorem parent_div (h : q.IsSource) (root : Path) :
    (root / q).parent = ⟨root.root, root.parts ++ q.parent.parts⟩ := by
  rw [Path.parent, h.parts_div, List.dropLast_append_of_ne_nil h.ne_nil, ← h.root_div root]
  rfl

theorem name_div (h : q.IsSource) (root : Path) : (root / q).name = q.name := by
  rw [Path.name, Path.name, h.parts_div, List.getLast?_append_of_ne_nil _ h.ne_nil]

theorem named (h : q.IsSource) (root : Path) : (root / q).HasName := by
  constructor
  · rw [h.parts_div]
    exact List.append_ne_nil_of_right_ne_nil _ h.ne_nil
  · rw [h.name_div, Path.name, List.getLast?_eq_some_getLast h.ne_nil]
    exact h.plain _ (List.getLast_mem h.ne_nil)

end Path.IsSource

namespace FileTree

variable {t u : FileTree} {root q q' : Path} {here l : Location} {ps : List Text}

theorem climb_plain (h : ∀ part ∈ ps, part ≠ "..".toList) (here : Location) : climb here ps = here ++ ps := by
  induction ps generalizing here with
  | nil => simp
  | cons part ps ih =>
    rw [climb_on (h part List.mem_cons_self), ih (fun q hq => h q (List.mem_cons_of_mem _ hq)), List.append_assoc]
    rfl

theorem prefix_of_mem_passed (h : ∀ part ∈ ps, part ≠ "..".toList) (hl : l ∈ passed here ps) :
    ∃ qs, qs ≠ [] ∧ qs <+: ps ∧ l = here ++ qs := by
  induction ps generalizing here with
  | nil => exact absurd hl List.not_mem_nil
  | cons part ps ih =>
    rw [passed_on (h part List.mem_cons_self)] at hl
    rcases List.mem_cons.1 hl with rfl | hl
    · exact ⟨[part], by simp, by simp, rfl⟩
    · obtain ⟨qs, -, hqs, rfl⟩ := ih (fun q hq => h q (List.mem_cons_of_mem _ hq)) hl
      exact ⟨part :: qs, by simp, (List.cons_prefix_cons).2 ⟨rfl, hqs⟩, by simp⟩

theorem start_div (h : q.IsSource) : t.start (root / q) = t.start root := by
  rw [start, start, Path.isAbsolute, Path.isAbsolute, h.root_div]

theorem locationOf_div (h : q.IsSource) : t.locationOf (root / q) = t.locationOf root ++ q.parts := by
  rw [locationOf, locationOf, start_div h, h.parts_div, climb_append, climb_plain h.plain]

theorem passedBy_div (h : q.IsSource) :
    t.passedBy (root / q).parent = t.passedBy root ++ passed (t.locationOf root) q.parent.parts := by
  rw [passedBy, passedBy, h.parent_div, passed_append]
  rfl

theorem passedBy_root_subset (h : q.IsSource) : t.passedBy root ⊆ t.passedBy (root / q).parent := by
  rw [passedBy_div h]
  exact List.subset_append_left _ _

theorem passedBy_root_of_mem (h : q.IsSource) (h' : q'.IsSource)
    (hl : t.locationOf (root / q) ∈ t.passedBy (root / q').parent) : t.locationOf (root / q) ∈ t.passedBy root := by
  rw [passedBy_div h'] at hl
  rcases List.mem_append.1 hl with hl | hl
  · exact hl
  · have plain : ∀ part ∈ q'.parent.parts, part ≠ "..".toList :=
      fun part hm => h'.plain part (List.mem_of_mem_dropLast hm)
    obtain ⟨qs, -, hqs, heq⟩ := prefix_of_mem_passed plain hl
    rw [locationOf_div h] at heq
    have same : q.parts = qs := List.append_cancel_left heq
    have last : q.name ∈ q.parts := by
      rw [Path.parts_eq h.ne_nil]
      simp
    exact absurd h.dot (h'.folders _ (hqs.subset (same ▸ last)))

theorem locationOf_div_inj (h : q.IsSource) (h' : q'.IsSource)
    (heq : t.locationOf (root / q) = t.locationOf (root / q')) : q = q' := by
  rw [locationOf_div h, locationOf_div h'] at heq
  obtain ⟨r, parts⟩ := q
  obtain ⟨r', parts'⟩ := q'
  obtain rfl : r = .here := h.below
  obtain rfl : r' = .here := h'.below
  exact congrArg (Path.mk .here) (List.append_cancel_left heq)

/-- The locations that lie on a way to a source file. -/
def ways (t : FileTree) (root : Path) : Set Location :=
  {l | ∃ q : Path, q.IsSource ∧ l ∈ t.passedBy (root / q).parent}

/-- The locations of source files, where the way to the root does not lead through them. -/
def sources (t : FileTree) (root : Path) (files : Set Path) : Set Location :=
  {l | ∃ q ∈ files, q.IsSource ∧ l = t.locationOf (root / q) ∧ l ∉ t.passedBy root}

/-- Some source files were written, and folders were made on the ways to source files. -/
abbrev SourceChange (root : Path) (files : Set Path) (t u : FileTree) : Prop :=
  Change (t.ways root) (t.sources root files) t u

theorem sources_mono {files files' : Set Path} (h : files ⊆ files') :
    t.sources root files ⊆ t.sources root files' := by
  rintro l ⟨q, hq, rest⟩
  exact ⟨q, h hq, rest⟩

theorem Change.ways_eq {made written : Set Location} (h : Change made written t u) (root : Path) :
    u.ways root = t.ways root := by
  simp only [ways, h.passedBy]

theorem Change.sources_eq {made written : Set Location} (h : Change made written t u) (root : Path)
    (files : Set Path) : u.sources root files = t.sources root files := by
  simp only [sources, h.passedBy, h.locationOf]

theorem SourceChange.trans {v : FileTree} {files files' : Set Path} (h : SourceChange root files t u)
    (h' : SourceChange root files' u v) : SourceChange root (files ∪ files') t v := by
  rw [SourceChange, h.ways_eq, h.sources_eq] at h'
  exact (h.mono (le_refl _) (sources_mono Set.subset_union_left)).trans
    (h'.mono (le_refl _) (sources_mono Set.subset_union_right))

theorem SourceChange.mono {files files' : Set Path} (h : SourceChange root files t u) (sub : files ⊆ files') :
    SourceChange root files' t u := Change.mono h (le_refl _) (sources_mono sub)

theorem SourceChange.of_written (hq : q.IsSource) (accepts : t.Accepts (root / q))
    (h : Change {l | l ∈ t.passedBy (root / q).parent} {t.locationOf (root / q)} t u) :
    SourceChange root {q} t u := by
  refine Change.mono h (fun l hl => ⟨q, hq, hl⟩) ?_
  rintro l rfl
  exact ⟨q, rfl, hq, rfl, fun hl => accepts.off (passedBy_root_subset hq hl)⟩

theorem SourceChange.of_refused (hq : q.IsSource) (h : Change {l | l ∈ t.passedBy (root / q).parent} ∅ t u)
    (files : Set Path) : SourceChange root files t u :=
  Change.mono h (fun _ hl => ⟨q, hq, hl⟩) (Set.empty_subset _)

/-- Whatever other source files are written: a source file is accepted as it was before. -/
theorem SourceChange.accepts_iff {files : Set Path} (h : SourceChange root files t u) (hq : q.IsSource)
    (other : q ∉ files) : u.Accepts (root / q) ↔ t.Accepts (root / q) := by
  refine Change.accepts_iff h ?_ ?_
  · rintro l ⟨q', hmem, hq', rfl, off⟩
    refine ⟨fun hl => off (passedBy_root_of_mem hq' hq hl), fun heq => ?_⟩
    exact other (locationOf_div_inj hq' hq heq ▸ hmem)
  · rintro ⟨q', hq', hl⟩
    exact passedBy_root_subset hq (passedBy_root_of_mem hq hq' hl)

theorem locationOf_not_mem_sources {files : Set Path} (hq : q.IsSource) (other : q ∉ files) :
    t.locationOf (root / q) ∉ t.sources root files := by
  rintro ⟨q', hmem, hq', heq, -⟩
  exact other (locationOf_div_inj hq hq' heq ▸ hmem)

theorem not_mem_sources_of_name {files : Set Path} {name : Text} (hname : ¬ ".ts".toList <:+ name) :
    here ++ [name] ∉ t.sources root files := by
  rintro ⟨q, -, hq, heq, -⟩
  rw [locationOf_eq (hq.named root), hq.name_div] at heq
  have same : name = q.name := by simpa using (List.append_inj' heq rfl).2
  exact hname (same ▸ hq.ending)

end FileTree

end EntityScaffold
