import EntityScaffold.Artifact.Catalog
import EntityScaffold.Proofs.FileTree.Project
import EntityScaffold.Proofs.Naming
import EntityScaffold.Proofs.Text.Lines
import EntityScaffold.SharedFile.Target
import Mathlib.Data.List.Nodup

/-
The places of artifacts and shared files in a project: all are source files, and no two of them share a place, be they
of one entity or of entities whose names differ below their first letters.
-/

namespace EntityScaffold

open Naming (Identifier)

theorem Naming.Identifier.no_slash (e : Identifier) : '/' ∉ e.name :=
  fun hm => absurd (List.all_eq_true.1 e.word _ hm) (by decide)

theorem Path.ofText_of_not_mem {t : Text} (hslash : '/' ∉ t) (hidle : Path.isIdle t = false) :
    Path.ofText t = ⟨.here, [t]⟩ := by
  have root : Path.rootOf t = .here := by
    unfold Path.rootOf
    split <;> first | rfl | simp at hslash
  simp [Path.ofText, root, Text.splitAt_of_not_mem hslash, hidle]

theorem Path.ofText_append_cons {w n : Text} (dotted : w.head? = some '.') (hslash : '/' ∉ n)
    (hidle : Path.isIdle n = false) : Path.ofText (w ++ '/' :: n) = ⟨.here, (Path.ofText w).parts ++ [n]⟩ := by
  have root : Path.rootOf (w ++ '/' :: n) = .here := by
    cases w with
    | nil => simp at dotted
    | cons c r =>
      obtain rfl : c = '.' := by simpa using dotted
      rfl
  rw [Path.ofText, root, Text.splitAt_append_cons, Text.splitAt_of_not_mem hslash, List.filter_append]
  simp [Path.ofText, hidle]

theorem Path.ofText_text {ps : List Text} (ne : ps ≠ []) (slash : ∀ part ∈ ps, '/' ∉ part)
    (busy : ∀ part ∈ ps, Path.isIdle part = false) : Path.ofText (Path.text ⟨.here, ps⟩) = ⟨.here, ps⟩ := by
  have text : Path.text ⟨.here, ps⟩ = Text.joinWith ['/'] ps := Path.text_of_parts ne
  have root : Path.rootOf (Text.joinWith ['/'] ps) = .here := by
    obtain ⟨p, qs, rfl⟩ := List.exists_cons_of_ne_nil ne
    cases p with
    | nil => exact absurd (busy [] List.mem_cons_self) (by decide)
    | cons c r =>
      have hc : c ≠ '/' := fun he => slash (c :: r) List.mem_cons_self (he ▸ List.mem_cons_self)
      have starts : ∃ rest, Text.joinWith ['/'] ((c :: r) :: qs) = c :: rest := by
        cases qs with
        | nil => exact ⟨r, by simp [Text.joinWith]⟩
        | cons q qs => exact ⟨r ++ '/' :: Text.joinWith ['/'] (q :: qs), Text.joinWith_cons_cons '/' (c :: r) q qs⟩
      obtain ⟨rest, hrest⟩ := starts
      rw [hrest]
      unfold Path.rootOf
      split <;> first | rfl | simp_all
  rw [Path.ofText, text, root, Text.splitAt_joinWith ne slash, List.filter_eq_self.2]
  intro part hm
  simp [busy part hm]

namespace Artifact

variable {k k' : Kind} {e f : Identifier}

theorem Kind.mem_all (k : Kind) : k ∈ Kind.all := by
  cases k <;> decide

/-- The folder of a kind below a project's root, unless the settings name another. -/
def Kind.folder (k : Kind) : Path :=
  match k.layout.subfolder with
  | some sub => Path.ofText k.layout.family.defaultFolder / Path.ofText sub
  | none => Path.ofText k.layout.family.defaultFolder

theorem outputPath_eq_folder (k : Kind) (entity : Text) :
    outputPath {} k entity = k.folder / Path.ofText (k.layout.fileName entity) := by
  cases k <;> rfl

theorem Kind.folder_root (k : Kind) : k.folder.root = .here :=
  (show ∀ k ∈ Kind.all, k.folder.root = .here by decide) k k.mem_all

theorem Kind.folder_plain (k : Kind) : ∀ part ∈ k.folder.parts, '.' ∉ part :=
  (show ∀ k ∈ Kind.all, ∀ part ∈ k.folder.parts, '.' ∉ part by decide) k k.mem_all

theorem Kind.folder_inj (h : k.folder.parts = k'.folder.parts) : k = k' := by
  have nodup : (Kind.all.map fun k => k.folder.parts).Nodup := by decide
  exact List.inj_on_of_nodup_map nodup k.mem_all k'.mem_all h

theorem Kind.ending_source (k : Kind) : ".ts".toList <:+ k.layout.ending :=
  (show ∀ k ∈ Kind.all, ".ts".toList <:+ k.layout.ending by decide) k k.mem_all

theorem Kind.ending_no_slash (k : Kind) : '/' ∉ k.layout.ending :=
  (show ∀ k ∈ Kind.all, '/' ∉ k.layout.ending by decide) k k.mem_all

theorem fileName_source (k : Kind) (entity : Text) : ".ts".toList <:+ k.layout.fileName entity :=
  k.ending_source.trans (List.suffix_append _ _)

theorem fileName_no_slash (k : Kind) {entity : Text} (h : '/' ∉ entity) : '/' ∉ k.layout.fileName entity := by
  intro hm
  rcases List.mem_append.1 hm with hm | hm
  · split at hm
    · exact h hm
    · exact Naming.not_mem_lowerCamel (by decide) h hm
  · exact k.ending_no_slash hm

theorem fileName_not_idle (k : Kind) (entity : Text) : Path.isIdle (k.layout.fileName entity) = false := by
  have long := (fileName_source k entity).length_le
  rw [Path.isIdle, Bool.or_eq_false_iff]
  constructor
  · cases h : k.layout.fileName entity with
    | nil => simp [h] at long
    | cons c r => rfl
  · refine decide_eq_false fun h => ?_
    simp [h] at long

theorem fileName_ne_up (k : Kind) (entity : Text) : k.layout.fileName entity ≠ "..".toList := by
  intro h
  have long := (fileName_source k entity).length_le
  simp [h] at long

theorem outputPath_eq (k : Kind) (e : Identifier) :
    outputPath {} k e.name = ⟨.here, k.folder.parts ++ [k.layout.fileName e.name]⟩ := by
  rw [outputPath_eq_folder, Path.ofText_of_not_mem (fileName_no_slash k e.no_slash) (fileName_not_idle k e.name)]
  have root := k.folder_root
  generalize k.folder = folder at root ⊢
  obtain ⟨r, parts⟩ := folder
  obtain rfl : r = .here := root
  rfl

theorem Kind.folder_clean (k : Kind) : ∀ part ∈ k.folder.parts, '/' ∉ part ∧ Path.isIdle part = false := by
  have checks : ∀ k ∈ Kind.all, ∀ part ∈ k.folder.parts, '/' ∉ part ∧ Path.isIdle part = false := by
    decide
  exact checks k k.mem_all

theorem outputPath_of_text (k : Kind) (e : Identifier) :
    Path.ofText (outputPath {} k e.name).text = outputPath {} k e.name := by
  rw [outputPath_eq]
  refine Path.ofText_text (by simp) ?_ ?_
  · intro part hm
    rcases List.mem_append.1 hm with hm | hm
    · exact (k.folder_clean part hm).1
    · rw [List.mem_singleton.1 hm]
      exact fileName_no_slash k e.no_slash
  · intro part hm
    rcases List.mem_append.1 hm with hm | hm
    · exact (k.folder_clean part hm).2
    · rw [List.mem_singleton.1 hm]
      exact fileName_not_idle k e.name

theorem outputPath_source (k : Kind) (e : Identifier) : (outputPath {} k e.name).IsSource := by
  rw [outputPath_eq]
  refine ⟨rfl, ?_, ?_⟩
  · simpa [Path.parent] using k.folder_plain
  · simpa [Path.name] using fileName_source k e.name

/-- Artifacts that share a place are of one kind, and of entities whose names differ in the first letter's case at
most. -/
theorem outputPath_inj (h : outputPath {} k e.name = outputPath {} k' f.name) :
    k = k' ∧ Naming.lowerCamel e.name = Naming.lowerCamel f.name := by
  rw [outputPath_eq, outputPath_eq] at h
  obtain ⟨folders, names⟩ := List.append_inj' (Path.mk.inj h).2 rfl
  obtain rfl := Kind.folder_inj folders
  refine ⟨rfl, ?_⟩
  have names : k.layout.fileName e.name = k.layout.fileName f.name := by simpa using names
  have starts := List.append_cancel_right names
  split at starts
  · exact congrArg Naming.lowerCamel starts
  · exact starts

end Artifact

namespace SharedFile

def Target.place (t : Target) : Path := Path.ofText t.filePath

variable {t t' : Target}

theorem place_source (ht : t ∈ builtIn) : t.place.IsSource := by
  have checks : ∀ t ∈ builtIn, t.place.root = .here ∧ (∀ part ∈ t.place.parent.parts, '.' ∉ part) ∧
      ".ts".toList <:+ t.place.name := by decide
  obtain ⟨below, folders, ending⟩ := checks t ht
  exact ⟨below, folders, ending⟩

theorem nodup_builtIn : builtIn.Nodup := by
  decide

theorem place_inj (ht : t ∈ builtIn) (ht' : t' ∈ builtIn) (h : t.place = t'.place) : t = t' := by
  have nodup : (builtIn.map Target.place).Nodup := by decide
  exact List.inj_on_of_nodup_map nodup ht ht' h

theorem place_ne_outputPath (ht : t ∈ builtIn) (k : Artifact.Kind) (e : Identifier) :
    t.place ≠ Artifact.outputPath {} k e.name := by
  have checks : ∀ t ∈ builtIn, ∀ k ∈ Artifact.Kind.all,
      t.place.parent.parts ≠ k.folder.parts ∨ ¬ k.layout.ending <:+ t.place.name := by decide
  intro h
  rcases checks t ht k k.mem_all with folder | ending
  · refine folder ?_
    rw [h, Artifact.outputPath_eq]
    simp [Path.parent]
  · refine ending ?_
    rw [h, Artifact.outputPath_eq]
    simp only [Path.name, List.getLast?_append, List.getLast?_singleton, Option.some_or, Option.getD_some]
    exact List.suffix_append _ _

end SharedFile

end EntityScaffold
