import EntityScaffold.Proofs.Data.Reader
import EntityScaffold.Settings.Basic
import Mathlib.Data.List.DropRight

/-
Settings that stay readable. Whatever data settings are read from and whatever is assigned to them afterwards, they keep to
their bounds, and the data that is written for them gives them again.
-/

namespace EntityScaffold

open Data Data.Reader
open Checked (map_eq_good functor_map_eq_good seq_eq_good)

theorem Text.trimEnd_slashes_iff {t : Text} : trimEnd (· = '/') t = t ↔ t.getLast? ≠ some '/' := by
  have last : trimEnd (· = '/') t = t ↔ ∀ shown : t ≠ [], ¬ decide (t.getLast shown = '/') = true :=
    List.rdropWhile_eq_self_iff
  rw [last]
  constructor
  · intro h slash
    obtain ⟨shown, same⟩ := List.mem_getLast?_eq_getLast slash
    exact h shown (decide_eq_true same.symm)
  · intro h shown slash
    exact h (by rw [List.getLast?_eq_some_getLast shown, of_decide_eq_true slash])

theorem Artifact.Family.mem_all (f : Family) : f ∈ all := by cases f <;> decide

namespace SharedFile

structure Insertion.IsWritten (i : Insertion) : Prop where
  anchor : i.anchor ≠ []
  snippet : i.snippet ≠ []

/-- A shared file with a name, a path, a marker and insertions. -/
structure Target.IsWritten (t : Target) : Prop where
  name : t.name ≠ []
  filePath : t.filePath ≠ []
  existenceMarker : t.existenceMarker ≠ []
  insertions : t.insertions ≠ []
  written : ∀ i ∈ t.insertions, i.IsWritten

end SharedFile

namespace Settings

open SharedFile (Insertion Target)

section Parts

theorem recovers_prefix : Recovers readPrefix .text fun t => t.getLast? ≠ some '/' where
  valid {d v} read := by
    obtain ⟨t, -, rfl⟩ := map_eq_good.1 read
    exact Text.trimEnd_slashes_iff.1 (List.rdropWhile_idempotent _ t)
  recovered {v} valid := map_eq_good.2 ⟨v, rfl, Text.trimEnd_slashes_iff.2 valid⟩

theorem recovers_optionalText : Recovers (optional text) (optionDatum .text) fun o => ∀ t ∈ o, True :=
  recovers_text.optional rfl (fun _ => rfl) nofun

theorem recovers_insertion : Recovers Records.insertion insertionDatum Insertion.IsWritten where
  valid {d i} read := by
    obtain ⟨es, -, read, -⟩ := record_eq_good.1 read
    simp only [seq_eq_good, functor_map_eq_good] at read
    obtain ⟨_, _, ⟨_, _, ⟨_, anchor, rfl⟩, snippet, rfl⟩, -, rfl⟩ := read
    exact ⟨recovers_nonEmptyText.valid_of_required anchor, recovers_nonEmptyText.valid_of_required snippet⟩
  recovered {i} written := by
    refine record_ofEntries rfl (by decide) fun entry => ?_
    have anchor := recovers_nonEmptyText.required written.anchor (entry (k := "anchor".toList) (by simp))
    have snippet := recovers_nonEmptyText.required written.snippet (entry (k := "snippet".toList) (by simp))
    have sectionName := recovers_optionalText.withDefault none (fun _ _ => trivial)
      (entry (k := "section".toList) (d := optionDatum .text i.sectionName) (by simp))
    rw [anchor, snippet, sectionName]
    rfl

theorem recovers_target : Recovers Records.target targetDatum Target.IsWritten where
  valid {d t} read := by
    obtain ⟨es, -, read, -⟩ := record_eq_good.1 read
    simp only [seq_eq_good, functor_map_eq_good] at read
    obtain ⟨_, _, ⟨_, _, ⟨_, _, ⟨_, name, rfl⟩, filePath, rfl⟩, marker, rfl⟩, insertions, rfl⟩ := read
    obtain ⟨some_, written⟩ := (recovers_insertion.tupleFrom 1).valid_of_required insertions
    exact {
      name := recovers_nonEmptyText.valid_of_required name
      filePath := recovers_nonEmptyText.valid_of_required filePath
      existenceMarker := recovers_nonEmptyText.valid_of_required marker
      insertions := List.ne_nil_of_length_pos some_
      written := written }
  recovered {t} written := by
    refine record_ofEntries rfl (by decide) fun entry => ?_
    have name := recovers_nonEmptyText.required written.name (entry (k := "name".toList) (by simp))
    have filePath := recovers_nonEmptyText.required written.filePath (entry (k := "file_path".toList) (by simp))
    have marker := recovers_nonEmptyText.required written.existenceMarker
      (entry (k := "existence_marker".toList) (by simp))
    have insertions := (recovers_insertion.tupleFrom 1).required
      ⟨List.length_pos_of_ne_nil written.insertions, written.written⟩ (entry (k := "insertions".toList) (by simp))
    rw [name, filePath, marker, insertions]
    rfl

theorem recovers_targets : Recovers readTargets (optionDatum fun ts => .list (ts.map targetDatum))
    fun o => ∀ ts ∈ o, ∀ t ∈ ts, t.IsWritten :=
  recovers_target.list.optional rfl (fun _ => rfl) nofun

theorem recovers_folders : Recovers readFolders foldersDatum fun _ => True where
  valid _ := trivial
  recovered {f} _ := by
    refine record_ofEntries (by simp [Function.comp_def]) (by decide) fun entry => ?_
    have folder (family : Artifact.Family) := recovers_text.withDefault family.defaultFolder trivial
      (entry (List.mem_map.2 ⟨family, family.mem_all, rfl⟩))
    simp only [folder]
    rfl

theorem recovers_texts : Recovers Records.texts Datum.texts fun ts => ∀ t ∈ ts, True := recovers_text.tuple

end Parts

section Whole

theorem Key.mem_all (k : Key) : k ∈ all := by cases k <;> decide

def datum (s : Settings) : Key → Datum
  | .projectRoot => .text s.projectRoot
  | .schemaPath => .text s.schemaPath
  | .templatesFolder => optionDatum .text s.templatesFolder
  | .apiPrefix => .text s.apiPrefix
  | .folders => foldersDatum s.folders
  | .targets => optionDatum (fun ts => .list (ts.map targetDatum)) s.targets
  | .maxLength => .int s.maxLength
  | .optionalCap => .int s.optionalCap
  | .invalidCap => .int s.invalidCap
  | .systemFields => .texts s.systemFields
  | .optionalSystemFields => .texts s.optionalSystemFields

theorem toDatum_eq (s : Settings) : s.toDatum = .ofEntries (Key.all.map fun k => (k.name, s.datum k)) := rfl

structure IsValid (s : Settings) : Prop where
  maxLength : 1 ≤ s.maxLength
  optionalCap : 0 ≤ s.optionalCap
  invalidCap : 0 ≤ s.invalidCap
  apiPrefix : s.apiPrefix.getLast? ≠ some '/'
  targets : ∀ ts ∈ s.targets, ∀ t ∈ ts, t.IsWritten

theorem isValid_default : IsValid {} :=
  ⟨by decide, by decide, by decide, by decide, fun ts h => by cases h⟩

theorem recovers_settings : Recovers ofDatum toDatum IsValid where
  valid {d s} read := by
    obtain ⟨es, -, read, -⟩ := record_eq_good.1 read
    simp only [seq_eq_good, functor_map_eq_good] at read
    obtain ⟨_, _, ⟨_, _, ⟨_, _, ⟨_, _, ⟨_, _, ⟨_, _, ⟨_, _, ⟨_, _, ⟨_, _, ⟨_, _, ⟨_, -, rfl⟩, -, rfl⟩, -, rfl⟩, apiPrefix, rfl⟩,
      -, rfl⟩, targets, rfl⟩, maxLength, rfl⟩, optionalCap, rfl⟩, invalidCap, rfl⟩, -, rfl⟩, -, rfl⟩ := read
    exact {
      maxLength := (recovers_integerFrom 1).valid_of_withDefault isValid_default.maxLength maxLength
      optionalCap := (recovers_integerFrom 0).valid_of_withDefault isValid_default.optionalCap optionalCap
      invalidCap := (recovers_integerFrom 0).valid_of_withDefault isValid_default.invalidCap invalidCap
      apiPrefix := recovers_prefix.valid_of_withDefault isValid_default.apiPrefix apiPrefix
      targets := recovers_targets.valid_of_withDefault isValid_default.targets targets }
  recovered {s} valid := by
    rw [toDatum_eq]
    unfold ofDatum
    refine record_ofEntries (by simp [Function.comp_def]) (by decide) fun entry => ?_
    have entry (k : Key) := entry (List.mem_map.2 ⟨k, k.mem_all, rfl⟩)
    -- Every setting has an entry of its own, so that no default is taken.
    have projectRoot := recovers_text.withDefault ({} : Settings).projectRoot trivial (entry .projectRoot)
    have schemaPath := recovers_text.withDefault ({} : Settings).schemaPath trivial (entry .schemaPath)
    have templatesFolder := recovers_optionalText.withDefault ({} : Settings).templatesFolder (fun _ _ => trivial)
      (entry .templatesFolder)
    have apiPrefix := recovers_prefix.withDefault ({} : Settings).apiPrefix valid.apiPrefix (entry .apiPrefix)
    have folders := recovers_folders.withDefault ({} : Settings).folders trivial (entry .folders)
    have targets := recovers_targets.withDefault ({} : Settings).targets valid.targets (entry .targets)
    have maxLength := (recovers_integerFrom 1).withDefault ({} : Settings).maxLength valid.maxLength (entry .maxLength)
    have optionalCap := (recovers_integerFrom 0).withDefault ({} : Settings).optionalCap valid.optionalCap
      (entry .optionalCap)
    have invalidCap := (recovers_integerFrom 0).withDefault ({} : Settings).invalidCap valid.invalidCap
      (entry .invalidCap)
    have systemFields := recovers_texts.withDefault ({} : Settings).systemFields (fun _ _ => trivial)
      (entry .systemFields)
    have optionalSystemFields := recovers_texts.withDefault ({} : Settings).optionalSystemFields (fun _ _ => trivial)
      (entry .optionalSystemFields)
    simp only [projectRoot, schemaPath, templatesFolder, apiPrefix, folders, targets, readMaxLength, readCap,
      maxLength, optionalCap, invalidCap, systemFields, optionalSystemFields]
    rfl

end Whole

section Assignments

variable {s s' : Settings} {a : Assignment} {k k' : Key} {d : Datum} {name : Text}

theorem Key.name_of_ofName? (h : ofName? name = some k) : k.name = name := by simpa using List.find?_some h

theorem Family.name_of_ofName? {family : Artifact.Family} (h : Artifact.Family.ofName? name = some family) :
    family.name = name := by simpa using List.find?_some h

theorem IsValid.set (valid : s.IsValid) (h : s.set k d = .good s') : s'.IsValid := by
  have h := Checked.within_eq_good.1 h
  -- Five settings have bounds, which their readers see to; the others are free.
  cases k
  case apiPrefix =>
    obtain ⟨v, read, rfl⟩ := map_eq_good.1 h
    exact { valid with apiPrefix := recovers_prefix.valid read }
  case targets =>
    obtain ⟨v, read, rfl⟩ := map_eq_good.1 h
    exact { valid with targets := recovers_targets.valid read }
  case maxLength =>
    obtain ⟨v, read, rfl⟩ := map_eq_good.1 h
    exact { valid with maxLength := (recovers_integerFrom 1).valid read }
  case optionalCap =>
    obtain ⟨v, read, rfl⟩ := map_eq_good.1 h
    exact { valid with optionalCap := (recovers_integerFrom 0).valid read }
  case invalidCap =>
    obtain ⟨v, read, rfl⟩ := map_eq_good.1 h
    exact { valid with invalidCap := (recovers_integerFrom 0).valid read }
  all_goals
    obtain ⟨v, -, rfl⟩ := map_eq_good.1 h
    exact { valid with }

theorem datum_set (h : s.set k d = .good s') (other : k' ≠ k) : s'.datum k' = s.datum k' := by
  have h := Checked.within_eq_good.1 h
  cases k
  all_goals
    obtain ⟨v, -, rfl⟩ := map_eq_good.1 h
    cases k' <;> first | rfl | exact absurd rfl other

theorem eq_of_assignOther (h : s.assignOther name = .good s') : s' = s := by
  unfold assignOther at h
  split at h
  · exact (Checked.good.inj h).symm
  · exact absurd (Checked.within_eq_good.1 h) Checked.refuse_ne_good

theorem assign_cases (h : s.assign name d = .good s') : (∃ k, k.name = name ∧ s.set k d = .good s') ∨ s' = s := by
  unfold assign at h
  split at h
  · next k found => exact .inl ⟨k, Key.name_of_ofName? found, h⟩
  · exact .inr (eq_of_assignOther h)

theorem assignFolder_cases (h : s.assignFolder name d = .good s') :
    (∃ family folder, family.name = name ∧ s' = { s with folders := s.folders.put family folder }) ∨ s' = s := by
  unfold assignFolder at h
  split at h
  · next family found =>
    obtain ⟨folder, -, rfl⟩ := map_eq_good.1 h
    exact .inl ⟨family, folder, Family.name_of_ofName? found, rfl⟩
  · exact .inr (eq_of_assignOther h)

/-- Nothing but what an assignment names is changed: no other setting, and with a folder no folder of another family. -/
def Spares (s s' : Settings) : Assignment → Prop
  | .setting name _ => ∀ k, k.name ≠ name → s'.datum k = s.datum k
  | .folder name _ =>
    (∀ k ≠ .folders, s'.datum k = s.datum k) ∧ ∀ f, f.name ≠ name → s'.folders.of f = s.folders.of f

theorem IsValid.checked (valid : s.IsValid) (h : s.checked a = .good s') : s'.IsValid := by
  cases a with
  | setting name d =>
    obtain ⟨k, -, changed⟩ | rfl := assign_cases h
    · exact valid.set changed
    · exact valid
  | folder name d =>
    obtain ⟨family, folder, -, rfl⟩ | rfl := assignFolder_cases h
    · exact { valid with }
    · exact valid

theorem spares_checked (h : s.checked a = .good s') : s.Spares s' a := by
  cases a with
  | setting name d =>
    obtain ⟨k, rfl, changed⟩ | rfl := assign_cases h
    · exact fun k' other => datum_set changed fun same => other (same ▸ rfl)
    · exact fun _ _ => rfl
  | folder name d =>
    obtain ⟨family, folder, rfl, rfl⟩ | rfl := assignFolder_cases h
    · refine ⟨fun k other => by cases k <;> first | rfl | exact absurd rfl other, fun f other => ?_⟩
      have apart : f ≠ family := fun same => other (same ▸ rfl)
      simp [Artifact.Folders.put, apart]
    · exact ⟨fun _ _ => rfl, fun _ _ => rfl⟩

theorem after_of_good (h : s.checked a = .good s') : s.after a = s' := by rw [after, h]

theorem after_of_bad {issues : List Issue} (h : s.checked a = .bad issues) : s.after a = s := by rw [after, h]

theorem IsValid.after (valid : s.IsValid) (a : Assignment) : (s.after a).IsValid := by
  cases h : s.checked a with
  | good s' =>
    rw [after_of_good h]
    exact valid.checked h
  | bad issues =>
    rw [after_of_bad h]
    exact valid

theorem IsValid.foldl_after (valid : s.IsValid) (as : List Assignment) : (as.foldl Settings.after s).IsValid := by
  induction as generalizing s with
  | nil => exact valid
  | cons a as ih => exact ih (valid.after a)

/-- Settings that are read from any data and assigned to any number of times: they are within their bounds, and the data that is
written for them gives the same settings. One more assignment leaves them as they are when it is refused, and else changes only
what it names. -/
theorem stable_after (read : ofDatum d = .good s) (as : List Assignment) :
    let now := as.foldl after s
    now.IsValid ∧ ofDatum now.toDatum = .good now ∧
    ∀ a, (∀ issues, now.checked a = .bad issues → (as ++ [a]).foldl after s = now) ∧
      ∀ s', now.checked a = .good s' → (as ++ [a]).foldl after s = s' ∧ now.Spares s' a := by
  intro now
  have valid : now.IsValid := (recovers_settings.valid read).foldl_after as
  have next (a : Assignment) : (as ++ [a]).foldl after s = now.after a := List.foldl_concat ..
  refine ⟨valid, recovers_settings.recovered valid, fun a => ⟨fun issues refused => ?_, fun s' accepted => ?_⟩⟩
  · rw [next, after_of_bad refused]
  · rw [next, after_of_good accepted]
    exact ⟨rfl, spares_checked accepted⟩

/-- Settings of a file, and assignments to them of which some are refused. -/
def sampleDatum : Datum := .ofEntries [
  ("api_prefix".toList, .text "/z//".toList), ("string_max_length".toList, .text " 12 ".toList)]

def sampleAssignments : List Assignment := [
  .setting "string_max_length".toList (.int 0),
  .setting "api_prefix".toList (.text "/a/".toList),
  .folder "models".toList (.text "app/models".toList),
  .folder "views".toList (.text "app/views".toList),
  .setting "patch_targets".toList (.list [.ofEntries []])]

theorem stable_after_sample :
    let read : Settings := { apiPrefix := "/z".toList, maxLength := 12 }
    let now : Settings := { apiPrefix := "/a".toList, maxLength := 12, folders := { models := "app/models".toList } }
    ofDatum sampleDatum = .good read ∧ sampleAssignments.foldl after read = now ∧
      now.IsValid ∧ ofDatum now.toDatum = .good now := by
  intro read now
  have good : ofDatum sampleDatum = .good read := by decide +kernel
  have final : sampleAssignments.foldl after read = now := by decide +kernel
  obtain ⟨valid, again, -⟩ := stable_after good sampleAssignments
  rw [final] at valid again
  exact ⟨good, final, valid, again⟩

end Assignments

end Settings

end EntityScaffold
