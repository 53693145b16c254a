import EntityScaffold.Proofs.Artifact.Places

/-
Artifacts do not share a file. Whatever the folders are, two kinds differ in the file's name: all but one put an ending of their
own after the same stem, and the model's stem is never longer than theirs, since lower case makes no name shorter. With the
standard folders each kind has one of its own besides, so that a file also tells the kind.
-/

namespace EntityScaffold

theorem Path.name_div_of_ne_nil (p q : Path) (ne : q.parts ≠ []) : (p / q).parts ≠ [] ∧ (p / q).name = q.name := by
  obtain ⟨r, parts⟩ := q
  cases r with
  | here =>
    have last := List.getLast?_append_of_ne_nil p.parts ne
    exact ⟨List.append_ne_nil_of_right_ne_nil p.parts ne, congrArg (Option.getD · []) last⟩
  | slash | doubleSlash => exact ⟨ne, rfl⟩

namespace Artifact

variable {k l : Kind} {entity other : Text} {folders : Folders}

theorem length_le_lowerCamel (entity : Text) : entity.length ≤ (Naming.lowerCamel entity).length := by
  cases entity with
  | nil => exact Nat.le_refl 0
  | cons c r =>
    have form := Text.lowerForm_lowerChar c
    have long : 1 ≤ (Text.lowerChar c).length := by
      generalize Text.lowerChar c = u at form
      cases form <;> simp
    rw [Naming.lowerCamel, List.length_append, List.length_cons]
    omega

theorem fileName_of_ne_model (h : k ≠ .model) (entity : Text) :
    k.layout.fileName entity = Naming.lowerCamel entity ++ k.layout.ending := by
  cases k with
  | model => exact absurd rfl h
  | _ => rfl

theorem ending_inj (h : k.layout.ending = l.layout.ending) : k = l := by
  have nodup : (Kind.all.map fun k => k.layout.ending).Nodup := by decide
  exact List.inj_on_of_nodup_map nodup k.mem_all l.mem_all h

theorem length_ending (h : k ≠ .model) : Kind.model.layout.ending.length < k.layout.ending.length :=
  (show ∀ k ∈ Kind.all, k ≠ .model → Kind.model.layout.ending.length < k.layout.ending.length by decide) k k.mem_all h

theorem fileName_model_ne (h : k ≠ .model) (entity : Text) :
    Kind.model.layout.fileName entity ≠ k.layout.fileName entity := by
  intro same
  have lengths := congrArg List.length same
  rw [fileName_of_ne_model h, show Kind.model.layout.fileName entity = entity ++ Kind.model.layout.ending from rfl,
    List.length_append, List.length_append] at lengths
  have stem := length_le_lowerCamel entity
  have ending := length_ending h
  omega

theorem kind_of_fileName (h : k.layout.fileName entity = l.layout.fileName entity) : k = l := by
  by_cases hk : k = .model
  · by_cases hl : l = .model
    · rw [hk, hl]
    · exact absurd (hk ▸ h) (fileName_model_ne hl entity)
  · by_cases hl : l = .model
    · exact absurd (hl ▸ h.symm) (fileName_model_ne hk entity)
    · rw [fileName_of_ne_model hk, fileName_of_ne_model hl] at h
      exact ending_inj (List.append_cancel_left h)

/-- The folder of a kind, by the settings. -/
def Kind.folderIn (folders : Folders) (k : Kind) : Path :=
  match k.layout.subfolder with
  | some sub => Path.ofText (folders.of k.layout.family) / Path.ofText sub
  | none => Path.ofText (folders.of k.layout.family)

theorem outputPath_eq_folderIn (folders : Folders) (k : Kind) (h : '/' ∉ entity) :
    outputPath folders k entity = ⟨(k.folderIn folders).root, (k.folderIn folders).parts ++ [k.layout.fileName entity]⟩ := by
  have file := Path.ofText_of_not_mem (fileName_no_slash k h) (fileName_not_idle k entity)
  have below : outputPath folders k entity = k.folderIn folders / Path.ofText (k.layout.fileName entity) := by
    cases k <;> rfl
  rw [below, file]
  rfl

theorem name_outputPath (folders : Folders) (k : Kind) (h : '/' ∉ entity) :
    (outputPath folders k entity).name = k.layout.fileName entity := by
  rw [outputPath_eq_folderIn folders k h]
  simp [Path.name]

theorem locationOf_outputPath (t : FileTree) (root : Path) (folders : Folders) (k : Kind) (h : '/' ∉ entity) :
    ∃ folder, t.locationOf (root / outputPath folders k entity) = folder ++ [k.layout.fileName entity] := by
  have ne : (outputPath folders k entity).parts ≠ [] := by
    rw [outputPath_eq_folderIn folders k h]
    simp
  obtain ⟨parts, name⟩ := Path.name_div_of_ne_nil root (outputPath folders k entity) ne
  rw [name_outputPath folders k h] at name
  have named : (root / outputPath folders k entity).HasName := ⟨parts, name ▸ fileName_ne_up k entity⟩
  exact ⟨_, name ▸ FileTree.locationOf_eq named⟩

/-- One kind's artifacts have one file's name for one stem: the name itself for models, and the variable's name for all others. -/
theorem fileName_eq_iff (k : Kind) (entity other : Text) : k.layout.fileName entity = k.layout.fileName other ↔
    entity = other ∨ (k ≠ .model ∧ Naming.lowerCamel entity = Naming.lowerCamel other) := by
  by_cases hk : k = .model
  · subst hk
    have keeps (t : Text) : Kind.model.layout.fileName t = t ++ Kind.model.layout.ending := rfl
    rw [keeps, keeps, List.append_left_inj]
    simp
  · rw [fileName_of_ne_model hk, fileName_of_ne_model hk, List.append_left_inj]
    constructor
    · exact fun same => Or.inr ⟨hk, same⟩
    · rintro (rfl | ⟨-, same⟩)
      · rfl
      · exact same

theorem kind_of_outputPath (h : '/' ∉ entity) (h' : '/' ∉ other)
    (same : outputPath {} k entity = outputPath {} l other) : k = l := by
  have standard (k : Kind) : k.folderIn {} = k.folder := by
    cases k <;> rfl
  rw [outputPath_eq_folderIn {} k h, outputPath_eq_folderIn {} l h', standard, standard] at same
  exact Kind.folder_inj (List.append_inj' (Path.mk.inj same).2 rfl).1

theorem outputPath_eq_iff (h : '/' ∉ entity) (h' : '/' ∉ other) (k l : Kind) :
    outputPath {} k entity = outputPath {} l other ↔
      k = l ∧ (entity = other ∨ (k ≠ .model ∧ Naming.lowerCamel entity = Naming.lowerCamel other)) := by
  constructor
  · intro same
    obtain rfl := kind_of_outputPath h h' same
    refine ⟨rfl, (fileName_eq_iff k entity other).1 ?_⟩
    rw [← name_outputPath {} k h, same, name_outputPath {} k h']
  · rintro ⟨rfl, names⟩
    rw [outputPath_eq_folderIn {} k h, outputPath_eq_folderIn {} k h', (fileName_eq_iff k entity other).2 names]

theorem nodup_of_names {α : Type} {f : Kind → α} (entity : Text)
    (h : ∀ k l, f k = f l → k.layout.fileName entity = l.layout.fileName entity) : (Kind.all.map f).Nodup :=
  List.Nodup.map (fun k l same => kind_of_fileName (h k l same)) (by decide)

/-- The ten artifacts of an entity go to ten paths, and in every tree to ten locations, whatever the folders of the settings are.
With the standard folders, artifacts of two entities go to one path just when they are of one kind and the entities have one
name, or one name for the variable and the kind is not the model. -/
theorem outputPaths_apart (h : '/' ∉ entity) (h' : '/' ∉ other) :
    (∀ folders, (Kind.all.map fun k => outputPath folders k entity).Nodup ∧
      ∀ (t : FileTree) (root : Path), (Kind.all.map fun k => t.locationOf (root / outputPath folders k entity)).Nodup) ∧
    ∀ k l, outputPath {} k entity = outputPath {} l other ↔
      k = l ∧ (entity = other ∨ (k ≠ .model ∧ Naming.lowerCamel entity = Naming.lowerCamel other)) := by
  refine ⟨fun folders => ⟨nodup_of_names entity fun k l same => ?_, fun t root => ?_⟩, outputPath_eq_iff h h'⟩
  · rw [← name_outputPath folders k h, same, name_outputPath folders l h]
  · refine nodup_of_names entity fun k l same => ?_
    obtain ⟨folder, hk⟩ := locationOf_outputPath t root folders k h
    obtain ⟨folder', hl⟩ := locationOf_outputPath t root folders l h
    rw [hk, hl] at same
    exact List.singleton_inj.1 (List.append_inj' same rfl).2

/-- The dotted capital has two characters in lower case, and so the name of another entity: their services share a path, their
models do not. In one folder the artifacts of either stay apart. -/
theorem outputPaths_apart_dotted :
    let dotted : Text := "İd".toList
    let plain : Text := "i\u0307d".toList
    let oneFolder : Folders := .ofFunction fun _ => ".".toList
    '/' ∉ dotted ∧ '/' ∉ plain ∧ outputPath {} .service dotted = outputPath {} .service plain ∧
      outputPath {} .model dotted ≠ outputPath {} .model plain ∧
      (Kind.all.map fun k => outputPath oneFolder k dotted).Nodup := by
  intro dotted plain oneFolder
  have h : '/' ∉ dotted := by decide
  have h' : '/' ∉ plain := by decide
  have lower : Naming.lowerCamel dotted = Naming.lowerCamel plain := by decide +kernel
  obtain ⟨distinct, shared⟩ := outputPaths_apart h h'
  refine ⟨h, h', (shared .service .service).2 ⟨rfl, Or.inr ⟨by decide, lower⟩⟩, fun same => ?_, (distinct oneFolder).1⟩
  rcases ((shared .model .model).1 same).2 with equal | ⟨other, -⟩
  · exact absurd equal (by decide)
  · exact other rfl

end Artifact

end EntityScaffold
