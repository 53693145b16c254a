import EntityScaffold.Proofs.Run.Extraction
import EntityScaffold.Proofs.Template.Packaged
import EntityScaffold.Proofs.Template.Values
import EntityScaffold.Run.Generation

/-
An engine without a folder fills the packaged templates. With the values for a model that was taken from a schema, none of
the known slots is left, and nothing is reported.
-/

namespace EntityScaffold.Run

open Artifact (Kind)
open RequestChecks (isWritable)
open Template (Rendered Closes fullContext)

variable {e : Engine} {g : Generator} {m : Schema.Model} {schema entity permission : Text}

/-- An engine that takes all templates from the packaged ones. -/
structure Engine.IsPackaged (e : Engine) : Prop where
  noFolder : e.folder = none
  loaded : ∀ k t, Entries.get? k e.templates = some t → t = k.packaged

/-- The engine of a run that names no folder of templates takes the packaged ones. -/
theorem isPackaged_start {s : Settings} {given : Option Path} {w : World} (none : Engine.folderOf s given = none)
    (started : (World.run (Engine.start s given) w).1 = .ok e) : e.IsPackaged := by
  obtain rfl : { folder := Engine.folderOf s given } = e := Except.ok.inj started
  exact ⟨none, fun k t h => absurd h (by simp)⟩

theorem run_load (packaged : e.IsPackaged) (k : Kind) (w : World) :
    ∃ e', World.run (e.load k) w = (.ok (k.packaged, e'), w) ∧ e'.IsPackaged := by
  unfold Engine.load
  cases known : Entries.get? k e.templates with
  | some t =>
    obtain rfl := packaged.loaded k t known
    exact ⟨e, rfl, packaged⟩
  | none =>
    have read : e.readTemplate k = .done k.packaged := by
      rw [Engine.readTemplate, packaged.noFolder]
      rfl
    simp only [read]
    refine ⟨_, rfl, packaged.noFolder, fun l t h => ?_⟩
    by_cases same : l = k
    · subst same
      rw [Entries.get?_put_self] at h
      exact (Option.some.inj h).symm
    · rw [Entries.get?_put_of_ne same] at h
      exact packaged.loaded l t h

theorem run_render {c : Template.Context} (packaged : e.IsPackaged) (closes : Closes c) (k : Kind) (w : World) :
    ∃ content e', World.run (e.render k c) w = (.ok (content, e'), w) ∧ e'.IsPackaged ∧
      Rendered k.packaged c content := by
  obtain ⟨e', hload, packaged'⟩ := run_load packaged k w
  have quiet : Engine.leftoverNotes k (Template.substitute k.packaged c) = [] := by
    rw [Engine.leftoverNotes, Template.leftovers_eq_nil (Template.closed_packaged closes k)]
  refine ⟨Template.substitute k.packaged c, e', ?_, packaged', Template.rendered_packaged closes k⟩
  unfold Engine.render
  rw [run_bind_ok hload]
  dsimp only
  rw [quiet]
  rfl

theorem run_context (g : Generator) (m : Schema.Model) (permission : Text) (w : World) :
    (World.run (g.context m permission) w).1 =
      if (m.editable g.settings.systemFields).all (isWritable g.settings.maxLength) then
        .ok (fullContext m permission g.settings.apiPrefix g.settings.systemFields
          (RequestChecks.rules m g.settings.maxLength g.settings.systemFields)
          (Payload.testData m g.settings.optionalCap g.settings.invalidCap g.settings.systemFields))
      else .error .numberTooLong := by
  unfold Generator.context
  dsimp only
  split
  · obtain ⟨w', hnotes, -⟩ := run_notes ([RequestChecks.rulesNote m (RequestChecks.rules m g.settings.maxLength
      g.settings.systemFields), Payload.testDataNote m (Payload.testData m g.settings.optionalCap g.settings.invalidCap
      g.settings.systemFields)] ++ Template.memberNotes m) w
    rw [run_bind_ok hnotes]
    rfl
  · rfl

theorem model?_of_extract {optional : List Text} {w : World}
    (h : (World.run (extract schema entity optional) w).1 = .ok m) :
    Schema.model? schema entity optional = some m ∧ m.entity = entity := by
  rw [run_extract] at h
  unfold Schema.model?
  split at h
  · exact absurd h (by simp)
  · next body hbody =>
    split at h
    · exact absurd h (by simp)
    · obtain rfl := Except.ok.inj h
      rw [hbody]
      exact ⟨rfl, rfl⟩

theorem closes_of_extract {w : World} {permission : Text}
    (extracted : (World.run (extract schema entity g.settings.optionalSystemFields) w).1 = .ok m)
    (hentity : '$' ∉ entity) (haddress : '$' ∉ g.settings.apiPrefix) (hpermission : '$' ∉ permission) :
    Closes (fullContext m permission g.settings.apiPrefix g.settings.systemFields
      (RequestChecks.rules m g.settings.maxLength g.settings.systemFields)
      (Payload.testData m g.settings.optionalCap g.settings.invalidCap g.settings.systemFields)) := by
  obtain ⟨read, rfl⟩ := model?_of_extract extracted
  exact Template.closes_fullContext hentity hpermission haddress (fun f hf => Schema.not_mem_of_mem_fields read hf) _ _ _

/-- The values for a model can be made, unless a number in its request checks has too many digits. Every packaged template is
then filled so that no known slot is left in it, neither inside of a value nor across its ends, and nothing is reported; all
other expressions of the template are kept. -/
theorem render_leaves_no_slot {w : World}
    (extracted : (World.run (extract schema entity g.settings.optionalSystemFields) w).1 = .ok m)
    (hentity : '$' ∉ entity) (haddress : '$' ∉ g.settings.apiPrefix) (hpermission : '$' ∉ permission)
    (packaged : e.IsPackaged) (k : Kind) (w' w'' : World) :
    ((World.run (g.context m permission) w').1 = .error .numberTooLong ∧
      ∃ f ∈ m.editable g.settings.systemFields, isWritable g.settings.maxLength f = false) ∨
    ∃ c content e', (World.run (g.context m permission) w').1 = .ok c ∧
      World.run (e.render k c) w'' = (.ok (content, e'), w'') ∧ e'.IsPackaged ∧ Rendered k.packaged c content := by
  rw [run_context]
  split
  · obtain ⟨content, e', hrender, packaged', rendered⟩ :=
      run_render packaged (closes_of_extract extracted hentity haddress hpermission) k w''
    exact Or.inr ⟨_, content, e', rfl, hrender, packaged', rendered⟩
  · next long =>
    obtain ⟨f, hf, hlong⟩ := List.all_eq_false.1 (Bool.eq_false_iff.2 long)
    exact Or.inl ⟨rfl, f, hf, Bool.eq_false_iff.2 hlong⟩

section Samples

/-- A schema whose fields have names and types that start like slots. -/
def slotSchema : Text := "model Widget \x7b\n  $\x7bModelName String @unique\n  size $\x7bpermission\n\x7d\n".toList

def slotModel : Schema.Model where
  entity := "Widget".toList
  fields := [
    { name := "$\x7bModelName".toList, rawType := "String".toList, isUnique := true },
    { name := "size".toList, rawType := "$\x7bpermission".toList }]

theorem render_leaves_no_slot_slotSchema :
    (World.run (extract slotSchema "Widget".toList Schema.optionalSystemFields) { tree := .empty }).1 = .ok slotModel ∧
    ∃ c content e, (World.run (Generator.context { settings := {} } slotModel "widgets".toList) { tree := .empty }).1 =
        .ok c ∧
      World.run (Engine.render { folder := none } .validator c) { tree := .empty } =
        (.ok (content, e), { tree := .empty }) ∧ e.IsPackaged ∧ Rendered Kind.validator.packaged c content := by
  have extracted : (World.run (extract slotSchema "Widget".toList Schema.optionalSystemFields) { tree := .empty }).1 =
      .ok slotModel := by
    decide +kernel
  have started : Engine.IsPackaged { folder := none } := ⟨rfl, fun k t h => absurd h (by simp)⟩
  have short : ∀ f ∈ slotModel.editable Schema.systemFields, isWritable ({} : Settings).maxLength f = true := by
    decide +kernel
  have permission : '$' ∉ "widgets".toList := by decide
  refine ⟨extracted, ?_⟩
  rcases render_leaves_no_slot (g := { settings := {} }) extracted (by decide) (by decide) permission started .validator
    { tree := .empty } { tree := .empty } with ⟨-, f, hf, long⟩ | made
  · exact absurd (short f hf) (by simp [long])
  · exact made

end Samples

end EntityScaffold.Run
