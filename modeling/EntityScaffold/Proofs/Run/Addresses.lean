import EntityScaffold.Proofs.Run.Rendering
import EntityScaffold.Proofs.Settings.Stability
import EntityScaffold.Proofs.Template.Addresses

/-
One address for the collection of an entity. A run gives its templates and its shared files the same values, and of these the
built-in shared files take no more than they would make themselves from the entity's name and the settings.
-/

namespace EntityScaffold.Run

open Artifact (Kind)
open Naming (Identifier)
open SharedFile (Names builtIn entityContext names_entityContext names_nameContext)
open Template (Context DocumentsAt TestsAt collectionAddress fullContext mountLines substitute)

variable {g : Generator} {m : Schema.Model} {permission : Text} {c c' : Context} {t : SharedFile.Target}

/-- The values for a model by the settings of a generator, with any rules and any data for tests. -/
def Generator.values (g : Generator) (m : Schema.Model) (permission : Text) (rules : RequestChecks.Rules)
    (data : Payload.TestData) : Context :=
  fullContext m permission g.settings.apiPrefix g.settings.systemFields rules data

theorem exists_values {w : World} (made : (World.run (g.context m permission) w).1 = .ok c) :
    ∃ rules data, c = g.values m permission rules data := by
  rw [run_context] at made
  split at made
  · exact ⟨_, _, (Except.ok.inj made).symm⟩
  · cases made

theorem names_values (g : Generator) (m : Schema.Model) (permission : Text) (rules : RequestChecks.Rules)
    (data : Payload.TestData) : Names m.entity g.settings.apiPrefix (g.values m permission rules data) := by
  rw [Generator.values, fullContext, List.append_assoc]
  exact names_nameContext m.entity g.settings.apiPrefix _

theorem names_own (valid : g.settings.IsValid) (entity : Text) :
    Names entity g.settings.apiPrefix (entityContext entity g.settings.apiPrefix) := by
  have trimmed : Text.trimEnd (· = '/') g.settings.apiPrefix = g.settings.apiPrefix :=
    Text.trimEnd_slashes_iff.2 valid.apiPrefix
  simpa only [trimmed] using names_entityContext entity g.settings.apiPrefix

theorem run_render_packaged {e : Engine} (packaged : e.IsPackaged) (k : Kind) (c : Context) (w : World) :
    ∃ e' w', World.run (e.render k c) w = (.ok (substitute k.packaged c, e'), w') := by
  obtain ⟨e', load, -⟩ := run_load packaged k w
  obtain ⟨w', notes, -⟩ := run_notes (Engine.leftoverNotes k (substitute k.packaged c)) w
  refine ⟨e', w', ?_⟩
  unfold Engine.render
  rw [run_bind_ok load, run_bind_ok notes]
  rfl

theorem register_eq {entity apiPrefix : Text} (ht : t ∈ builtIn) (h : Names entity apiPrefix c)
    (h' : Names entity apiPrefix c') (root : Path) (dry : Bool) (name : Text) :
    register root dry t name c = register root dry t name c' := by
  simp only [register, h.register_eq ht h']

/-- For every entity that is named by an identifier, every permission and all valid settings, there is one address: the router
mounts the entity's routes at it, each key of a path in the packaged documentation is this address with something after it, and
the packaged tests take it for their base. Each built-in shared file becomes the same, whether the entity is registered with all
values of a run or with those that come from its name and the prefix alone. -/
theorem one_address {e : Identifier} (valid : g.settings.IsValid) (named : m.entity = e.name) (permission : Text) :
    (∀ w c, (World.run (g.context m permission) w).1 = .ok c → ∃ rules data, c = g.values m permission rules data) ∧
    ∀ rules data,
      let c := g.values m permission rules data
      let address := collectionAddress m.entity g.settings.apiPrefix
      let own := entityContext m.entity g.settings.apiPrefix
      SharedFile.router.insertions.map (fun i => substitute i.snippet c) = mountLines m.entity address ∧
      (∀ engine : Engine, engine.IsPackaged → ∀ w,
        (∃ content engine' w', World.run (engine.render .docPaths c) w = (.ok (content, engine'), w') ∧
          DocumentsAt address content) ∧
        ∃ content engine' w', World.run (engine.render .integrationTest c) w = (.ok (content, engine'), w') ∧
          TestsAt address content) ∧
      ∀ t ∈ builtIn,
        (∀ content, t.register c content = t.register own content) ∧
        ∀ root dry w, World.run (register root dry t m.entity c) w = World.run (register root dry t m.entity own) w := by
  refine ⟨fun w c made => exists_values made, fun rules data => ?_⟩
  intro c address own
  have names : Names m.entity g.settings.apiPrefix c := names_values g m permission rules data
  have identified : Names e.name g.settings.apiPrefix c := named ▸ names
  have same : address = collectionAddress e.name g.settings.apiPrefix := by rw [← named]
  have ownNames : Names m.entity g.settings.apiPrefix own := names_own valid m.entity
  refine ⟨Template.mountLines_router names, fun engine packaged w => ⟨?_, ?_⟩, fun t ht => ⟨?_, fun root dry w => ?_⟩⟩
  · obtain ⟨engine', w', render⟩ := run_render_packaged packaged .docPaths c w
    exact ⟨_, engine', w', render, same ▸ Template.documentsAt_packaged identified⟩
  · obtain ⟨engine', w', render⟩ := run_render_packaged packaged .integrationTest c w
    exact ⟨_, engine', w', render, same ▸ Template.testsAt_packaged identified⟩
  · exact names.register_eq ht ownNames
  · rw [register_eq ht names ownNames]

def category : Identifier := ⟨"Category".toList, by decide, by decide⟩

theorem one_address_category :
    let g : Generator := { settings := { apiPrefix := "/api/v2".toList } }
    let m : Schema.Model := { entity := "Category".toList }
    let c := g.values m "Admin".toList ⟨[], []⟩ (Payload.testData m 2 2 Schema.systemFields)
    let own := entityContext "Category".toList "/api/v2".toList
    g.settings.IsValid ∧ m.entity = category.name ∧
    SharedFile.router.insertions.map (fun i => substitute i.snippet c) = [
      "import CategoryRoutes from './categoryRoutes';\n".toList,
      "router.use('/api/v2/categories', authMiddleware, CategoryRoutes);\n".toList] ∧
    (∃ content engine w, World.run (Engine.render { folder := none } .docPaths c) { tree := .empty } =
      (.ok (content, engine), w) ∧ DocumentsAt "/api/v2/categories".toList content) ∧
    (∃ content engine w, World.run (Engine.render { folder := none } .integrationTest c) { tree := .empty } =
      (.ok (content, engine), w) ∧ TestsAt "/api/v2/categories".toList content) ∧
    SharedFile.router.register c "export default router;\n".toList =
      SharedFile.router.register own "export default router;\n".toList := by
  intro g m c own
  have valid : g.settings.IsValid := { Settings.isValid_default with apiPrefix := by decide }
  have address : collectionAddress "Category".toList "/api/v2".toList = "/api/v2/categories".toList := by decide +kernel
  have lines : mountLines "Category".toList "/api/v2/categories".toList = [
      "import CategoryRoutes from './categoryRoutes';\n".toList,
      "router.use('/api/v2/categories', authMiddleware, CategoryRoutes);\n".toList] := by decide +kernel
  obtain ⟨-, all⟩ := one_address (g := g) (m := m) (e := category) valid rfl "Admin".toList
  obtain ⟨mounts, renders, registers⟩ := all ⟨[], []⟩ (Payload.testData m 2 2 Schema.systemFields)
  have packaged : Engine.IsPackaged { folder := none } := ⟨rfl, fun k t h => by cases h⟩
  obtain ⟨documents, tests⟩ := renders { folder := none } packaged { tree := .empty }
  exact ⟨valid, rfl, lines ▸ address ▸ mounts, address ▸ documents, address ▸ tests,
    (registers SharedFile.router (by decide)).1 _⟩

end EntityScaffold.Run
