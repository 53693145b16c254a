import EntityScaffold.Proofs.Json.RoundTrip
import EntityScaffold.Proofs.Run.Addresses

/-
The documentation of an entity as it is generated: the code of its definition is in ASCII and reads back as the definition,
and the generated file holds that code as it is, whatever names the entity and its fields have.
-/

namespace EntityScaffold

namespace Documentation

open Schema

theorem nodup_properties (fs : List Field) : ((properties fs).map (·.1)).Nodup :=
  Entries.nodup_foldl_put Field.name (fun f => docType f.rawType f.isArray) fs List.nodup_nil

theorem isKeyed_definition (m : Model) (system : List Text) : (definition m system).IsKeyed := by
  have typed (t : Text) : (Json.object [("type".toList, .text t)]).IsKeyed :=
    .object (List.nodup_singleton _) (List.forall_mem_singleton.2 (.text t))
  have required : (Json.list ((required (m.editable system)).map .text)).IsKeyed :=
    .list (List.forall_mem_map.2 fun t _ => .text t)
  have properties : (Json.object ((properties (m.editable system)).map fun p =>
      (p.1, .object [("type".toList, .text p.2)]))).IsKeyed := by
    refine .object ?_ (List.forall_mem_map.2 fun p _ => typed p.2)
    rw [List.map_map]
    exact nodup_properties (m.editable system)
  have keys : ["type".toList, "required".toList, "properties".toList].Nodup := by decide
  refine .object (List.nodup_singleton _) (List.forall_mem_singleton.2 (.object keys ?_))
  simpa using ⟨.text _, required, properties⟩

def code (m : Model) (system : List Text) : Text := Json.render codeForm (definition m system)

/-- The file that a definition's code stands in, and where its value gets a name. -/
def file (name code : Text) : Text :=
  "const ".toList ++ name ++ "Definitions = ".toList ++ code ++ ";\n\nexport default ".toList ++ name ++
    "Definitions;\n".toList

end Documentation

namespace Template

open Artifact (Kind)

variable {c : Context} {name code : Text}

theorem substitute_docDefinition (hname : Entries.get? "modelName".toList c = some name)
    (hcode : Entries.get? "swaggerDef".toList c = some code) :
    substitute Kind.docDefinition.packaged c = Documentation.file name code := by
  have first : pieces "const $\x7bmodelName\x7dDefinitions = $\x7bswaggerDef\x7d;".toList =
      plain "const ".toList ++ .slot "modelName".toList :: plain "Definitions = ".toList ++
        .slot "swaggerDef".toList :: plain ";".toList := rfl
  have last : pieces "export default $\x7bmodelName\x7dDefinitions;".toList =
      plain "export default ".toList ++ .slot "modelName".toList :: plain "Definitions;".toList := rfl
  have lines : filledLines Kind.docDefinition.packagedLines c =
      ["const ".toList ++ name ++ "Definitions = ".toList ++ code ++ ";".toList, [],
        "export default ".toList ++ name ++ "Definitions;".toList] := by
    simp only [Kind.packagedLines, Packaged.docDefinition, filledLines, List.map_cons, List.map_nil, substitute_eq_fill, first, last,
      fill_append, fill_plain, fill_cons, Piece.fill, hname, hcode, Option.getD_some, List.append_assoc]
    rfl
  rw [substitute_packaged, lines]
  unfold Documentation.file
  simp only [Text.ended, List.flatMap_cons, List.flatMap_nil, List.append_assoc]
  rfl

end Template

namespace Run

variable {g : Generator} {m : Schema.Model}

/-- The code of a model's definition among the values that a run makes is in ASCII and reads back as the definition, with all
keys in their order. The file that is made of the packaged template holds this code as it is, between fixed lines. -/
theorem docDefinition_faithful (g : Generator) (m : Schema.Model) (permission : Text) :
    (∀ w c, (World.run (g.context m permission) w).1 = .ok c → ∃ rules data, c = g.values m permission rules data) ∧
    ∀ rules data,
      let c := g.values m permission rules data
      ∃ code, Entries.get? "swaggerDef".toList c = some code ∧
        Json.IsAscii code ∧
        Json.read? code = some (Documentation.definition m g.settings.systemFields) ∧
        ∀ engine : Engine, engine.IsPackaged → ∀ w, ∃ engine' w',
          World.run (engine.render .docDefinition c) w =
            (.ok (Documentation.file (Naming.lowerCamel m.entity) code, engine'), w') := by
  refine ⟨fun w c made => exists_values made, fun rules data => ?_⟩
  intro c
  have value : Entries.get? "swaggerDef".toList c = some (Documentation.code m g.settings.systemFields) := rfl
  have name : Entries.get? "modelName".toList c = some (Naming.lowerCamel m.entity) := rfl
  have keyed := Documentation.isKeyed_definition m g.settings.systemFields
  refine ⟨_, value, Json.isAscii_write _ 0 _, Json.read?_render keyed Documentation.codeForm, fun engine packaged w => ?_⟩
  obtain ⟨engine', w', rendered⟩ := run_render_packaged packaged .docDefinition c w
  rw [Template.substitute_docDefinition name value] at rendered
  exact ⟨engine', w', rendered⟩

/-- A model whose names have what a text in quotes escapes. -/
def scoreModel : Schema.Model where
  entity := "Score\"𝄞".toList
  fields := [
    { name := "a\\b".toList, rawType := "String".toList },
    { name := "größe".toList, rawType := "Int".toList, isOptional := true }]

theorem docDefinition_faithful_scoreModel :
    let g : Generator := { settings := {} }
    ∃ c code, (World.run (g.context scoreModel "scores".toList) { tree := .empty }).1 = .ok c ∧
      (∃ rules data, c = g.values scoreModel "scores".toList rules data) ∧
      Entries.get? "swaggerDef".toList c = some code ∧ Json.IsAscii code ∧
      Json.read? code = some (Documentation.definition scoreModel Schema.systemFields) ∧
      ∃ e w, World.run (Engine.render { folder := none } .docDefinition c) { tree := .empty } =
        (.ok (Documentation.file "score\"𝄞".toList code, e), w) := by
  intro g
  have made := run_context g scoreModel "scores".toList { tree := .empty }
  rw [if_pos (by decide +kernel)] at made
  have lower : Naming.lowerCamel scoreModel.entity = "score\"𝄞".toList := by decide +kernel
  obtain ⟨values, all⟩ := docDefinition_faithful g scoreModel "scores".toList
  obtain ⟨code, value, ascii, read, renders⟩ := all (RequestChecks.rules scoreModel g.settings.maxLength _)
    (Payload.testData scoreModel g.settings.optionalCap g.settings.invalidCap g.settings.systemFields)
  have packaged : Engine.IsPackaged { folder := none } := ⟨rfl, fun k t h => by cases h⟩
  exact ⟨_, code, made, values _ _ made, value, ascii, read, lower ▸ renders { folder := none } packaged { tree := .empty }⟩

end Run

end EntityScaffold
