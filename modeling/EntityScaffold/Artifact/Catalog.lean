import EntityScaffold.Naming
import EntityScaffold.Path
import EntityScaffold.Template.Packaged.Documentation
import EntityScaffold.Template.Packaged.Sources
import EntityScaffold.Template.Packaged.Tests

/- The ten artifacts of an entity: the template each is filled from, and its place in a project. -/

namespace EntityScaffold.Artifact

/-- A family of artifacts with a folder of its own in the settings. -/
inductive Family where
  | models
  | controllers
  | services
  | routes
  | validators
  | docPaths
  | docDefinitions
  | unitTests
  | integrationTests
  deriving DecidableEq, Repr

namespace Family

def all : List Family :=
  [models, controllers, services, routes, validators, docPaths, docDefinitions, unitTests, integrationTests]

def name : Family → Text
  | models => "models".toList
  | controllers => "controllers".toList
  | services => "services".toList
  | routes => "routes".toList
  | validators => "validators".toList
  | docPaths => "doc_paths".toList
  | docDefinitions => "doc_definitions".toList
  | unitTests => "unit_tests".toList
  | integrationTests => "integration_tests".toList

/-- The family's folder unless the settings name another. -/
def defaultFolder : Family → Text
  | models => "src/models".toList
  | controllers => "src/controllers".toList
  | services => "src/services".toList
  | routes => "src/routes".toList
  | validators => "src/validators".toList
  | docPaths => "src/config/swagger/paths".toList
  | docDefinitions => "src/config/swagger/definitions".toList
  | unitTests => "src/tests/unit".toList
  | integrationTests => "src/tests/integration".toList

def ofName? (t : Text) : Option Family := all.find? fun f => f.name = t

end Family

/-- The folder of each family, below the project's root. -/
structure Folders where
  models : Text := Family.models.defaultFolder
  controllers : Text := Family.controllers.defaultFolder
  services : Text := Family.services.defaultFolder
  routes : Text := Family.routes.defaultFolder
  validators : Text := Family.validators.defaultFolder
  docPaths : Text := Family.docPaths.defaultFolder
  docDefinitions : Text := Family.docDefinitions.defaultFolder
  unitTests : Text := Family.unitTests.defaultFolder
  integrationTests : Text := Family.integrationTests.defaultFolder
  deriving DecidableEq, Repr

def Folders.of (f : Folders) : Family → Text
  | .models => f.models
  | .controllers => f.controllers
  | .services => f.services
  | .routes => f.routes
  | .validators => f.validators
  | .docPaths => f.docPaths
  | .docDefinitions => f.docDefinitions
  | .unitTests => f.unitTests
  | .integrationTests => f.integrationTests

/-- The folders in which each family has the folder that a function gives. -/
def Folders.ofFunction (folder : Family → Text) : Folders where
  models := folder .models
  controllers := folder .controllers
  services := folder .services
  routes := folder .routes
  validators := folder .validators
  docPaths := folder .docPaths
  docDefinitions := folder .docDefinitions
  unitTests := folder .unitTests
  integrationTests := folder .integrationTests

@[simp] theorem Folders.of_ofFunction (folder : Family → Text) : (Folders.ofFunction folder).of = folder := by
  funext family
  cases family <;> rfl

def Folders.put (f : Folders) (family : Family) (folder : Text) : Folders :=
  .ofFunction fun g => if g = family then folder else f.of g

inductive Kind where
  | model
  | controller
  | service
  | routes
  | validator
  | docPaths
  | docDefinition
  | controllerTest
  | serviceTest
  | integrationTest
  deriving DecidableEq, Repr

/-- Where an artifact comes from and where it goes: its template, the family of its folder, a folder below that, the end of its
file's name, and whether the file's name keeps the case of the entity's. -/
structure Layout where
  template : Text
  family : Family
  subfolder : Option Text := none
  ending : Text
  keepsCase : Bool := false
  deriving DecidableEq, Repr

namespace Kind

def all : List Kind :=
  [model, controller, service, routes, validator, docPaths, docDefinition, controllerTest, serviceTest, integrationTest]

def name : Kind → Text
  | model => "model".toList
  | controller => "controller".toList
  | service => "service".toList
  | routes => "routes".toList
  | validator => "validator".toList
  | docPaths => "doc_paths".toList
  | docDefinition => "doc_definition".toList
  | controllerTest => "controller_test".toList
  | serviceTest => "service_test".toList
  | integrationTest => "integration_test".toList

def ofName? (t : Text) : Option Kind := all.find? fun k => k.name = t

def layout : Kind → Layout
  | model => { template := "model.ts.tpl".toList, family := .models, ending := ".ts".toList, keepsCase := true }
  | controller =>
    { template := "controller.ts.tpl".toList, family := .controllers, ending := "Controller.ts".toList }
  | service => { template := "service.ts.tpl".toList, family := .services, ending := "Service.ts".toList }
  | routes => { template := "routes.ts.tpl".toList, family := .routes, ending := "Routes.ts".toList }
  | validator => { template := "validator.ts.tpl".toList, family := .validators, ending := "Validator.ts".toList }
  | docPaths => { template := "swaggerPaths.ts.tpl".toList, family := .docPaths, ending := "Paths.ts".toList }
  | docDefinition =>
    { template := "swaggerDefinition.ts.tpl".toList, family := .docDefinitions, ending := "Definition.ts".toList }
  | controllerTest =>
    { template := "controller.test.ts.tpl".toList, family := .unitTests, subfolder := some "controllers".toList
      ending := "Controller.test.ts".toList }
  | serviceTest =>
    { template := "service.test.ts.tpl".toList, family := .unitTests, subfolder := some "services".toList
      ending := "Service.test.ts".toList }
  | integrationTest =>
    { template := "integration.test.ts.tpl".toList, family := .integrationTests
      ending := ".integration.test.ts".toList }

def packagedLines : Kind → List String
  | model => Template.Packaged.model
  | controller => Template.Packaged.controller
  | service => Template.Packaged.service
  | routes => Template.Packaged.routes
  | validator => Template.Packaged.validator
  | docPaths => Template.Packaged.docPaths
  | docDefinition => Template.Packaged.docDefinition
  | controllerTest => Template.Packaged.controllerTest
  | serviceTest => Template.Packaged.serviceTest
  | integrationTest => Template.Packaged.integrationTest

def packaged (k : Kind) : Text := k.packagedLines.flatMap fun line => line.toList ++ ['\n']

end Kind

def Layout.fileName (l : Layout) (entity : Text) : Text :=
  (if l.keepsCase then entity else Naming.lowerCamel entity) ++ l.ending

def outputPath (folders : Folders) (k : Kind) (entity : Text) : Path :=
  let folder := Path.ofText (folders.of k.layout.family)
  let folder := match k.layout.subfolder with
    | some sub => folder / Path.ofText sub
    | none => folder
  folder / Path.ofText (k.layout.fileName entity)

end EntityScaffold.Artifact
