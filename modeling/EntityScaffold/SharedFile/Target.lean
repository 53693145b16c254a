import EntityScaffold.SharedFile.Insertion
import EntityScaffold.Template.Context

/-
Shared files of a project, and the insertions that register an entity in each. The built-in ones are the registry of
controllers and services, the router, and the API documentation.
-/

namespace EntityScaffold.SharedFile

/-- A shared file: its name in reports, its path below the project's root, the text that shows an entity to be registered, and the
insertions that register one. -/
structure Target where
  name : Text
  filePath : Text
  existenceMarker : Text
  insertions : List Insertion
  deriving DecidableEq, Repr

def slot (name : String) : Text := Template.written name.toList

def entitySlot : Text := slot "ModelName"

def lowerSlot : Text := slot "modelName"

def registry : Target where
  name := "di_registry".toList
  filePath := "src/config/inversifyConfig.ts".toList
  existenceMarker := "import \x7b ".toList ++ entitySlot ++ "Controller \x7d".toList
  insertions := [
    { anchor := "const container = new Container();".toList
      snippet :=
        "import \x7b ".toList ++ entitySlot ++ "Controller \x7d from '../controllers/".toList ++ lowerSlot ++
          "Controller';\n".toList ++
        "import \x7b ".toList ++ entitySlot ++ "Service \x7d from '../services/".toList ++ lowerSlot ++
          "Service';\n".toList
      sectionName := some "imports".toList },
    { anchor := "export default container;".toList
      snippet :=
        "container.bind<".toList ++ entitySlot ++ "Controller>(".toList ++ entitySlot ++
          "Controller).toSelf();\n".toList ++
        "container.bind<".toList ++ entitySlot ++ "Service>(".toList ++ entitySlot ++
          "Service).toSelf();\n".toList
      sectionName := some "bindings".toList }]

def router : Target where
  name := "route_aggregator".toList
  filePath := "src/routes/v1.ts".toList
  existenceMarker := "from './".toList ++ lowerSlot ++ "Routes'".toList
  insertions := [
    { anchor := "const router = Router();".toList
      snippet := "import ".toList ++ entitySlot ++ "Routes from './".toList ++ lowerSlot ++ "Routes';\n".toList
      sectionName := some "imports".toList },
    { anchor := "export default router;".toList
      snippet := "router.use('".toList ++ slot "apiPrefix" ++ "/".toList ++ slot "pluralModelName" ++
        "', authMiddleware, ".toList ++ entitySlot ++ "Routes);\n".toList
      sectionName := some "routes".toList }]

def documentation : Target where
  name := "doc_aggregator".toList
  filePath := "src/config/swagger/swaggerConfig.ts".toList
  existenceMarker := "from './paths/".toList ++ lowerSlot ++ "Paths'".toList
  insertions := [
    { anchor := "// Path Imports ends".toList
      snippet := "import ".toList ++ lowerSlot ++ "Paths from './paths/".toList ++ lowerSlot ++ "Paths';\n".toList
      sectionName := some "path-imports".toList },
    { anchor := "// Definition Imports ends".toList
      snippet := "import ".toList ++ lowerSlot ++ "Definitions from './definitions/".toList ++ lowerSlot ++
        "Definition';\n".toList
      sectionName := some "definition-imports".toList },
    { anchor := "// register new paths here".toList
      snippet := "...".toList ++ lowerSlot ++ "Paths,\n".toList
      sectionName := some "paths".toList },
    { anchor := "// register new defintions here".toList
      snippet := "...".toList ++ lowerSlot ++ "Definitions,\n".toList
      sectionName := some "definitions".toList }]

def builtIn : List Target := [registry, router, documentation]

/-- The values that the built-in insertions need: those from the entity's name, and the address prefix without slashes at its
end. -/
def entityContext (entity apiPrefix : Text) : Template.Context :=
  Template.nameContext entity (Text.trimEnd (· = '/') apiPrefix)

end EntityScaffold.SharedFile
