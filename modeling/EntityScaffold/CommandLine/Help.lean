import EntityScaffold.CommandLine.Switch

/- The usage line and the help, laid out for lines of seventy-eight characters. -/

namespace EntityScaffold.CommandLine

def programName : Text := "crudgen".toList

/-- Words in lines: each line takes as many as the width holds, and at least one. -/
def fill (width : Nat) : List Text → List Text
  | [] => []
  | w :: ws => go w ws
where
  go (line : Text) : List Text → List Text
    | [] => [line]
    | w :: ws =>
      if line.length + 1 + w.length ≤ width then go (line ++ ' ' :: w) ws else line :: go w ws

namespace Help

def lineWidth : Nat := 78

def purposeColumn : Nat := 24

def spaces (n : Nat) : Text := List.replicate n ' '

def withValue (name : String) : Option String → Text
  | none => name.toList
  | some v => name.toList ++ ' ' :: v.toList

def usagePart (s : Switch) : Text :=
  match s.describe.names with
  | [] => []
  | n :: _ => '[' :: withValue n s.describe.value ++ [']']

def usageLines : List Text :=
  let start := "usage: ".toList ++ programName ++ [' ']
  match fill (lineWidth - start.length) (Switch.all.map usagePart) with
  | [] => [start]
  | l :: ls => (start ++ l) :: ls.map (spaces start.length ++ ·)

def usage : Text := usageLines.flatMap (· ++ ['\n'])

/-- The lines of one switch: its names, and its purpose beside them or below. -/
def entryLines (s : Switch) : List Text :=
  let d := s.describe
  let names := "  ".toList ++ Text.joinWith ", ".toList (d.names.map (withValue · d.value))
  let purpose := fill (lineWidth - purposeColumn) (Text.splitAt ' ' d.purpose.toList)
  let below := purpose.map (spaces purposeColumn ++ ·)
  if names.length + 2 ≤ purposeColumn then
    match purpose with
    | [] => [names]
    | p :: _ => (Text.padTo purposeColumn names ++ p) :: below.drop 1
  else names :: below

def groupLines (g : Group) : List Text :=
  (g.title.toList ++ [':']) :: (Switch.all.filter fun s => s.describe.group = g).flatMap entryLines ++ [[]]

def aboutLines : List String := [
  "CrudGen - CRUD scaffolding generator.",
  "",
  "Reads one entity from a Prisma schema and writes its model, controller, service, routes, validator, API docs and " ++
    "tests, then registers it in the project's DI container, route aggregator and API-doc aggregator."]

def exampleLines : List Text :=
  ["", " -m Widget -p Widget", " -m Widget -p Widget --dry-run -v", " --project-root ../api -m Order -p Order"].map
    fun (rest : String) => "  ".toList ++ programName ++ rest.toList

def lines : List Text :=
  usageLines ++ [[]] ++ aboutLines.map String.toList ++ [[]] ++ Group.all.flatMap groupLines ++
    "Examples:".toList :: exampleLines

end Help

def help : Text := Help.lines.flatMap (· ++ ['\n'])

end EntityScaffold.CommandLine
