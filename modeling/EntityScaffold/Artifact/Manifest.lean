import EntityScaffold.Digest
import EntityScaffold.Json
import EntityScaffold.Path
import EntityScaffold.Text.Lines

/- Records of the files that a run makes, and the manifest that lists them. -/

namespace EntityScaffold.Artifact

/-- A file that was made: what it is, where it went, its size, lines and digest, and whether it was written at all. -/
structure FileRecord where
  kind : Text
  path : Text
  bytes : Int
  lines : Int
  digest : Text
  written : Bool := true
  deriving DecidableEq, Repr

def FileRecord.ofContent (kind : Text) (path : Path) (content : Text) (written : Bool) : FileRecord where
  kind := kind
  path := path.text
  bytes := (Utf8.encode content).length
  lines := Text.lineCount '\n' content
  digest := Digest.ofText content
  written := written

/-- The records of one entity's files. -/
structure Manifest where
  entity : Text := []
  projectRoot : Text := []
  version : Text := []
  files : List FileRecord := []
  deriving DecidableEq, Repr

namespace Manifest

def totalBytes (m : Manifest) : Int := m.files.foldl (fun n r => n + r.bytes) 0

def totalLines (m : Manifest) : Int := m.files.foldl (fun n r => n + r.lines) 0

def add (m : Manifest) (r : FileRecord) : Manifest := { m with files := m.files ++ [r] }

end Manifest

def FileRecord.toJson (r : FileRecord) : Json := .object [
  ("kind".toList, .text r.kind),
  ("relative_path".toList, .text r.path),
  ("size_bytes".toList, .number r.bytes),
  ("line_count".toList, .number r.lines),
  ("sha256".toList, .text r.digest),
  ("written".toList, .bool r.written)]

def Manifest.toJson (m : Manifest) : Json := .object [
  ("entity_name".toList, .text m.entity),
  ("project_root".toList, .text m.projectRoot),
  ("generator_version".toList, .text m.version),
  ("total_files".toList, .number m.files.length),
  ("total_bytes".toList, .number m.totalBytes),
  ("total_lines".toList, .number m.totalLines),
  ("files".toList, .list (m.files.map FileRecord.toJson))]

/-- The manifest's text in a layout, with all characters as they are. -/
def Manifest.text (layout : Json.Layout) (m : Manifest) : Text := Json.render ⟨layout, false⟩ m.toJson

end EntityScaffold.Artifact
