import EntityScaffold.Artifact.Manifest
import EntityScaffold.Run.Files

/- The exporter: it writes files below a project's root and keeps a manifest of them. A dry run writes none of them. -/

namespace EntityScaffold.Run

structure Exporter where
  root : Path
  atomic : Bool := true
  dryRun : Bool := false
  manifest : Artifact.Manifest

namespace Exporter

def source : Text := "crudgen.exporters".toList

def start (root : Path) (entity version : Text) (atomic dryRun : Bool) : Exporter where
  root := root
  atomic := atomic
  dryRun := dryRun
  manifest := { entity := entity, projectRoot := root.text, version := version }

def recordNote (dryRun : Bool) (r : Artifact.FileRecord) : Log.Entry :=
  Log.debug source
    ((if dryRun then "Rendered ".toList else "Wrote ".toList) ++ r.path ++ " (".toList ++ Text.ofInt r.bytes ++
      " bytes, ".toList ++ Text.ofInt r.lines ++ " lines).".toList)

def deliver (x : Exporter) (kind : Text) (path : Path) (content : Text) : Job (Artifact.FileRecord × Exporter) := do
  if !x.dryRun then
    let _ ← writeFile (x.root / path) content x.atomic
  let r := Artifact.FileRecord.ofContent kind path content (!x.dryRun)
  Job.note (recordNote x.dryRun r)
  return (r, { x with manifest := x.manifest.add r })

def manifestText (x : Exporter) : Text := x.manifest.text (.indented 2) ++ ['\n']

/-- Writes the manifest; a path without a root starts at the project's. -/
def writeManifest (x : Exporter) (p : Path) : Job Unit := do
  let p := if p.isAbsolute then p else x.root / p
  let _ ← writeFile p x.manifestText x.atomic
  Job.note (Log.info source ("Manifest written to ".toList ++ p.text ++ ".".toList))

end Exporter

end EntityScaffold.Run
