import EntityScaffold.Proofs.Artifact.Places
import EntityScaffold.Proofs.SharedFile.Filling

/-
The modules that the built-in shared files import. A snippet spells the way to a module from the folder of its shared
file, whatever folders the settings name; so each import leads to an artifact just where the artifact's folder leads to
the one that is built in.
-/

namespace EntityScaffold.SharedFile

open Artifact (Kind)
open Naming (Identifier AddressPrefix isWordChar)
open Template (Context Piece Fills fill plain pieces substitute)

/-- The module that a line imports: the text between its first two quotes. -/
def importOf? (line : Text) : Option Text :=
  if "import ".toList.isPrefixOf line then (Text.splitAt '\'' line)[1]? else none

/-- The modules that the snippets of a shared file import. -/
def Target.imports (t : Target) (context : Context) : List Text :=
  t.insertions.flatMap fun i => (Text.lines (substitute i.snippet context)).filterMap importOf?

/-- The file of a module that a shared file imports, below the project's root. -/
def Target.moduleFile (t : Target) (m : Text) : Path := t.place.parent / Path.ofText (m ++ ".ts".toList)

/-- The kinds of artifacts that the built-in shared files import, in the order of the imports. -/
def importedBy : List (Target × List Kind) := [
  (registry, [.controller, .service]),
  (router, [.routes]),
  (documentation, [.docPaths, .docDefinition])]

theorem importOf?_quoted {before : Text} (starts : "import ".toList <+: before) (hbefore : '\'' ∉ before) {m : Text}
    (hm : '\'' ∉ m) (after : Text) : importOf? (before ++ '\'' :: (m ++ '\'' :: after)) = some m := by
  have begins : "import ".toList.isPrefixOf (before ++ '\'' :: (m ++ '\'' :: after)) = true :=
    List.isPrefixOf_iff_prefix.2 (starts.trans (List.prefix_append _ _))
  rw [importOf?, if_pos begins, Text.splitAt_append_cons, Text.splitAt_of_not_mem hbefore, Text.splitAt_append_cons,
    Text.splitAt_of_not_mem hm]
  rfl

/-- Whether pieces begin with a character that no import begins with. -/
def isOtherLine : List Piece → Bool
  | .plain c :: _ => c ≠ 'i'
  | _ => false

theorem importOf?_of_isOtherLine {context : Context} {l : List Piece} (h : isOtherLine l = true) :
    importOf? (fill context l) = none := by
  unfold isOtherLine at h
  split at h
  · next c r =>
    have differs : 'i' ≠ c := fun he => by simp [← he] at h
    have begins : "import ".toList.isPrefixOf (c :: fill context r) = false := by
      simp [List.isPrefixOf, differs]
    change (if "import ".toList.isPrefixOf (c :: fill context r) then _ else none) = none
    rw [begins, if_neg Bool.false_ne_true]
  · exact absurd h (by simp)

/-- An import in a snippet: what stands before the path of the module, the folder in that path, the end of the module's
name, and the kind of artifact that is meant. -/
structure Import where
  before : List Piece
  folder : Text
  ending : Text
  kind : Kind

namespace Import

def path (i : Import) : List Piece := around (i.folder ++ ['/']) "modelName".toList i.ending

def line (i : Import) : List Piece := i.before ++ .plain '\'' :: (i.path ++ .plain '\'' :: plain ";".toList)

def moduleName (e : Identifier) (i : Import) : Text := i.folder ++ '/' :: (Naming.lowerCamel e.name ++ i.ending)

def table : List (Target × List Import) := [
  (registry, [
    ⟨around "import \x7b ".toList "ModelName".toList "Controller \x7d from ".toList, "../controllers".toList,
      "Controller".toList, .controller⟩,
    ⟨around "import \x7b ".toList "ModelName".toList "Service \x7d from ".toList, "../services".toList,
      "Service".toList, .service⟩]),
  (router, [⟨around "import ".toList "ModelName".toList "Routes from ".toList, ".".toList, "Routes".toList, .routes⟩]),
  (documentation, [
    ⟨around "import ".toList "modelName".toList "Paths from ".toList, "./paths".toList, "Paths".toList, .docPaths⟩,
    ⟨around "import ".toList "modelName".toList "Definitions from ".toList, "./definitions".toList,
      "Definition".toList, .docDefinition⟩])]

/-- What can be read off an import in a shared file: it is a line of the wanted form, and its folder, taken from that of
the shared file, is the one built in for the kind. -/
structure Fits (t : Target) (i : Import) : Prop where
  starts : plain "import ".toList <+: i.before
  unquoted : .plain '\'' ∉ i.before ++ i.path
  named : hasSlotsAmong wordSlots (i.before ++ i.path) = true
  ending : i.ending ++ ".ts".toList = i.kind.layout.ending
  lowered : i.kind.layout.keepsCase = false
  flat : i.kind.layout.subfolder = none
  dotted : i.folder.head? = some '.'
  folder : FileTree.collapse (t.place.parent.parts ++ (Path.ofText i.folder).parts) =
    (Path.ofText i.kind.layout.family.defaultFolder).parts

variable {t : Target} {i : Import} {is : List Import} {p : AddressPrefix} {e : Identifier}

theorem mem_builtIn_of_mem (h : (t, is) ∈ table) : t ∈ builtIn := by
  have targets : table.map Prod.fst = builtIn := rfl
  exact targets ▸ List.mem_map_of_mem h

theorem fits_of_mem (h : (t, is) ∈ table) (hi : i ∈ is) : i.Fits t := by
  have checks : ∀ row ∈ table, ∀ i ∈ row.2,
      (plain "import ".toList <+: i.before ∧ .plain '\'' ∉ i.before ++ i.path ∧
        hasSlotsAmong wordSlots (i.before ++ i.path) = true) ∧
      (i.ending ++ ".ts".toList = i.kind.layout.ending ∧ i.kind.layout.keepsCase = false ∧
        i.kind.layout.subfolder = none) ∧
      i.folder.head? = some '.' ∧
      FileTree.collapse (row.1.place.parent.parts ++ (Path.ofText i.folder).parts) =
        (Path.ofText i.kind.layout.family.defaultFolder).parts := by
    decide
  obtain ⟨⟨starts, unquoted, named⟩, ⟨ending, lowered, flat⟩, dotted, folder⟩ := checks (t, is) h i hi
  exact ⟨starts, unquoted, named, ending, lowered, flat, dotted, folder⟩

theorem lines_of_mem (h : (t, is) ∈ table) :
    ∃ others, t.insertions.flatMap (·.pieceBlock) = is.map line ++ others ∧ others.all isOtherLine = true := by
  have checks : ∀ row ∈ table,
      (row.1.insertions.flatMap (·.pieceBlock)).take row.2.length = row.2.map line ∧
        ((row.1.insertions.flatMap (·.pieceBlock)).drop row.2.length).all isOtherLine = true := by
    decide
  obtain ⟨first, others⟩ := checks (t, is) h
  refine ⟨(t.insertions.flatMap (·.pieceBlock)).drop is.length, ?_, others⟩
  calc t.insertions.flatMap (·.pieceBlock)
    _ = (t.insertions.flatMap (·.pieceBlock)).take is.length ++
        (t.insertions.flatMap (·.pieceBlock)).drop is.length := (List.take_append_drop _ _).symm
    _ = is.map line ++ (t.insertions.flatMap (·.pieceBlock)).drop is.length := by rw [first]

theorem fill_path (i : Import) (e : Identifier) (p : AddressPrefix) :
    fill (entityContext e.name p.text) i.path = i.moduleName e := by
  have value : (Piece.slot "modelName".toList).fill (entityContext e.name p.text) = Naming.lowerCamel e.name := rfl
  rw [path, fill_around, value, moduleName]
  simp

theorem Fits.importOf?_line (h : i.Fits t) (e : Identifier) (p : AddressPrefix) :
    importOf? (fill (entityContext e.name p.text) i.line) = some (i.moduleName e) := by
  have word : Fills isWordChar (entityContext e.name p.text) (i.before ++ i.path) := fills_wordSlots e p h.named
  have unquoted {ps : List Piece} (sub : ps ⊆ i.before ++ i.path) :
      '\'' ∉ fill (entityContext e.name p.text) ps := by
    intro hm
    rcases Template.mem_of_mem_fill (word.mono sub) hm with slot | quote
    · exact absurd slot (by decide)
    · exact h.unquoted (sub quote)
  have starts : "import ".toList <+: fill (entityContext e.name p.text) i.before := by
    obtain ⟨rest, hrest⟩ := h.starts
    rw [← hrest, Template.fill_append, Template.fill_plain]
    exact List.prefix_append _ _
  have written : fill (entityContext e.name p.text) i.line =
      fill (entityContext e.name p.text) i.before ++ '\'' :: (i.moduleName e ++ '\'' :: ";".toList) := by
    rw [← fill_path i e p]
    simp [line, Piece.fill]
  rw [written]
  refine importOf?_quoted starts (unquoted (List.subset_append_left _ _)) ?_ _
  rw [← fill_path i e p]
  exact unquoted (List.subset_append_right _ _)

theorem Fits.moduleFile_eq (h : i.Fits t) (e : Identifier) :
    t.moduleFile (i.moduleName e) =
      ⟨t.place.root, t.place.parent.parts ++ ((Path.ofText i.folder).parts ++ [i.kind.layout.fileName e.name])⟩ := by
  have file : i.moduleName e ++ ".ts".toList = i.folder ++ '/' :: i.kind.layout.fileName e.name := by
    simp [moduleName, Artifact.Layout.fileName, h.lowered, ← h.ending]
  rw [Target.moduleFile, file, Path.ofText_append_cons h.dotted (Artifact.fileName_no_slash i.kind e.no_slash)
    (Artifact.fileName_not_idle i.kind e.name)]
  rfl

end Import

variable {t : Target} {is : List Import}

theorem Target.imports_eq (ht : t ∈ builtIn) (e : Identifier) (p : AddressPrefix) (rest : Context) :
    t.imports (entityContext e.name p.text ++ rest) =
      (t.insertions.flatMap (·.pieceBlock)).filterMap fun l => importOf? (fill (entityContext e.name p.text) l) := by
  rw [Target.imports, List.filterMap_flatMap]
  refine List.flatMap_congr fun i hi => ?_
  have slots := ((slots_of_mem_builtIn ht).2 i hi).1
  have renders := (isStable_of_mem_builtIn ht p).renders e i hi
  have lines : Text.lines (substitute i.snippet (entityContext e.name p.text ++ rest)) = i.linesOf p e ++ [[]] := by
    have same : substitute i.snippet (entityContext e.name p.text ++ rest) =
        substitute i.snippet (entityContext e.name p.text) := fill_append_context (fills_addressSlots e p slots) rest
    have whole := Text.lines_ended_append (fun l hl => (renders.neat l hl).not_mem) []
    rw [List.append_nil] at whole
    rw [same, renders.snippet_eq, whole]
    rfl
  rw [lines, List.filterMap_append, Insertion.linesOf, Insertion.block, List.filterMap_map]
  exact List.append_nil _

/-- Each built-in shared file imports the modules of its table, whatever else a context holds. -/
theorem Import.imports_of_mem (h : (t, is) ∈ table) (e : Identifier) (p : AddressPrefix) (rest : Context) :
    t.imports (entityContext e.name p.text ++ rest) = is.map (·.moduleName e) := by
  obtain ⟨others, lines, other⟩ := lines_of_mem h
  have none_ : (others.filterMap fun l => importOf? (fill (entityContext e.name p.text) l)) = [] := by
    refine List.filterMap_eq_nil_iff.2 fun l hl => ?_
    exact importOf?_of_isOtherLine (List.all_eq_true.1 other l hl)
  rw [Target.imports_eq (mem_builtIn_of_mem h), lines, List.filterMap_append, none_, List.append_nil, List.filterMap_map]
  have each : ∀ i ∈ is, importOf? (fill (entityContext e.name p.text) i.line) = some (i.moduleName e) :=
    fun i hi => (fits_of_mem h hi).importOf?_line e p
  rw [← List.filterMap_eq_map]
  exact List.filterMap_congr each

end EntityScaffold.SharedFile
