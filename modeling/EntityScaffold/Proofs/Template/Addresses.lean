import EntityScaffold.Proofs.SharedFile.Filling
import EntityScaffold.Proofs.Template.Packaged

/-
The address of an entity's collection. The router, the documentation and the integration tests write it from the same values,
so that it is one address in all of them, whatever the prefix is.
-/

namespace EntityScaffold.Template

open Naming (Identifier isWordChar)
open Artifact (Kind)
open SharedFile (Names hasSlotsAmong wordSlots)
open Text (ended)

/-- The address of the collection of an entity's records. -/
def collectionAddress (entity apiPrefix : Text) : Text :=
  apiPrefix ++ '/' :: Naming.plural (Naming.lowerCamel entity)

section Pieces

variable {entity apiPrefix : Text} {e : Identifier} {c : Context} {ps : List Piece}

/-- The pieces of an address, with others around it. -/
def addressed (before : Text) (after : List Piece) : List Piece :=
  plain before ++ .slot "apiPrefix".toList :: .plain '/' :: .slot "pluralModelName".toList :: after

theorem fill_addressed (h : Names entity apiPrefix c) (before : Text) (after : List Piece) :
    fill c (addressed before after) = before ++ collectionAddress entity apiPrefix ++ fill c after := by
  simp only [addressed, collectionAddress, fill_append, fill_plain, fill_cons, Piece.fill, h.apiPrefix, h.plural,
    Option.getD_some, List.append_assoc, List.cons_append, List.nil_append]

/-- Whether pieces part from a text before their first slot. -/
def parts : Text → List Piece → Bool
  | _ :: _, [] => true
  | d :: mark, .plain c :: ps => c ≠ d || parts mark ps
  | _, _ => false

theorem not_prefix_of_parts {mark : Text} (h : parts mark ps = true) : ¬ mark <+: fill c ps := by
  fun_induction parts mark ps with
  | case1 d mark => simp
  | case2 d mark x ps ih =>
    intro starts
    change d :: mark <+: x :: fill c ps at starts
    obtain ⟨same, starts⟩ := List.cons_prefix_cons.1 starts
    exact ih (by simpa [same] using h) starts
  | case3 => cases h

/-- Whether a line of a template has no slots but those of names, and does not start with a mark. -/
def isApart (mark : Text) (line : Text) : Bool :=
  hasSlotsAmong wordSlots (pieces line) && !(pieces line).contains (.plain '\n') && parts mark (pieces line)

theorem apart_of_isApart {mark line : Text} (h : Names e.name apiPrefix c) (apart : isApart mark line = true) :
    '\n' ∉ substitute line c ∧ ¬ mark <+: substitute line c := by
  simp only [isApart, Bool.and_eq_true] at apart
  obtain ⟨⟨slots, oneLine⟩, parts⟩ := apart
  rw [substitute_eq_fill]
  have lineFeed : isWordChar '\n' = false := by decide
  exact ⟨not_mem_fill (h.fills slots) lineFeed (by simpa using oneLine), not_prefix_of_parts parts⟩

end Pieces

section Lines

variable {apiPrefix mark : Text} {e : Identifier} {c : Context}

theorem substitute_ended (ls : List Text) (c : Context) :
    substitute (ended ls) c = ended (ls.map fun l => substitute l c) := by
  have line (l : Text) : substitute (l ++ ['\n']) c = substitute l c ++ ['\n'] :=
    substitute_append_mark (by decide) (by decide) (by decide) (by decide) l [] c
  rw [ended, substitute_lines, ended, List.flatMap_map]
  exact List.flatMap_congr fun l _ => line l

/-- Whole lines, none of which starts with a mark. -/
def Unmarked (mark : Text) (ls : List Text) : Prop := ∀ l ∈ ls, '\n' ∉ l ∧ ¬ mark <+: l

def keyMark : Text := "    '".toList

/-- A key of a path in the documentation, with what stands after the address in it. -/
def keyLine (address : Text) (rest : String) : Text := keyMark ++ address ++ rest.toList ++ "': \x7b".toList

/-- Documentation of the paths below an address: three keys are the address with something after it, and no other line starts
as a key does. -/
def DocumentsAt (address content : Text) : Prop :=
  ∃ head create all byId : List Text,
    content = ended (head ++ keyLine address "/create" :: create ++ keyLine address "/all" :: all ++
      keyLine address "/\x7bid\x7d" :: byId) ∧
    Unmarked keyMark (head ++ create ++ all ++ byId)

def baseMark : Text := "const baseUrl = '".toList

/-- Tests of an address: the first line that sets the base sets it to the address. -/
def TestsAt (address content : Text) : Prop :=
  ∃ head rest : List Text, content = ended (head ++ (baseMark ++ address ++ "';".toList) :: rest) ∧ Unmarked baseMark head

/-- The lines that mount an entity's routes below an address. -/
def mountLines (entity address : Text) : List Text := [
  "import ".toList ++ entity ++ "Routes from './".toList ++ Naming.lowerCamel entity ++ "Routes';\n".toList,
  "router.use('".toList ++ address ++ "', authMiddleware, ".toList ++ entity ++ "Routes);\n".toList]

theorem mountLines_router {entity : Text} (h : Names entity apiPrefix c) :
    SharedFile.router.insertions.map (fun i => substitute i.snippet c) =
      mountLines entity (collectionAddress entity apiPrefix) := by
  have insertions : SharedFile.router.insertions.map (pieces ·.snippet) = [
      plain "import ".toList ++ .slot "ModelName".toList :: plain "Routes from './".toList ++
        .slot "modelName".toList :: plain "Routes';\n".toList,
      addressed "router.use('".toList (plain "', authMiddleware, ".toList ++ .slot "ModelName".toList ::
        plain "Routes);\n".toList)] := by decide
  have filled : SharedFile.router.insertions.map (fun i => substitute i.snippet c) =
      (SharedFile.router.insertions.map (pieces ·.snippet)).map (fill c) := by
    rw [List.map_map]
    rfl
  rw [filled, insertions, List.map_cons, List.map_singleton, fill_addressed h]
  simp only [fill_append, fill_plain, fill_cons, Piece.fill, h.full, h.lower, Option.getD_some, mountLines,
    List.append_assoc]

/-- The lines of templates, filled. -/
def filledLines (ls : List String) (c : Context) : List Text := ls.map fun l => substitute l.toList c

theorem substitute_packaged (k : Kind) (c : Context) :
    substitute k.packaged c = ended (filledLines k.packagedLines c) := by
  rw [packaged_eq]
  refine (substitute_ended (k.packagedLines.map String.toList) c).trans ?_
  rw [List.map_map]
  rfl

theorem unmarked_filledLines {ls : List String} (h : Names e.name apiPrefix c)
    (apart : ∀ l ∈ ls, isApart mark l.toList = true) : Unmarked mark (filledLines ls c) := by
  intro l hl
  obtain ⟨line, hline, rfl⟩ := List.mem_map.1 hl
  exact apart_of_isApart h (apart line hline)

/-- The lines of the packaged templates that an address stands in: the keys of the paths, and the base of the tests. -/
def createKey : String := "    '$\x7bapiPrefix\x7d/$\x7bpluralModelName\x7d/create': \x7b"

def allKey : String := "    '$\x7bapiPrefix\x7d/$\x7bpluralModelName\x7d/all': \x7b"

def byIdKey : String := "    '$\x7bapiPrefix\x7d/$\x7bpluralModelName\x7d/\x7bid\x7d': \x7b"

def baseLine : String := "const baseUrl = '$\x7bapiPrefix\x7d/$\x7bpluralModelName\x7d';"

/-- The lines of the packaged documentation without its keys: what stands before the first key, and below each of them. -/
def docHead : List String := Packaged.docPaths.take 1

def docCreate : List String := (Packaged.docPaths.drop 2).take 19

def docAll : List String := (Packaged.docPaths.drop 22).take 14

def docById : List String := Packaged.docPaths.drop 37

theorem docPaths_eq : Packaged.docPaths =
    docHead ++ createKey :: docCreate ++ allKey :: docAll ++ byIdKey :: docById := rfl

theorem doc_apart : ∀ l ∈ docHead ++ docCreate ++ docAll ++ docById, isApart keyMark l.toList = true := by
  apply Spells.forall_mem (p := isApart keyMark)
  case spells =>
    dsimp only [docHead, docCreate, docAll, docById, Packaged.docPaths, List.take, List.drop, List.cons_append,
      List.nil_append]
    repeat constructor
  case all => decide

theorem documentsAt_packaged (h : Names e.name apiPrefix c) :
    DocumentsAt (collectionAddress e.name apiPrefix) (substitute Kind.docPaths.packaged c) := by
  -- A prefix can hold any text, line feeds too, so the keys are not read off the content but filled from their own pieces.
  have key (rest : String) {l : Text} (hl : pieces l = addressed keyMark (plain (rest.toList ++ "': \x7b".toList))) :
      substitute l c = keyLine (collectionAddress e.name apiPrefix) rest := by
    rw [substitute_eq_fill, hl, fill_addressed h, fill_plain, keyLine]
    simp only [List.append_assoc]
  have create : substitute createKey.toList c = keyLine _ "/create" := key _ (by decide)
  have all : substitute allKey.toList c = keyLine _ "/all" := key _ (by decide)
  have byId : substitute byIdKey.toList c = keyLine _ "/\x7bid\x7d" := key _ (by decide)
  refine ⟨filledLines docHead c, filledLines docCreate c, filledLines docAll c, filledLines docById c, ?_, ?_⟩
  · rw [substitute_packaged]
    change ended (filledLines Packaged.docPaths c) = _
    simp only [docPaths_eq, filledLines, List.map_append, List.map_cons, create, all, byId]
  · have unmarked := unmarked_filledLines h doc_apart
    simpa only [filledLines, List.map_append] using unmarked

theorem integrationTest_eq : Packaged.integrationTest =
    Packaged.integrationTest.take 4 ++ baseLine :: Packaged.integrationTest.drop 5 := rfl

theorem integrationTest_apart : ∀ l ∈ Packaged.integrationTest.take 4, isApart baseMark l.toList = true := by
  apply Spells.forall_mem (p := isApart baseMark)
  case spells =>
    dsimp only [Packaged.integrationTest, List.take]
    repeat constructor
  case all => decide

theorem testsAt_packaged (h : Names e.name apiPrefix c) :
    TestsAt (collectionAddress e.name apiPrefix) (substitute Kind.integrationTest.packaged c) := by
  have base : pieces baseLine.toList = addressed baseMark (plain "';".toList) := by decide
  have set : substitute baseLine.toList c = baseMark ++ collectionAddress e.name apiPrefix ++ "';".toList := by
    rw [substitute_eq_fill, base, fill_addressed h, fill_plain]
  refine ⟨filledLines (Packaged.integrationTest.take 4) c, filledLines (Packaged.integrationTest.drop 5) c, ?_,
    unmarked_filledLines h integrationTest_apart⟩
  rw [substitute_packaged]
  change ended (filledLines Packaged.integrationTest c) = _
  rw [integrationTest_eq, filledLines, List.map_append, List.map_cons, set]
  rfl

end Lines

end EntityScaffold.Template
