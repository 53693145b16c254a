import EntityScaffold.Payload.Literal
import EntityScaffold.Schema.Field

/- The payloads of generated tests: which fields each holds, with which literals, and what the answers are matched with. -/

namespace EntityScaffold.Payload

open Schema

/-- Payload entries, one for each field that a payload holds. -/
structure TestData where
  createData : List Text
  createExpectation : List Text
  updateData : List Text
  updateExpectation : List Text
  partialUpdateData : List Text
  invalidData : List Text
  filterParam : Text
  deriving DecidableEq, Repr

/-- The fields of a payload that creates: every required field, and an optional one only while the payload holds fewer entries
than the cap. The count is of the entries taken so far. -/
def createFields (cap : Int) : Nat → List Field → List Field
  | _, [] => []
  | taken, f :: fs =>
    if !f.isOptional || (taken : Int) < cap then f :: createFields cap (taken + 1) fs
    else createFields cap taken fs

/-- The first fields, as many as the cap says; a cap below one takes none. -/
def firstFields (cap : Int) (fs : List Field) : List Field := fs.take cap.toNat

def fieldLiterals (f : Field) : Literals := literals f.name f.rawType f.isArray

def entry (f : Field) (value : Text) : Text := f.name ++ ": ".toList ++ value

def expectation (f : Field) : Text :=
  entry f ("expect.any(".toList ++ matcher f.rawType ++ ")".toList)

def isFilter (f : Field) : Bool := !f.isArray && scalar? f.rawType = some .string

/-- The query that a test filters by: the first string field, else the identifier. -/
def filterParam (fs : List Field) : Text :=
  match fs.find? isFilter with
  | some f => f.name ++ "=test".toList
  | none => "id=1".toList

/-- The payloads of a model, under the cap for optional fields and the cap for invalid ones. -/
def testData (m : Model) (optionalCap invalidCap : Int) (system : List Text) : TestData :=
  let fs := m.editable system
  let created := createFields optionalCap 0 fs
  { createData := created.map fun f => entry f (fieldLiterals f).create
    createExpectation := created.map expectation
    updateData := fs.map fun f => entry f (fieldLiterals f).update
    updateExpectation := fs.map expectation
    partialUpdateData := (fs.take 1).map fun f => entry f (fieldLiterals f).update
    invalidData := (firstFields invalidCap fs).map fun f => entry f (fieldLiterals f).invalid
    filterParam := filterParam fs }

def testDataNote (m : Model) (d : TestData) : Log.Entry :=
  Log.debug "crudgen.testdata".toList
    ("Test data for ".toList ++ m.entity ++ ": ".toList ++ Text.ofNat d.createData.length ++ " create, ".toList ++
      Text.ofNat d.updateData.length ++ " update entries, filter ".toList ++ d.filterParam ++ ".".toList)

/-- Entries as they stand in a template: one a line, indented like the template's own. -/
def block (entries : List Text) : Text :=
  Text.joinWith (',' :: '\n' :: List.replicate 16 ' ') entries

/-- The payloads as texts for a template's placeholders. -/
def TestData.placeholders (d : TestData) : List (Text × Text) := [
  ("testCreateData".toList, block d.createData),
  ("testCreateExpectation".toList, block d.createExpectation),
  ("testUpdateData".toList, block d.updateData),
  ("testUpdateExpectation".toList, block d.updateExpectation),
  ("testPartialUpdateData".toList, block d.partialUpdateData),
  ("testInvalidData".toList, block d.invalidData),
  ("testFilterParam".toList, d.filterParam)]

end EntityScaffold.Payload
