import EntityScaffold.Proofs.Payload.Expectations
import Mathlib.Data.List.Induction

/-
The payloads in closed form. One pass over the fields gathers all of them, where each takes a field by how much it holds already;
what comes out depends on the place of a field among the others, and on nothing else that went before.
-/

namespace EntityScaffold.Payload

open Schema

variable {cap optionalCap invalidCap : Int} {taken : Nat} {f : Field} {fs gs : List Field}

section Pass

/-- The payloads as far as a pass over the fields has come. -/
structure Draft where
  createData : List Text := []
  createExpectation : List Text := []
  updateData : List Text := []
  updateExpectation : List Text := []
  partialUpdateData : List Text := []
  invalidData : List Text := []
  filterParam : Option Text := none

/-- One more field. Whether a payload takes it depends on how many entries the payload holds by now. -/
def Draft.add (optionalCap invalidCap : Int) (d : Draft) (f : Field) : Draft where
  createData :=
    if !f.isOptional || (d.createData.length : Int) < optionalCap then d.createData ++ [entry f (fieldLiterals f).create]
    else d.createData
  createExpectation :=
    if !f.isOptional || (d.createData.length : Int) < optionalCap then d.createExpectation ++ [expectation f]
    else d.createExpectation
  updateData := d.updateData ++ [entry f (fieldLiterals f).update]
  updateExpectation := d.updateExpectation ++ [expectation f]
  partialUpdateData :=
    if d.partialUpdateData.isEmpty then d.partialUpdateData ++ [entry f (fieldLiterals f).update] else d.partialUpdateData
  invalidData :=
    if (d.invalidData.length : Int) < invalidCap then d.invalidData ++ [entry f (fieldLiterals f).invalid] else d.invalidData
  filterParam := if d.filterParam.isNone && isFilter f then some (f.name ++ "=test".toList) else d.filterParam

/-- The draft as it is given out, with the identifier to filter by if no field was found. -/
def Draft.testData (d : Draft) : TestData where
  createData := d.createData
  createExpectation := d.createExpectation
  updateData := d.updateData
  updateExpectation := d.updateExpectation
  partialUpdateData := d.partialUpdateData
  invalidData := d.invalidData
  filterParam := d.filterParam.getD "id=1".toList

end Pass

section Places

end Places

end EntityScaffold.Payload
