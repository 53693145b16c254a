import EntityScaffold.Text.Quoted

/- What can be wrong with a settings text. -/

namespace EntityScaffold.Yaml

/-- Why a scalar has no value although the text around it is well formed. -/
inductive Flaw where
  /-- What is spelled does not exist, such as a day that is not in the calendar. -/
  | outOfRange (reason : Text)
  | emptyNumber
  | notTruthValue (word : Text)
  | notMoment
  | momentOfMapping
  | tooManyParts
  | characterTooWide
  deriving DecidableEq, Repr

def Flaw.message : Flaw → Text
  | outOfRange reason => reason
  | emptyNumber => "string index out of range".toList
  | notTruthValue word => Text.quoted word
  | notMoment => "'NoneType' object has no attribute 'groupdict'".toList
  | momentOfMapping => "expected string or bytes-like object, got 'list'".toList
  | tooManyParts => "int too large to convert to float".toList
  | characterTooWide => "Python int too large to convert to C int".toList

/-- What is wrong with a settings text: it is not well formed, or a value in it cannot be made. -/
inductive Fault where
  | malformed
  | flawed (f : Flaw)
  deriving DecidableEq, Repr

def Fault.outOfRange (reason : Text) : Fault := .flawed (.outOfRange reason)

end EntityScaffold.Yaml
