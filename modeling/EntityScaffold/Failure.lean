import EntityScaffold.Artifact.Catalog
import EntityScaffold.Data.Checked
import EntityScaffold.FileTree.Refusal
import EntityScaffold.Yaml.Fault

/- What can stop a job, and what it says about it. -/

namespace EntityScaffold

/-- Why a job stopped. -/
inductive Failure where
  | entityMissing (entity : Text)
  | schemaUnreadable (path reason : Text)
  | templateUnreadable (kind : Artifact.Kind) (path reason : Text)
  | settingsUnreadable (path reason : Text)
  | settingsMalformed (path : Text)
  | settingsNotMap (path kind : Text)
  | settingsInvalid (issues : List Data.Issue)
  | recordInvalid (issues : List Data.Issue)
  | refused (r : FileTree.Refusal)
  | undecodable (fault : Utf8.Fault)
  | flawed (f : Yaml.Flaw)
  | numberTooLong
  | nameWithoutText
  | kindUnknown (name : Text)
  | inputEnded (label : Text)
  deriving DecidableEq, Repr

namespace Failure

def issueCount (issues : List Data.Issue) : Text :=
  Text.ofNat issues.length ++ (if issues.length = 1 then " validation error".toList else " validation errors".toList)

def message : Failure → Text
  | entityMissing entity => "Model ".toList ++ entity ++ " not found in schema".toList
  | schemaUnreadable path reason => "Cannot read schema file ".toList ++ path ++ ": ".toList ++ reason
  | templateUnreadable kind path reason =>
    "Cannot read template for '".toList ++ kind.name ++ "' at ".toList ++ path ++
      (if reason.isEmpty then [] else ": ".toList ++ reason)
  | settingsUnreadable path reason => "Cannot read config file ".toList ++ path ++ ": ".toList ++ reason
  | settingsMalformed path => "Invalid YAML in ".toList ++ path
  | settingsNotMap path kind =>
    "Expected a YAML mapping at top level of ".toList ++ path ++ ", got ".toList ++ kind ++ ".".toList
  | settingsInvalid issues => "Config validation failed: ".toList ++ issueCount issues
  | recordInvalid issues => issueCount issues
  | refused r => r.message
  | undecodable fault => fault.message
  | flawed f => f.message
  | numberTooLong =>
    "Exceeds the limit (4300 digits) for integer string conversion; ".toList ++
      "use sys.set_int_max_str_digits() to increase the limit".toList
  | nameWithoutText => "'list' object has no attribute 'strip'".toList
  | kindUnknown name => Text.quoted name ++ " is not a valid ArtifactKind".toList
  | inputEnded label => label

def isOfSettings : Failure → Bool
  | settingsUnreadable .. => true
  | settingsMalformed _ => true
  | settingsNotMap .. => true
  | settingsInvalid _ => true
  | _ => false

def isOfSchema : Failure → Bool
  | entityMissing _ => true
  | schemaUnreadable .. => true
  | _ => false

/-- Whether the file system gave a reason for refusing a request. -/
def isSystem : Failure → Bool
  | refused (.system ..) => true
  | _ => false

/-- Whether the file system found nothing at a path or on the way to it. -/
def isMissing : Failure → Bool
  | refused (.system .missing _ _) => true
  | _ => false

def isUndecodable : Failure → Bool
  | undecodable _ => true
  | _ => false

def isOfArtifact : Failure → Bool
  | templateUnreadable .. => true
  | f => f.isSystem

end Failure

end EntityScaffold
