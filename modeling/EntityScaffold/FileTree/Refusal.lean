import EntityScaffold.Text.Quoted

/- Why a file system refuses a request. -/

namespace EntityScaffold.FileTree

inductive Reason where
  | missing
  | busy
  | exists
  | notFolder
  | isFolder
  | nameTooLong
  | other (code : Nat) (wording : Text)
  deriving DecidableEq, Repr

def Reason.code : Reason → Nat
  | .missing => 2
  | .busy => 16
  | .exists => 17
  | .notFolder => 20
  | .isFolder => 21
  | .nameTooLong => 36
  | .other code _ => code

def Reason.wording : Reason → Text
  | .missing => "No such file or directory".toList
  | .busy => "Device or resource busy".toList
  | .exists => "File exists".toList
  | .notFolder => "Not a directory".toList
  | .isFolder => "Is a directory".toList
  | .nameTooLong => "File name too long".toList
  | .other _ wording => wording

inductive Refusal where
  /-- The system gives a reason for a path, or for a move between two paths. -/
  | system (reason : Reason) (path : Text) (target : Option Text)
  /-- The path holds a null character and never reaches the system. -/
  | nullInPath
  deriving DecidableEq, Repr

def Refusal.message : Refusal → Text
  | .system reason path target =>
    "[Errno ".toList ++ Text.ofNat reason.code ++ "] ".toList ++ reason.wording ++ ": ".toList ++
      Text.quoted path ++
      (match target with
      | none => []
      | some t => " -> ".toList ++ Text.quoted t)
  | .nullInPath => "embedded null byte".toList

end EntityScaffold.FileTree
