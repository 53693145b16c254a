import EntityScaffold.CommandLine.Switch
import EntityScaffold.Text.Quoted

/- What can be wrong with a command line. -/

namespace EntityScaffold.CommandLine

inductive Complaint where
  | ambiguous (word : Text) (names : List Text)
  | valueIgnored (s : Switch) (value : Text)
  | valueMissing (s : Switch)
  | unrecognized (words : List Text)
  deriving DecidableEq, Repr

def Complaint.message : Complaint → Text
  | ambiguous word names =>
    "ambiguous option: ".toList ++ word ++ " could match ".toList ++ Text.joinWith ", ".toList names
  | valueIgnored s value =>
    "argument ".toList ++ s.title ++ ": ignored explicit argument ".toList ++ Text.quoted value
  | valueMissing s => "argument ".toList ++ s.title ++ ": expected one argument".toList
  | unrecognized words => "unrecognized arguments: ".toList ++ Text.joinWith [' '] words

end EntityScaffold.CommandLine
