import EntityScaffold.Text.Case

/- Names derived from an entity's name: the variable, the collection and the message key. -/

namespace EntityScaffold.Naming

def lowerCamel : Text → Text
  | [] => []
  | c :: r => Text.lowerChar c ++ r

def vowels : Text := "aeiou".toList

def sibilants : List Text := ["s".toList, "x".toList, "z".toList, "ch".toList, "sh".toList]

/-- The plural of a word, as it stands in a collection's address: a final `y` after any character but a vowel becomes
`ies`, a sibilant ending takes `es`, and every other word takes `s`. -/
def plural (word : Text) : Text :=
  match word.reverse with
  | [] => []
  | 'y' :: d :: r => if vowels.contains d then word ++ ['s'] else (d :: r).reverse ++ "ies".toList
  | _ => if sibilants.any fun e => e.isSuffixOf word then word ++ "es".toList else word ++ ['s']

/-- The name in upper case, as it stands in message keys. -/
def upperKey (name : Text) : Text := Text.upper name

end EntityScaffold.Naming
