/- Texts as lists of code points: cutting at a needle, splitting at a separator, trimming. -/

namespace EntityScaffold

/-- A text is the list of its code points; lengths and offsets count code points. -/
abbrev Text := List Char

namespace Text

/-- Cuts at the first place where the needle starts: what stands before it, and the rest from there on. -/
def cut? (needle : Text) : Text → Option (Text × Text)
  | [] => if needle.isEmpty then some ([], []) else none
  | c :: r =>
    if needle.isPrefixOf (c :: r) then some ([], c :: r)
    else (cut? needle r).map fun p => (c :: p.1, p.2)

theorem append_of_cut? {needle t before rest : Text} (h : cut? needle t = some (before, rest)) :
    before ++ rest = t := by
  induction t generalizing before with
  | nil =>
    unfold cut? at h
    split at h <;> simp_all
  | cons c r ih =>
    unfold cut? at h
    split at h
    · simp_all
    · obtain ⟨p, hp, he⟩ := Option.map_eq_some_iff.1 h
      obtain ⟨rfl, rfl⟩ := Prod.mk.injEq .. ▸ he
      simpa using ih hp

theorem isPrefixOf_of_cut? {needle t before rest : Text} (h : cut? needle t = some (before, rest)) :
    needle.isPrefixOf rest = true := by
  induction t generalizing before with
  | nil =>
    unfold cut? at h
    split at h <;> simp_all
  | cons c r ih =>
    unfold cut? at h
    split at h
    · simp_all
    · obtain ⟨p, hp, he⟩ := Option.map_eq_some_iff.1 h
      obtain ⟨rfl, rfl⟩ := Prod.mk.injEq .. ▸ he
      exact ih hp

def has (t needle : Text) : Bool := (cut? needle t).isSome

/-- The stretches between the occurrences of a separator; an empty text is one empty stretch. -/
def splitAt (sep : Char) : Text → List Text
  | [] => [[]]
  | c :: r =>
    if c = sep then [] :: splitAt sep r
    else match splitAt sep r with
      | [] => [[c]]
      | p :: ps => (c :: p) :: ps

theorem splitAt_ne_nil (sep : Char) (t : Text) : splitAt sep t ≠ [] := by
  cases t with
  | nil => simp [splitAt]
  | cons c r =>
    unfold splitAt
    split
    · simp
    · split <;> simp

theorem intercalate_splitAt (sep : Char) (t : Text) : [sep].intercalate (splitAt sep t) = t := by
  induction t with
  | nil => rfl
  | cons c r ih =>
    unfold splitAt
    split
    · next h =>
      subst h
      cases hs : splitAt c r with
      | nil => exact absurd hs (splitAt_ne_nil c r)
      | cons p ps => rw [hs] at ih; simpa [List.intercalate, List.intersperse] using ih
    · cases hs : splitAt sep r with
      | nil => exact absurd hs (splitAt_ne_nil sep r)
      | cons p ps =>
        rw [hs] at ih
        cases ps <;> simp_all [List.intercalate, List.intersperse]

/-- The text without its longest end of characters in the class. -/
def trimEnd (inClass : Char → Bool) (t : Text) : Text := (t.reverse.dropWhile inClass).reverse

/-- The text without its longest start and end of characters in the class. -/
def trim (inClass : Char → Bool) (t : Text) : Text := trimEnd inClass (t.dropWhile inClass)

def joinWith (sep : Text) (ts : List Text) : Text := sep.intercalate ts

/-- The text filled up with spaces to a width; a longer text stays whole. -/
def padTo (width : Nat) (t : Text) : Text := t ++ List.replicate (width - t.length) ' '

/-- Decimal digits of an integer, with a minus sign below zero. -/
def ofInt (i : Int) : Text := (toString i).toList

def ofNat (n : Nat) : Text := (toString n).toList

/-- Whether an integer has so few digits that it is shown: four thousand three hundred at most. -/
def isShowable (i : Int) : Bool := i.natAbs < Nat.pow 10 4300

end Text

end EntityScaffold
