import EntityScaffold.Data.Datum

/-
Checking data: every issue is collected with the place where it was found, so that one check reports all of them.
-/

namespace EntityScaffold.Data

/-- One step on the way to a place in a datum. -/
inductive Step where
  | key (name : Text)
  | index (i : Nat)
  | number (i : Int)
  deriving DecidableEq, Repr

inductive Cause where
  | missing
  | unexpected
  | notText
  | notUnicode
  | emptyText
  | below (least : Int)
  | notTuple
  | notList
  | notModel (name : Text)
  | notInteger
  | unreadableInteger
  | fractional
  | notFinite
  | oversizedInteger
  | notBoolean
  | unreadableBoolean
  | tooFew (least found : Nat)
  | keyNotText
  | noSuchSetting (name : Text)
  deriving DecidableEq, Repr

def Cause.kind : Cause → Text
  | .missing => "missing".toList
  | .unexpected => "extra_forbidden".toList
  | .notText => "string_type".toList
  | .notUnicode => "string_unicode".toList
  | .emptyText => "string_too_short".toList
  | .below _ => "greater_than_equal".toList
  | .notTuple => "tuple_type".toList
  | .notList => "list_type".toList
  | .notModel _ => "model_type".toList
  | .notInteger => "int_type".toList
  | .unreadableInteger => "int_parsing".toList
  | .fractional => "int_from_float".toList
  | .notFinite => "finite_number".toList
  | .oversizedInteger => "int_parsing_size".toList
  | .notBoolean => "bool_type".toList
  | .unreadableBoolean => "bool_parsing".toList
  | .tooFew _ _ => "too_short".toList
  | .keyNotText => "invalid_key".toList
  | .noSuchSetting _ => "no_such_attribute".toList

def Cause.message : Cause → Text
  | .missing => "Field required".toList
  | .unexpected => "Extra inputs are not permitted".toList
  | .notText => "Input should be a valid string".toList
  | .notUnicode => "Input should be a valid string, unable to parse raw data as a unicode string".toList
  | .emptyText => "String should have at least 1 character".toList
  | .below least => "Input should be greater than or equal to ".toList ++ Text.ofInt least
  | .notTuple => "Input should be a valid tuple".toList
  | .notList => "Input should be a valid list".toList
  | .notModel name => "Input should be a valid dictionary or instance of ".toList ++ name
  | .notInteger => "Input should be a valid integer".toList
  | .unreadableInteger => "Input should be a valid integer, unable to parse string as an integer".toList
  | .fractional => "Input should be a valid integer, got a number with a fractional part".toList
  | .notFinite => "Input should be a finite number".toList
  | .oversizedInteger => "Unable to parse input string as an integer, exceeded maximum size".toList
  | .notBoolean => "Input should be a valid boolean".toList
  | .unreadableBoolean => "Input should be a valid boolean, unable to interpret input".toList
  | .tooFew least found =>
    "Tuple should have at least ".toList ++ Text.ofNat least ++ " item after validation, not ".toList ++
      Text.ofNat found
  | .keyNotText => "Keys should be strings".toList
  | .noSuchSetting name => "Object has no attribute '".toList ++ name ++ "'".toList

structure Issue where
  place : List Step
  cause : Cause
  deriving DecidableEq, Repr

/-- A checked value, or all issues that were found. -/
inductive Checked (α : Type) where
  | good (value : α)
  | bad (issues : List Issue)
  deriving DecidableEq, Repr

namespace Checked

variable {α β : Type}

def issues : Checked α → List Issue
  | good _ => []
  | bad is => is

def map (f : α → β) : Checked α → Checked β
  | good a => good (f a)
  | bad is => bad is

/-- Both checks are made, and the issues of the second follow those of the first. -/
def both (f : Checked (α → β)) (a : Checked α) : Checked β :=
  match f, a with
  | good f, good a => good (f a)
  | good _, bad js => bad js
  | bad is, good _ => bad is
  | bad is, bad js => bad (is ++ js)

instance : Functor Checked where
  map := map

instance : Seq Checked where
  seq f a := both f (a ())

instance : Pure Checked where
  pure := good

instance : Applicative Checked where

def refuse (cause : Cause) : Checked α := bad [⟨[], cause⟩]

def within (s : Step) : Checked α → Checked α
  | good a => good a
  | bad is => bad (is.map fun i => { i with place := s :: i.place })

def thenCheck (a : Checked α) (f : α → Checked β) : Checked β :=
  match a with
  | good a => f a
  | bad is => bad is

end Checked

end EntityScaffold.Data
