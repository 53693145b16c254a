import EntityScaffold.Decimal.Shortest
import EntityScaffold.Text.Basic

/-
Floating-point numbers as texts: the shortest decimal that reads back, positional from one ten-thousandth up to ten
thousand billions, and else with an exponent of two digits at least.
-/

namespace EntityScaffold.Decimal

/-- Digits around a point that stands after so many of them. -/
def positional (digits : Text) (point : Int) : Text :=
  if point ≤ 0 then "0.".toList ++ List.replicate (-point).toNat '0' ++ digits
  else
    let whole := digits.take point.toNat ++ List.replicate (point.toNat - digits.length) '0'
    let part := digits.drop point.toNat
    whole ++ '.' :: (if part.isEmpty then ['0'] else part)

/-- Digits with a point after the first and an exponent. -/
def withExponent (digits : Text) (point : Int) : Text :=
  let exponent := point - 1
  let places := Text.ofNat exponent.natAbs
  let part := digits.drop 1
  digits.take 1 ++ (if part.isEmpty then [] else '.' :: part) ++ ['e', if exponent < 0 then '-' else '+'] ++
    List.replicate (2 - places.length) '0' ++ places

def Binary.text : Binary → Text
  | .notANumber => "nan".toList
  | .infinite negative => (if negative then ['-'] else []) ++ "inf".toList
  | .finite negative mantissa exponent =>
    let size :=
      if mantissa = 0 then "0.0".toList
      else
        let d := shortest mantissa exponent
        let digits := Text.ofNat d.value
        let point := d.power + digits.length
        if -4 < point && point ≤ 16 then positional digits point else withExponent digits point
    (if negative then ['-'] else []) ++ size

end EntityScaffold.Decimal
