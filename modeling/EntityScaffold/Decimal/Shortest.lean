import EntityScaffold.Decimal.Binary

/-
The shortest decimal that reads back as a floating-point number. All reals that round to the number form an interval;
for one, two, … digits, the two decimals next to the number are tried, and the first that lies in the interval is it.
-/

namespace EntityScaffold.Decimal

/-- A decimal: digits without zeros at the end, as a number, and the power of ten that the last of them counts. -/
structure Digits where
  value : Nat
  power : Int
  deriving DecidableEq, Repr

structure Fraction where
  numerator : Nat
  denominator : Nat

/-- `n · 2 ^ e`. -/
def Fraction.scaled (n : Nat) (e : Int) : Fraction := ⟨n * Nat.pow 2 e.toNat, Nat.pow 2 (-e).toNat⟩

/-- Compares a fraction with `n · 10 ^ e`. -/
def Fraction.compareTo (f : Fraction) (n : Nat) (e : Int) : Ordering :=
  compare (f.numerator * Nat.pow 10 (-e).toNat) (n * Nat.pow 10 e.toNat * f.denominator)

def digitCount (n : Nat) : Nat := (Nat.toDigits 10 n).length

def Fraction.magnitude (f : Fraction) : Int :=
  let guess : Int := (digitCount f.numerator : Int) - digitCount f.denominator
  if f.compareTo 1 guess = .lt then guess - 1 else guess

def Fraction.wholeUnits (f : Fraction) (e : Int) : Nat :=
  (f.numerator * Nat.pow 10 (-e).toNat) / (f.denominator * Nat.pow 10 e.toNat)

/-- A number without the zeros at its end, at most so many of them, and how many there were. -/
def trimZeros : Nat → Nat → Nat × Nat
  | 0, n => (n, 0)
  | k + 1, n =>
    if n % 10 = 0 then
      let (d, z) := trimZeros k (n / 10)
      (d, z + 1)
    else (n, 0)

/-- The shortest decimal of `mantissa · 2 ^ exponent`, from a number of digits on. Four times the mantissa, two less and two more
are the number and the ends of its interval; below a power of two the interval is half as wide. -/
def shortestFrom (mantissa : Nat) (exponent : Int) : Nat → Nat → Digits
  | 0, _ => ⟨mantissa, 0⟩
  | more + 1, count =>
    let narrow := mantissa = Nat.pow 2 52 && -1074 < exponent
    let value := Fraction.scaled (4 * mantissa) (exponent - 2)
    let low := Fraction.scaled (4 * mantissa - if narrow then 1 else 2) (exponent - 2)
    let high := Fraction.scaled (4 * mantissa + 2) (exponent - 2)
    let ends := mantissa % 2 = 0
    let power := value.magnitude - count + 1
    let below := value.wholeUnits power
    let inside (n : Nat) : Bool :=
      let l := low.compareTo n power
      let h := high.compareTo n power
      (l = .lt || (ends && l = .eq)) && (h = .gt || (ends && h = .eq))
    let twice := Fraction.scaled (8 * mantissa) (exponent - 2)
    let nearer := match twice.compareTo (2 * below + 1) power with
      | .lt => below
      | .gt => below + 1
      | .eq => if below % 2 = 0 then below else below + 1
    let farther := if nearer = below then below + 1 else below
    let found := if inside nearer then some nearer else if inside farther then some farther else none
    match found with
    | some n =>
      let (d, z) := trimZeros 20 n
      ⟨d, power + z⟩
    | none => shortestFrom mantissa exponent more (count + 1)

/-- The shortest decimal of a positive number; seventeen digits always suffice. -/
def shortest (mantissa : Nat) (exponent : Int) : Digits := shortestFrom mantissa exponent 17 1

end EntityScaffold.Decimal
