/-!
Contract: numbers of double precision, without a sign.

Owns: the value of a double as a mantissa and a power of two, rounding a ratio
to the nearest one, and the shortest decimal that reads back as a given one.

Does not own: how a decimal is written.
-/

set_option autoImplicit false

namespace Registrar.Json

/-- The finite double `mantissa · 2 ^ exponent`, with at most 53 binary digits
in the mantissa and an exponent of at least −1074. -/
structure Binary64 where
  mantissa : Nat
  exponent : Int
  deriving DecidableEq

namespace Binary64

/-- The quotient rounded to the nearest natural number, a half to the even one. -/
def roundQuotient (numerator denominator : Nat) : Nat :=
  let quotient := numerator / denominator
  let twice := 2 * (numerator % denominator)
  if twice < denominator then quotient
  else if denominator < twice then quotient + 1
  else quotient + quotient % 2

/-- A ratio scaled by a power of two, as numerator and denominator. -/
def scaleBy (numerator denominator : Nat) (power : Int) : Nat × Nat :=
  match power with
  | .ofNat up => (numerator <<< up, denominator)
  | .negSucc down => (numerator, denominator <<< (down + 1))

/-- The exponent of the leading binary digit of a positive ratio. -/
def leadingExponent (numerator denominator : Nat) : Int :=
  let estimate : Int := (numerator.log2 : Int) - denominator.log2
  let scaled := scaleBy numerator denominator (-estimate)
  if scaled.2 ≤ scaled.1 then estimate else estimate - 1

/-- The double nearest to a ratio, a tie going to the even mantissa, and none
for a ratio beyond the largest finite double. -/
def ofRatio? (numerator denominator : Nat) : Option Binary64 :=
  if numerator = 0 then some ⟨0, -1074⟩
  else
    let exponent := max (leadingExponent numerator denominator - 52) (-1074)
    let scaled := scaleBy numerator denominator (-exponent)
    let mantissa := roundQuotient scaled.1 scaled.2
    let carried : Binary64 :=
      if mantissa = 1 <<< 53 then ⟨1 <<< 52, exponent + 1⟩ else ⟨mantissa, exponent⟩
    if carried.exponent ≤ 971 then some carried else none

/-- The exact value, as numerator and denominator. -/
def ratio (value : Binary64) : Nat × Nat :=
  scaleBy value.mantissa 1 value.exponent

/-- The rounded product. -/
def mul? (left right : Binary64) : Option Binary64 :=
  ofRatio? (left.ratio.1 * right.ratio.1) (left.ratio.2 * right.ratio.2)

/-- The rounded quotient. -/
def div? (left right : Binary64) : Option Binary64 :=
  ofRatio? (left.ratio.1 * right.ratio.2) (left.ratio.2 * right.ratio.1)

def powerOfTen? (power : Nat) : Option Binary64 :=
  ofRatio? (Nat.pow 10 power) 1

/-- A significand divided by a power of ten, in steps that stay within the
range of doubles. Three steps take any significand of 64 bits to zero. -/
def shrink (significand : Binary64) (power : Nat) : Nat → Option Binary64
  | 0 => some ⟨0, -1074⟩
  | steps + 1 => do
      if power ≤ 308 then significand.div? (← powerOfTen? power)
      else if significand.mantissa = 0 then some significand
      else shrink (← significand.div? (← powerOfTen? 308)) (power - 308) steps

/-- A significand of 64 bits times a power of ten, each step rounded, and none
beyond the largest finite double. -/
def ofScaled? (significand : Nat) (power : Int) : Option Binary64 := do
  let start ← ofRatio? significand 1
  match power with
  | .ofNat up =>
      if up ≤ 308 then start.mul? (← powerOfTen? up)
      else if significand = 0 then some start
      else none
  | .negSucc down => shrink start (down + 1) 5

/-! ## The shortest decimal -/

/-- The value and the bounds of the reals that round to it, all in one unit:
the value is the first number times the unit, half the way to its neighbours is
the second below and the third above. The unit is a quarter of the last place. -/
def neighbourhood (value : Binary64) : Nat × Nat × Nat :=
  let below :=
    if value.mantissa = 1 <<< 52 ∧ -1074 < value.exponent then 1 else 2
  (4 * value.mantissa, 4 * value.mantissa - below, 4 * value.mantissa + 2)

/-- Whether the ratio rounds to the value. The ends of the neighbourhood belong
to it if the mantissa is even. -/
def isNearest (value : Binary64) (numerator denominator : Nat) : Bool :=
  let scaled := scaleBy numerator denominator (2 - value.exponent)
  let bounds := value.neighbourhood
  if value.mantissa % 2 = 0 then
    decide (bounds.2.1 * scaled.2 ≤ scaled.1 ∧ scaled.1 ≤ bounds.2.2 * scaled.2)
  else
    decide (bounds.2.1 * scaled.2 < scaled.1 ∧ scaled.1 < bounds.2.2 * scaled.2)

/-- A ratio scaled by a power of ten, as numerator and denominator. -/
def scaleByTen (numerator denominator : Nat) (power : Int) : Nat × Nat :=
  match power with
  | .ofNat up => (numerator * Nat.pow 10 up, denominator)
  | .negSucc down => (numerator, denominator * Nat.pow 10 (down + 1))

/-- The digits at the given power of ten that read back as the value: the
nearer of the two neighbours on that grid if both do, the even one if they are
equally near. -/
def digitsAt? (value : Binary64) (power : Int) : Option Nat :=
  let scaled := scaleByTen value.ratio.1 value.ratio.2 (-power)
  let reads (digits : Nat) : Bool :=
    let candidate := scaleByTen digits 1 power
    value.isNearest candidate.1 candidate.2
  let lower := scaled.1 / scaled.2
  match reads lower, reads (lower + 1) with
  | true, true => some (roundQuotient scaled.1 scaled.2)
  | true, false => some lower
  | false, true => some (lower + 1)
  | false, false => none

/-- The least power of ten above the value. -/
def decimalMagnitude (value : Binary64) : Int :=
  let digits := Nat.pow 10
  if value.ratio.2 ≤ value.ratio.1 then
    ((List.range 310).find? fun power =>
      value.ratio.1 < value.ratio.2 * digits power).getD 310
  else
    -(((List.range 325).find? fun power =>
      value.ratio.2 ≤ value.ratio.1 * digits (power + 1)).getD 325 : Nat)

/-- Digits on a grid of so many places, where a one carried into a further place
stands alone. -/
def carried (places digits : Nat) (power : Int) : Nat × Int :=
  if digits = Nat.pow 10 places then (1, power + places) else (digits, power)

/-- The fewest digits that read back as the value, with the power of ten of the
last one: the first grid from one digit on with a hit. Seventeen suffice. -/
def shortest (value : Binary64) : Nat × Int :=
  if value.mantissa = 0 then (0, 0)
  else
    let magnitude := value.decimalMagnitude
    ((List.range 17).findSome? fun (places : Nat) =>
      let power := magnitude - 1 - places
      (value.digitsAt? power).map fun digits =>
        carried (places + 1) digits power).getD (0, 0)

end Binary64

end Registrar.Json
