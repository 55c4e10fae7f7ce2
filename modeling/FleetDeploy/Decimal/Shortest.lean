/-!
# The shortest decimal of a binary64 number

A number outside the whole numbers is held as a 64-bit binary floating point
number once it is read, and messages show it again in decimal.  Both steps are
exact arithmetic on natural numbers here: `Binary64.ofDecimal?` rounds a decimal
to the nearest representable number, ties to the even significand, and
`Binary64.shortest` finds the fewest digits that round back to it, taking the
nearest such decimal.
-/

namespace FleetDeploy.Decimal

/-- The magnitude `significand * 2 ^ exponent` of a finite binary64 number:
the significand is below `2 ^ 53` and the exponent at least `-1074`. -/
structure Binary64 where
  significand : Nat
  exponent : Int
  deriving DecidableEq, Repr

/-- The ratio of two natural numbers, used for exact comparison of powers. -/
structure Ratio where
  numerator : Nat
  denominator : Nat

namespace Ratio

/-- Multiply by a power of a base, of either sign. -/
def scale (r : Ratio) (base : Nat) (exponent : Int) : Ratio :=
  if exponent < 0 then ⟨r.numerator, r.denominator * Nat.pow base exponent.natAbs⟩
  else ⟨r.numerator * Nat.pow base exponent.natAbs, r.denominator⟩

/-- The greatest natural number that is not above the ratio. -/
def floor (r : Ratio) : Nat :=
  r.numerator / r.denominator

/-- The nearest natural number, with a tie going to the even one. -/
def nearest (r : Ratio) : Nat :=
  let below := r.floor
  let rest := 2 * (r.numerator % r.denominator)
  if rest < r.denominator then below
  else if r.denominator < rest then below + 1
  else if below % 2 = 0 then below else below + 1

/-- Whether one ratio lies below another. -/
def lt (left right : Ratio) : Bool :=
  left.numerator * right.denominator < right.numerator * left.denominator

/-- Whether one ratio lies below another or equals it. -/
def le (left right : Ratio) : Bool :=
  left.numerator * right.denominator ≤ right.numerator * left.denominator

end Ratio

namespace Binary64

/-- What significands are below: 53 binary digits. -/
def significandSize : Nat :=
  0x20000000000000

/-- The nearest binary64 number to `digits * 10 ^ exponent`, or nothing when
that would be infinite.  Exponents that settle the answer alone are told first,
so that no huge power is formed: `digits` is below `10 ^ (log2 digits + 1)`. -/
def ofDecimal? (digits : Nat) (exponent : Int) : Option Binary64 :=
  if digits = 0 ∨ exponent + (Nat.log2 digits : Int) < -400 then some ⟨0, -1074⟩
  else if 400 < exponent then none
  else
    let exact := (Ratio.mk digits 1).scale 10 exponent
    let size : Int := (Nat.log2 exact.numerator : Int) - (Nat.log2 exact.denominator : Int)
    let start := max (-1074) (size - 53)
    let power := if (exact.scale 2 (-start)).floor < significandSize then start else start + 1
    let significand := (exact.scale 2 (-power)).nearest
    let rounded : Binary64 :=
      if significand = significandSize then ⟨significandSize / 2, power + 1⟩ else ⟨significand, power⟩
    if rounded.exponent ≤ 971 then some rounded else none

/-- The exact value. -/
def toRatio (x : Binary64) : Ratio :=
  (Ratio.mk x.significand 1).scale 2 x.exponent

/-- Half way to the next smaller representable number. -/
def lowerBound (x : Binary64) : Ratio :=
  if x.significand = significandSize / 2 ∧ -1074 < x.exponent then
    (Ratio.mk (4 * x.significand - 1) 1).scale 2 (x.exponent - 2)
  else (Ratio.mk (2 * x.significand - 1) 1).scale 2 (x.exponent - 1)

/-- Half way to the next larger representable number. -/
def upperBound (x : Binary64) : Ratio :=
  (Ratio.mk (2 * x.significand + 1) 1).scale 2 (x.exponent - 1)

/-- Whether a decimal rounds to `x`: it lies between the bounds, which belong
to `x` when its significand is even. -/
def covers (x : Binary64) (r : Ratio) : Bool :=
  if x.significand % 2 = 0 then x.lowerBound.le r && r.le x.upperBound
  else x.lowerBound.lt r && r.lt x.upperBound

/-- The neighbour of `x` on the grid of multiples of `10 ^ place` that rounds to
it, the nearer one if both do. -/
def onGrid? (x : Binary64) (place : Int) : Option (Nat × Int) :=
  let scaled := x.toRatio.scale 10 (-place)
  let below := scaled.floor
  let candidate (n : Nat) := x.covers ((Ratio.mk n 1).scale 10 place)
  if candidate below && candidate (below + 1) then some (scaled.nearest, place)
  else if candidate below then some (below, place)
  else if candidate (below + 1) then some (below + 1, place)
  else none

/-- The greatest power of ten that is not above a positive `x`, starting from
an upper bound for it. -/
def magnitude (x : Binary64) : Nat → Int → Int
  | 0, power => power
  | steps + 1, power =>
    if ((Ratio.mk 1 1).scale 10 power).le x.toRatio then power
    else x.magnitude steps (power - 1)

/-- The fewest digits that round to `x`, as `digits * 10 ^ place`.  Seventeen
digits always suffice. -/
def shortest (x : Binary64) : Nat × Int :=
  if x.significand = 0 then (0, 0)
  else
    let top := x.magnitude 640 309
    let grids := (List.range 17).map fun (n : Nat) => x.onGrid? (top - (n : Int))
    (grids.findSome? id).getD (0, 0)

end Binary64

/-- The decimal digits of a natural number. -/
def digits (n : Nat) : List Char :=
  Nat.toDigits 10 n

/-- Drop the zeros at the end of a decimal, raising its place. -/
def trimZeros : Nat → Nat → Int → Nat × Int
  | 0, n, place => (n, place)
  | steps + 1, n, place =>
    if n ≠ 0 ∧ n % 10 = 0 then trimZeros steps (n / 10) (place + 1) else (n, place)

/-- Which exponents are written out, and what an exponent looks like. -/
structure Style where
  lowestPositional : Int
  highestPositional : Int
  exponentMark : List Char
  positiveSign : List Char

/-- Messages write the exponents from -5 to 15 out, always with a fraction, and
mark every other exponent with `e` and its sign. -/
def messageStyle : Style :=
  ⟨-5, 15, ['e'], ['+']⟩

/-- Write a decimal in a style.  `n` holds no zero at its end. -/
def Style.render (style : Style) (n : Nat) (place : Int) : List Char :=
  if n = 0 then ['0', '.', '0']
  else
    let ds := digits n
    let exponent := place + (ds.length : Int) - 1
    if style.lowestPositional ≤ exponent ∧ exponent ≤ style.highestPositional then
      if 0 ≤ place then ds ++ List.replicate place.toNat '0' ++ ['.', '0']
      else if 0 ≤ exponent then
        ds.take (exponent.toNat + 1) ++ ['.'] ++ ds.drop (exponent.toNat + 1)
      else ['0', '.'] ++ List.replicate (-exponent - 1).toNat '0' ++ ds
    else
      let mantissa := match ds with
        | [d] => [d]
        | d :: rest => d :: '.' :: rest
        | [] => []
      let sign := if exponent < 0 then ['-'] else style.positiveSign
      mantissa ++ style.exponentMark ++ sign ++ digits exponent.natAbs

/-- The text of a binary64 magnitude. -/
def Binary64.render (style : Style) (x : Binary64) : List Char :=
  let (n, place) := x.shortest
  let (n, place) := trimZeros 400 n place
  style.render n place

end FleetDeploy.Decimal
