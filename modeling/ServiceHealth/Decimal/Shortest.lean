/-!
# The shortest decimal of a double-precision number

A double-precision number stands for every real that rounds to it, an interval around its value.
Among the decimals in that interval the shortest are those on the coarsest decimal grid that has a
point in it; the nearest of them is taken, and of two that are equally near the greater.

All arithmetic is exact. An interval is kept as three numerators over one denominator, so that
going from one grid to the next finer one multiplies the numerators by ten.
-/

namespace ServiceHealth.Decimal

/-! ## 1. Double-precision numbers -/

/-- A double-precision number, by its 64 bits: one for the sign, eleven for the exponent, fifty-two
for the fraction. -/
structure Binary64 where
  bits : UInt64
  deriving DecidableEq, Repr, Inhabited

namespace Binary64

/-- The number zero. -/
def zero : Binary64 := ⟨0⟩

/-- Whether the sign bit is set. -/
def isNegative (x : Binary64) : Bool := Nat.pow 2 63 ≤ x.bits.toNat

/-- The eleven exponent bits. -/
def exponent (x : Binary64) : Nat := x.bits.toNat / Nat.pow 2 52 % Nat.pow 2 11

/-- The fifty-two fraction bits. -/
def fraction (x : Binary64) : Nat := x.bits.toNat % Nat.pow 2 52

/-- The whole number nearest to a quotient; of two that are equally near the even one. -/
def nearest (n d : Nat) : Nat :=
  let q := n / d
  if d < 2 * (n % d) ∨ (d = 2 * (n % d) ∧ q % 2 = 1) then q + 1 else q

/-- The number nearest to a whole number: its first fifty-three binary digits, rounded, after the
exponent. The first digit, and a carry out of the digits, add one to the exponent; what is too
large for an exponent is infinite. -/
def ofNat (n : Nat) : Binary64 :=
  if n = 0 then zero
  else
    let digits := nearest (n * Nat.pow 2 52) (Nat.pow 2 n.log2)
    ⟨.ofNat (min ((n.log2 + 1022) * Nat.pow 2 52 + digits) (2047 * Nat.pow 2 52))⟩

end Binary64

/-! ## 2. Intervals and grids -/

/-- An interval around a value: numerators over the denominator `unit`. The ends belong to it if it
is `closed`. -/
structure Interval where
  low : Nat
  value : Nat
  high : Nat
  unit : Nat
  closed : Bool

namespace Interval

/-- Whether the whole number `n` lies in the interval. -/
def holds (i : Interval) (n : Nat) : Bool :=
  if i.closed then i.low ≤ n * i.unit && n * i.unit ≤ i.high
  else i.low < n * i.unit && n * i.unit < i.high

/-- The greatest whole number that is not above the value. -/
def below (i : Interval) : Nat := i.value / i.unit

/-- The whole number in the interval that is nearest to the value, the greater of two. -/
def point? (i : Interval) : Option Nat :=
  if i.holds (i.below + 1) && (!i.holds i.below || i.unit ≤ 2 * (i.value % i.unit)) then
    some (i.below + 1)
  else if i.holds i.below then some i.below
  else none

/-- The interval measured in a unit a tenth as large. -/
def finer (i : Interval) : Interval :=
  { i with low := 10 * i.low, value := 10 * i.value, high := 10 * i.high }

/-- The point on the first grid that has one, with the number of refinements it took. -/
def search : Nat → Nat → Interval → Option (Nat × Nat)
  | 0, _, _ => none
  | fuel + 1, depth, i =>
    match i.point? with
    | some n => some (n, depth)
    | none => search fuel (depth + 1) i.finer

end Interval

/-! ## 3. The interval of a number -/

/-- The decimal `digits · 10 ^ power`. -/
structure Scaled where
  digits : Nat
  power : Int
  deriving DecidableEq, Repr

/-- The reals that round to `mantissa · 2 ^ power`, in quarters of the last place. The gap below
a power of two is half as wide, unless it is the smallest normal number. -/
def roundingInterval (mantissa : Nat) (power : Int) (narrow : Bool) : Interval :=
  let up := Nat.pow 2 (power - 2).toNat
  { low := (4 * mantissa - if narrow then 1 else 2) * up
    value := 4 * mantissa * up
    high := (4 * mantissa + 2) * up
    unit := Nat.pow 2 (2 - power).toNat
    closed := mantissa % 2 == 0 }

/-- The shortest decimal that rounds to `mantissa · 2 ^ power`. The search starts on a grid too
coarse to have a point and ends at the latest where the value itself is a point. -/
def shortest (mantissa : Nat) (power : Int) (narrow : Bool) : Scaled :=
  let i := roundingInterval mantissa power narrow
  let start := (Nat.toDigits 10 (i.high / i.unit)).length
  match Interval.search (start + 1100) 0 { i with unit := i.unit * Nat.pow 10 start } with
  | some (digits, depth) => ⟨digits, (start : Int) - (depth : Int)⟩
  | none => ⟨0, 0⟩

/-- What a double-precision number is; one that is finite and not zero by its shortest decimal. -/
inductive Reading where
  | nan
  | infinite (negative : Bool)
  | zero (negative : Bool)
  | finite (negative : Bool) (value : Scaled)
  deriving DecidableEq, Repr

/-- Classifies a number and finds its shortest decimal. -/
def Binary64.reading (x : Binary64) : Reading :=
  if x.exponent = 2047 then
    if x.fraction = 0 then .infinite x.isNegative else .nan
  else if x.exponent = 0 then
    if x.fraction = 0 then .zero x.isNegative
    else .finite x.isNegative (shortest x.fraction (-1074) false)
  else
    .finite x.isNegative
      (shortest (x.fraction + Nat.pow 2 52) ((x.exponent : Int) - 1075)
        (x.fraction == 0 && 1 < x.exponent))

end ServiceHealth.Decimal
