import Chronicle.Ieee.Double

/-!
# Shortest decimal digits

A finite double owns the interval of reals that round to it.  On the grid of
decimals with one, two, … significant digits the two neighbours of the value
are tested against that interval; the first grid with a hit gives the digits,
and of two hits the nearer one is taken.
-/

namespace Chronicle
namespace Ieee

/-- A positive decimal `d.ddd × 10 ^ exponent` with its leading digit first. -/
structure Decimal where
  digits : List Nat
  exponent : Int
  deriving Repr, DecidableEq

/-- The decimal digits of a natural number, leading digit first. -/
def decimalDigits (n : Nat) : List Nat :=
  (Nat.toDigits 10 n).map fun c => c.toNat - '0'.toNat

namespace Decimal

/-- A list of digits without the zeros at its end. -/
def dropTrailingZeros (digits : List Nat) : List Nat :=
  (digits.reverse.dropWhile (· == 0)).reverse

/-- The decimal `significand × 10 ^ exponent` of a positive significand. -/
def ofSignificand (significand : Nat) (exponent : Int) : Decimal :=
  let digits := decimalDigits significand
  ⟨dropTrailingZeros digits, exponent + (digits.length - 1 : Nat)⟩

end Decimal

/-- The reals that round to one positive double, in units of half the least
positive double, together with that double's own value. -/
structure RoundingInterval where
  low : Nat
  value : Nat
  high : Nat
  closed : Bool

namespace RoundingInterval

/-- Halves of the least positive double in the number one. -/
def one : Nat := Nat.pow 2 (Format.double.unitExponent + 1)

/-- The interval of the positive double with the given magnitude bits.  Its
ends belong to it when the significand is even. -/
def ofBits (magnitude : Nat) : RoundingInterval :=
  let units := Format.double.unitsOfBits
  { low := units (magnitude - 1) + units magnitude
    value := 2 * units magnitude
    high := units magnitude + units (magnitude + 1)
    closed := magnitude % 2 == 0 }

/-- The power of ten of the leading digit of the interval's value. -/
def leadingExponent (i : RoundingInterval) : Int :=
  let scaled := i.value * Nat.pow 10 330 / one
  ((Nat.toDigits 10 scaled).length : Int) - 331

/-- Multipliers that bring grid points of step `10 ^ exponent` and halves of
the least double to one integral scale. -/
def scales (exponent : Int) : Nat × Nat :=
  match exponent with
  | .ofNat n => (Nat.pow 10 n * one, 1)
  | .negSucc n => (one, Nat.pow 10 (n + 1))

/-- Whether the grid point `point × 10 ^ exponent` lies in the interval. -/
def contains (i : RoundingInterval) (exponent : Int) (point : Nat) : Bool :=
  let (pointScale, unitScale) := scales exponent
  let low := i.low * unitScale
  let high := i.high * unitScale
  let point := point * pointScale
  if i.closed then low ≤ point && point ≤ high else low < point && point < high

/-- The grid point of step `10 ^ exponent` that lies in the interval and is
nearest to the value, of the two around it. -/
def nearest? (i : RoundingInterval) (exponent : Int) : Option Nat :=
  let (pointScale, unitScale) := scales exponent
  let below := i.value * unitScale / pointScale
  let rest := i.value * unitScale % pointScale
  let downFirst := 2 * rest < pointScale || (2 * rest == pointScale && below % 2 == 0)
  let order := if downFirst then [below, below + 1] else [below + 1, below]
  order.find? (i.contains exponent)

/-- The first hit on the grids of one, two, … `fuel` significant digits. -/
def search (i : RoundingInterval) (leading : Int) : (fuel digits : Nat) → Option Decimal
  | 0, _ => none
  | fuel + 1, digits =>
      let exponent := leading + 1 - digits
      match i.nearest? exponent with
      | some point => some (Decimal.ofSignificand point exponent)
      | none => i.search leading fuel (digits + 1)

end RoundingInterval

namespace Double

/-- The shortest decimal that reads back as the magnitude of a finite double
other than zero.  Seventeen digits always do. -/
def shortest (a : Double) : Decimal :=
  let interval := RoundingInterval.ofBits (a.bits.toNat % Format.double.signBit)
  (interval.search interval.leadingExponent 17 1).getD ⟨[0], 0⟩

end Double
end Ieee
end Chronicle
