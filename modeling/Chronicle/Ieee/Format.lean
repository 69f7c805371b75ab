/-!
# Binary floating point formats

A finite datum of a binary interchange format is an integral multiple of the
format's least positive number.  Magnitudes are therefore natural numbers
counted in that unit, every operation is exact integer arithmetic, and one
function rounds a quotient of two naturals back into the format.
-/

namespace Chronicle
namespace Ieee

/-- The quotient `num / den` rounded to the nearest natural number, a tie
going to the even neighbour. -/
def roundEven (num den : Nat) : Nat :=
  let quotient := num / den
  let remainder := num % den
  if 2 * remainder < den then quotient
  else if den < 2 * remainder then quotient + 1
  else if quotient % 2 = 0 then quotient else quotient + 1

/-- The greatest natural number whose square is at most `n`, by halving the
interval between a known lower and a known upper bound. -/
def squareRootBetween (n : Nat) : Nat → Nat → Nat → Nat
  | 0, low, _ => low
  | fuel + 1, low, width =>
      let half := width / 2
      if (low + half) * (low + half) ≤ n then
        squareRootBetween n fuel (low + half) (width - half)
      else squareRootBetween n fuel low half

/-- The greatest natural number whose square is at most `n`. -/
def squareRoot (n : Nat) : Nat :=
  squareRootBetween n (n.log2 / 2 + 3) 0 (Nat.pow 2 (n.log2 / 2 + 1))

/-- A binary interchange format: the bits of the significand, the hidden one
included, and the bits of the exponent field. -/
structure Format where
  precision : Nat
  exponentWidth : Nat

namespace Format

/-- The 32-bit format. -/
def single : Format := ⟨24, 8⟩

/-- The 64-bit format. -/
def double : Format := ⟨53, 11⟩

/-- The least positive number is two to the power of minus this. -/
def unitExponent (f : Format) : Nat :=
  Nat.pow 2 (f.exponentWidth - 1) - 2 + (f.precision - 1)

/-- Magnitude bits of infinity: all ones in the exponent field. -/
def infinityBits (f : Format) : Nat :=
  (Nat.pow 2 f.exponentWidth - 1) * Nat.pow 2 (f.precision - 1)

/-- The bit of the sign. -/
def signBit (f : Format) : Nat :=
  Nat.pow 2 (f.precision - 1 + f.exponentWidth)

/-- Bits of the datum that an invalid operation yields: a quiet not-a-number
with the sign set. -/
def invalidBits (f : Format) : Nat :=
  f.signBit + f.infinityBits + Nat.pow 2 (f.precision - 2)

/-- Magnitude bits as a multiple of the least positive number, also for the
magnitude one past the greatest finite one. -/
def unitsOfBits (f : Format) (magnitude : Nat) : Nat :=
  let fraction := magnitude % Nat.pow 2 (f.precision - 1)
  let exponent := magnitude / Nat.pow 2 (f.precision - 1)
  if exponent = 0 then fraction
  else (Nat.pow 2 (f.precision - 1) + fraction) * Nat.pow 2 (exponent - 1)

/-- Magnitude bits of the number nearest to `num / den` units; a magnitude
past the greatest finite one is infinity.  A significand that rounding
carries into one more bit carries into the exponent field by itself. -/
def roundToBits (f : Format) (num den : Nat) : Nat :=
  let whole := num / den
  let shift := if whole < Nat.pow 2 f.precision then 0 else whole.log2 - (f.precision - 1)
  min (shift * Nat.pow 2 (f.precision - 1) + roundEven num (den * Nat.pow 2 shift)) f.infinityBits

end Format

/-- What the bits of a format stand for. -/
inductive Datum where
  | nan
  | infinite (negative : Bool)
  | finite (negative : Bool) (units : Nat)
  deriving Repr, DecidableEq

namespace Datum

/-- The datum that `bits` encode in format `f`. -/
def ofBits (f : Format) (bits : Nat) : Datum :=
  let negative := f.signBit ≤ bits % (2 * f.signBit)
  let magnitude := bits % f.signBit
  if f.infinityBits < magnitude then .nan
  else if magnitude = f.infinityBits then .infinite negative
  else .finite negative (f.unitsOfBits magnitude)

/-- The sign of a datum; a not-a-number counts as positive here. -/
def negative : Datum → Bool
  | .nan => false
  | .infinite negative => negative
  | .finite negative _ => negative

/-- A finite datum as a signed number of units. -/
def signedUnits (negative : Bool) (units : Nat) : Int :=
  if negative then -(units : Int) else units

end Datum

namespace Format

/-- Sign and magnitude bits put together. -/
def join (f : Format) (negative : Bool) (magnitude : Nat) : Nat :=
  if negative then f.signBit + magnitude else magnitude

/-- The quotient `num / den`, counted in units and given a sign, in the format. -/
def round (f : Format) (negative : Bool) (num den : Nat) : Nat :=
  f.join negative (f.roundToBits num den)

/-- Sum.  Equal magnitudes of opposite sign make positive zero. -/
def add (f : Format) (a b : Nat) : Nat :=
  match Datum.ofBits f a, Datum.ofBits f b with
  | .nan, _ => a
  | _, .nan => b
  | .infinite s, .infinite t => if s = t then a else f.invalidBits
  | .infinite _, .finite _ _ => a
  | .finite _ _, .infinite _ => b
  | .finite s m, .finite t n =>
      let total := Datum.signedUnits s m + Datum.signedUnits t n
      if total = 0 then f.join (s && t) 0
      else f.round (total < 0) total.natAbs 1

/-- The number with the opposite sign. -/
def negate (f : Format) (a : Nat) : Nat :=
  if f.signBit ≤ a then a - f.signBit else a + f.signBit

/-- Difference. -/
def sub (f : Format) (a b : Nat) : Nat :=
  match Datum.ofBits f b with
  | .nan => if Datum.ofBits f a = .nan then a else b
  | _ => f.add a (f.negate b)

/-- Product. -/
def mul (f : Format) (a b : Nat) : Nat :=
  match Datum.ofBits f a, Datum.ofBits f b with
  | .nan, _ => a
  | _, .nan => b
  | .infinite s, .infinite t => f.join (s ^^ t) f.infinityBits
  | .infinite s, .finite t n => if n = 0 then f.invalidBits else f.join (s ^^ t) f.infinityBits
  | .finite s m, .infinite t => if m = 0 then f.invalidBits else f.join (s ^^ t) f.infinityBits
  | .finite s m, .finite t n => f.round (s ^^ t) (m * n) (Nat.pow 2 f.unitExponent)

/-- Quotient. -/
def div (f : Format) (a b : Nat) : Nat :=
  match Datum.ofBits f a, Datum.ofBits f b with
  | .nan, _ => a
  | _, .nan => b
  | .infinite _, .infinite _ => f.invalidBits
  | .infinite s, .finite t _ => f.join (s ^^ t) f.infinityBits
  | .finite s _, .infinite t => f.join (s ^^ t) 0
  | .finite s m, .finite t n =>
      if n = 0 then
        if m = 0 then f.invalidBits else f.join (s ^^ t) f.infinityBits
      else f.round (s ^^ t) (m * Nat.pow 2 f.unitExponent) n

/-- Square root.  The integral root of the scaled magnitude has more bits than
the format, so half a unit of it stands for any inexact rest. -/
def sqrt (f : Format) (a : Nat) : Nat :=
  match Datum.ofBits f a with
  | .nan => a
  | .infinite s => if s then f.invalidBits else a
  | .finite s m =>
      if m = 0 then a
      else if s then f.invalidBits
      else
        let scaled := m * Nat.pow 2 f.unitExponent
        let root := squareRoot scaled
        f.round false (2 * root + if root * root = scaled then 0 else 1) 2

/-- Numerical order: false as soon as one side is not a number. -/
def le (f : Format) (a b : Nat) : Bool :=
  match Datum.ofBits f a, Datum.ofBits f b with
  | .nan, _ => false
  | _, .nan => false
  | .infinite s, .infinite t => s || !t
  | .infinite s, .finite _ _ => s
  | .finite _ _, .infinite t => !t
  | .finite s m, .finite t n => Datum.signedUnits s m ≤ Datum.signedUnits t n

/-- The number nearest to an integer. -/
def ofInt (f : Format) (n : Int) : Nat :=
  f.round (n < 0) (n.natAbs * Nat.pow 2 f.unitExponent) 1

/-- The number of format `g` nearest to a number of format `f`. -/
def convert (f g : Format) (a : Nat) : Nat :=
  match Datum.ofBits f a with
  | .nan => g.invalidBits
  | .infinite s => g.join s g.infinityBits
  | .finite s m => g.round s (m * Nat.pow 2 g.unitExponent) (Nat.pow 2 f.unitExponent)

end Format
end Ieee
end Chronicle
