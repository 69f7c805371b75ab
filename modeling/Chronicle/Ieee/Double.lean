import Chronicle.Ieee.Single

/-!
# Numbers of the 64-bit format

The 64-bit format carries the decimal fractions of the data format.  Reading
a decimal takes its significand as an integer, rounds that once, and then
multiplies or divides by a rounded power of ten.
-/

namespace Chronicle
namespace Ieee

/-- A number of the 64-bit format, given by its bits. -/
structure Double where
  bits : UInt64
  deriving Repr, DecidableEq, Inhabited

namespace Double

/-- The datum that a double stands for. -/
def datum (a : Double) : Datum := Datum.ofBits .double a.bits.toNat

/-- Neither infinite nor a not-a-number. -/
def isFinite (a : Double) : Bool :=
  match a.datum with
  | .finite _ _ => true
  | _ => false

/-- Either of the two zeros. -/
def isZero (a : Double) : Bool :=
  match a.datum with
  | .finite _ units => units == 0
  | _ => false

/-- The sign bit. -/
def isNegative (a : Double) : Bool := a.datum.negative

/-- The double nearest to an integer. -/
def ofInt (n : Int) : Double := ⟨UInt64.ofNat (Format.double.ofInt n)⟩

/-- The number with the opposite sign. -/
def neg (a : Double) : Double := ⟨UInt64.ofNat (Format.double.negate a.bits.toNat)⟩

/-- Product, rounded to nearest. -/
def mul (a b : Double) : Double :=
  ⟨UInt64.ofNat (Format.double.mul a.bits.toNat b.bits.toNat)⟩

/-- Quotient, rounded to nearest. -/
def div (a b : Double) : Double :=
  ⟨UInt64.ofNat (Format.double.div a.bits.toNat b.bits.toNat)⟩

instance : Neg Double := ⟨neg⟩
instance : Mul Double := ⟨mul⟩
instance : Div Double := ⟨div⟩

/-- The single nearest to a double. -/
def toSingle (a : Double) : Single :=
  ⟨UInt32.ofNat (Format.double.convert .single a.bits.toNat)⟩

/-- A single as the double of the same value. -/
def ofSingle (a : Single) : Double :=
  ⟨UInt64.ofNat (Format.single.convert .double a.bits.toNat)⟩

/-- Numerical equality of finite doubles: the two zeros count as one. -/
def agrees (a b : Double) : Bool :=
  a == b || (a.isZero && b.isZero)

/-- The double nearest to a power of ten. -/
def powerOfTen (exponent : Nat) : Double := ofInt (Nat.pow 10 exponent)

/-- The greatest power of ten that is a finite double. -/
def maxPowerOfTen : Nat := 308

/-- A double divided by a power of ten, in steps of the greatest finite one.
A value that has reached zero stays there. -/
def divPowerOfTen (a : Double) (exponent : Nat) : Double :=
  if exponent ≤ maxPowerOfTen then a / powerOfTen exponent
  else if a.isZero then a
  else divPowerOfTen (a / powerOfTen maxPowerOfTen) (exponent - maxPowerOfTen)
termination_by exponent
decreasing_by simp only [maxPowerOfTen] at *; omega

/-- The decimal `significand * 10 ^ exponent`; none when it lies beyond the
finite doubles. -/
def ofDecimal? (significand : Nat) (exponent : Int) : Option Double :=
  let value := ofInt significand
  match exponent with
  | .ofNat n =>
      if n ≤ maxPowerOfTen then
        let scaled := value * powerOfTen n
        if scaled.isFinite then some scaled else none
      else if value.isZero then some value else none
  | .negSucc n => some (divPowerOfTen value (n + 1))

end Double
end Ieee
end Chronicle
