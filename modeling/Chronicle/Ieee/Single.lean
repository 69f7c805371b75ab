import Chronicle.Ieee.Format

/-!
# Numbers of the 32-bit format

A single is its bits: two singles are equal exactly when all 32 bits agree, so
the two zeros differ and a not-a-number equals itself.  The numerical order is
`Single.le`.
-/

namespace Chronicle
namespace Ieee

/-- A number of the 32-bit format, given by its bits. -/
structure Single where
  bits : UInt32
  deriving Repr, DecidableEq, Inhabited

namespace Single

private def lift (operation : Nat → Nat → Nat) (a b : Single) : Single :=
  ⟨UInt32.ofNat (operation a.bits.toNat b.bits.toNat)⟩

/-- Sum, rounded to nearest. -/
def add : Single → Single → Single := lift Format.single.add

/-- Difference, rounded to nearest. -/
def sub : Single → Single → Single := lift Format.single.sub

/-- Product, rounded to nearest. -/
def mul : Single → Single → Single := lift Format.single.mul

/-- Quotient, rounded to nearest. -/
def div : Single → Single → Single := lift Format.single.div

/-- Square root, rounded to nearest. -/
def sqrt (a : Single) : Single :=
  ⟨UInt32.ofNat (Format.single.sqrt a.bits.toNat)⟩

instance : Add Single := ⟨add⟩
instance : Sub Single := ⟨sub⟩
instance : Mul Single := ⟨mul⟩
instance : Div Single := ⟨div⟩

/-- Numerical order: false as soon as one side is not a number. -/
def le (a b : Single) : Bool :=
  Format.single.le a.bits.toNat b.bits.toNat

/-- The single nearest to an integer. -/
def ofInt (n : Int) : Single :=
  ⟨UInt32.ofNat (Format.single.ofInt n)⟩

/-- A number strictly below the lower bound is raised to it, and one strictly
above the upper bound lowered; what compares with neither stays as it is. -/
def clamp (a low high : Single) : Single :=
  let raised := if a.le low && !low.le a then low else a
  if high.le raised && !raised.le high then high else raised

end Single
end Ieee
end Chronicle
