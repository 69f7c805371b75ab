import Chronicle.Ieee.Shortest
import Chronicle.Log

/-!
# Numbers of the data format

A number is an integer that fits 64 bits, with or without a sign, or a finite
double.  Which of the two a numeral denotes depends on its spelling: `1` is an
integer and `1.0` is a double.
-/

namespace Chronicle
namespace Json

open Ieee (Double)

/-- Whether an integer fits 64 bits, with or without a sign. -/
abbrev FitsWord (value : Int) : Prop :=
  -9223372036854775808 ≤ value ∧ value < 18446744073709551616

/-- An integer of 64 bits or a finite double. -/
inductive Number where
  | integer (value : Int) (fits : FitsWord value)
  | decimal (value : Double) (finite : value.isFinite = true)
  deriving DecidableEq

/-- The spelling of a number: digits before the point, after it, and the
exponent with its sign. -/
structure Numeral where
  negative : Bool
  whole : Log Nat
  fraction : Option (Log Nat)
  exponent : Option (Bool × Log Nat)
  deriving DecidableEq

namespace Number

/-- An unsigned integer as a number. -/
def ofUInt64 (n : UInt64) : Number :=
  .integer n.toNat ⟨by omega, by have := n.toNat_lt; omega⟩

/-- A signed integer of 64 bits as a number. -/
def ofInt64 (n : Int64) : Number :=
  .integer n.toInt
    ⟨n.le_toInt, Int.lt_trans n.toInt_lt (by decide)⟩

/-- A natural number as a number, when it fits. -/
def ofNat? (n : Nat) : Option Number :=
  if fits : FitsWord n then some (.integer n fits) else none

/-- A double as a number, when it is finite. -/
def ofDouble? (value : Double) : Option Number :=
  if finite : value.isFinite = true then some (.decimal value finite) else none

/-- Numerical agreement within a kind: the two zeros of the doubles count as
one, and an integer never agrees with a double. -/
def agrees : Number → Number → Bool
  | .integer a _, .integer b _ => a == b
  | .decimal a _, .decimal b _ => a.agrees b
  | _, _ => false

/-- The number as a single: an integer is rounded directly, a double a second
time. -/
def toSingle : Number → Ieee.Single
  | .integer value _ => .ofInt value
  | .decimal value _ => value.toSingle

end Number

namespace Numeral

/-- Significands are collected below this bound. -/
def significandBound : Nat := 18446744073709551616

/-- Greatest exponent that is collected digit by digit. -/
def maxExponent : Nat := 2147483647

/-- Appends digits to a significand as long as it stays below the bound, and
counts the digits taken. -/
def collect (significand : Nat) : List Nat → Nat × Nat
  | [] => (significand, 0)
  | digit :: rest =>
      if significand * 10 + digit < significandBound then
        let (collected, taken) := collect (significand * 10 + digit) rest
        (collected, taken + 1)
      else (significand, 0)

/-- The value of a list of digits. -/
def value (digits : List Nat) : Nat := digits.foldl (fun n digit => n * 10 + digit) 0

/-- A double with its sign. -/
def signed (negative : Bool) (value : Double) : Double :=
  if negative then -value else value

/-- The number that a numeral denotes, none if it lies beyond the doubles.
Digits that no longer fit the significand count as zeros before the point and
are dropped after it. -/
def number? (numeral : Numeral) : Option Number :=
  let (whole, taken) := collect 0 numeral.whole.toList
  let dropped := numeral.whole.size - taken
  let double (value : Option Double) : Option Number := do
    Number.ofDouble? (signed numeral.negative (← value))
  match numeral.fraction, numeral.exponent with
  | none, none =>
      let exact : Int := if numeral.negative then -(whole : Int) else whole
      if numeral.negative && whole == 0 || dropped != 0 then
        double (Double.ofDecimal? whole dropped)
      else if fits : FitsWord exact then some (.integer exact fits)
      else double (Double.ofDecimal? whole 0)
  | fraction, exponent =>
      let (significand, places) := collect whole (fraction.getD ∅).toList
      let scale : Int := (dropped : Int) - places
      match exponent with
      | none => double (Double.ofDecimal? significand scale)
      | some (negativeExponent, digits) =>
          let shift := value digits.toList
          if maxExponent < shift then
            if significand != 0 && !negativeExponent then none
            else double (some (Double.ofInt 0))
          else
            let shift : Int := if negativeExponent then -(shift : Int) else shift
            double (Double.ofDecimal? significand (scale + shift))

end Numeral

/-- Where the point of a decimal stands: written positionally when the power
of ten of its leading digit lies between these bounds, the lower included. -/
structure DecimalStyle where
  positionalFrom : Int
  positionalBelow : Int

/-- Decimals from 0.00001 and below 10^16 are positional and carry a digit
after the point; others have an exponent with a sign. -/
def decimalStyle : DecimalStyle := ⟨-5, 16⟩

namespace Number

/-- The character of a digit. -/
def digitChar (digit : Nat) : Char := Char.ofNat ('0'.toNat + digit)

/-- The digits of a natural number. -/
def natChars (n : Nat) : List Char := Nat.toDigits 10 n

/-- An integer with a minus sign if negative. -/
def intChars (n : Int) : List Char :=
  if n < 0 then '-' :: natChars n.natAbs else natChars n.natAbs

/-- A positive decimal in the given style. -/
def decimalChars (style : DecimalStyle) (decimal : Ieee.Decimal) : List Char :=
  let digits := decimal.digits.map digitChar
  if style.positionalFrom ≤ decimal.exponent ∧ decimal.exponent < style.positionalBelow then
    match decimal.exponent with
    | .ofNat places =>
        let whole := digits.take (places + 1)
        let zeros := List.replicate (places + 1 - whole.length) '0'
        let rest := digits.drop (places + 1)
        whole ++ zeros ++ '.' :: (if rest.isEmpty then ['0'] else rest)
    | .negSucc zeros => '0' :: '.' :: (List.replicate zeros '0' ++ digits)
  else
    let rest := digits.drop 1
    let point := if rest.isEmpty then [] else '.' :: rest
    let sign := if 0 < decimal.exponent then ['+'] else []
    digits.take 1 ++ point ++ 'e' :: (sign ++ intChars decimal.exponent)

/-- A finite double: the shortest digits that read back, zero as `0.0`. -/
def doubleChars (value : Double) : List Char :=
  let magnitude :=
    if value.isZero then ['0', '.', '0'] else decimalChars decimalStyle value.shortest
  if value.isNegative then '-' :: magnitude else magnitude

/-- The text of a number. -/
def chars : Number → List Char
  | .integer value _ => intChars value
  | .decimal value _ => doubleChars value

end Number
end Json
end Chronicle
