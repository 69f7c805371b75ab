import Chronicle.Ieee.Double
import Mathlib

/-!
# Widening finite numbers

A quotient that is well below the greatest number of a format is rounded to a
finite number.  So a small integer is a finite single, and every finite single
is a finite double.
-/

namespace Chronicle
namespace Ieee

/-- Rounding a quotient goes up to the next integer at most. -/
theorem roundEven_le (num den : Nat) : roundEven num den ≤ num / den + 1 := by
  unfold roundEven
  dsimp only
  split
  · omega
  · split
    · omega
    · split <;> omega

namespace Format

/-- A quotient of at most `spare` bits more than the significand has is rounded
to a finite number, when the exponent field has room for them. -/
theorem roundToBits_lt
    {f : Format}
    {num den : Nat}
    (spare : Nat)
    (normal : 0 < f.precision)
    (room : spare + 3 < 2 ^ f.exponentWidth)
    (small : num / den < 2 ^ (f.precision + spare)) :
    f.roundToBits num den < f.infinityBits := by
  obtain ⟨precision, width⟩ := f
  obtain ⟨places, rfl⟩ : ∃ places, precision = places + 1 := Nat.exists_eq_succ_of_ne_zero
    (Nat.ne_of_gt normal)
  simp only [roundToBits, infinityBits, Nat.add_sub_cancel, Nat.pow_eq] at small room ⊢
  apply Nat.lt_of_le_of_lt (Nat.min_le_left _ _)
  have doubled : 2 ^ (places + 1) = 2 * 2 ^ places := by rw [Nat.pow_succ, Nat.mul_comm]
  have below {shift : Nat} (few : shift ≤ spare)
      (fits : num / (den * 2 ^ shift) < 2 ^ (places + 1)) :
      shift * 2 ^ places + roundEven num (den * 2 ^ shift) < (2 ^ width - 1) * 2 ^ places := by
    have rounded := roundEven_le num (den * 2 ^ shift)
    calc shift * 2 ^ places + roundEven num (den * 2 ^ shift)
        ≤ spare * 2 ^ places + 2 * 2 ^ places := by
          have := Nat.mul_le_mul_right (2 ^ places) few
          omega
      _ = (spare + 2) * 2 ^ places := (Nat.add_mul _ _ _).symm
      _ < (2 ^ width - 1) * 2 ^ places :=
          Nat.mul_lt_mul_of_pos_right (by omega) (Nat.two_pow_pos places)
  split
  · rename_i normalized
    exact below (Nat.zero_le _) (by simpa using normalized)
  · rename_i wide
    have nonzero : num / den ≠ 0 := by
      have := Nat.two_pow_pos (places + 1)
      omega
    have lower : 2 ^ (num / den).log2 ≤ num / den := Nat.log2_self_le nonzero
    have upper : num / den < 2 ^ ((num / den).log2 + 1) := Nat.lt_log2_self
    have few : (num / den).log2 < places + 1 + spare :=
      (Nat.pow_lt_pow_iff_right (by decide)).1 (Nat.lt_of_le_of_lt lower small)
    have many : places + 1 ≤ (num / den).log2 := by
      refine Nat.lt_succ_iff.1
        ((Nat.pow_lt_pow_iff_right (by decide)).1 (Nat.lt_of_le_of_lt ?_ upper))
      exact Nat.not_lt.1 wide
    apply below (by omega)
    rw [← Nat.div_div_eq_div_mul]
    apply Nat.div_lt_of_lt_mul
    rw [← Nat.pow_add]
    have exponent : (num / den).log2 - places + (places + 1) = (num / den).log2 + 1 := by omega
    rw [exponent]
    exact upper

end Format

namespace Datum

/-- Magnitude bits below those of infinity stand for a finite number. -/
theorem ofBits_eq_finite
    {f : Format}
    {bits : Nat}
    (finite : bits < f.infinityBits)
    (positive : bits < f.signBit) :
    ofBits f bits = .finite false (f.unitsOfBits bits) := by
  have magnitude : bits % f.signBit = bits := Nat.mod_eq_of_lt positive
  have whole : bits % (2 * f.signBit) = bits := Nat.mod_eq_of_lt (by omega)
  unfold ofBits
  simp only [magnitude, whole]
  rw [if_neg (by omega), if_neg (by omega), decide_eq_false (by omega)]

end Datum

/-- A finite number of a format is below the power of two after its largest
exponent. -/
theorem Format.unitsOfBits_lt
    {f : Format}
    {bits : Nat}
    (normal : 0 < f.precision)
    (finite : bits < f.infinityBits) :
    f.unitsOfBits bits < 2 ^ (f.precision + 2 ^ f.exponentWidth) := by
  obtain ⟨precision, width⟩ := f
  obtain ⟨places, rfl⟩ : ∃ places, precision = places + 1 := Nat.exists_eq_succ_of_ne_zero
    (Nat.ne_of_gt normal)
  simp only [unitsOfBits, infinityBits, Nat.add_sub_cancel, Nat.pow_eq] at finite ⊢
  have fraction : bits % 2 ^ places < 2 ^ places := Nat.mod_lt _ (Nat.two_pow_pos places)
  have bounded : bits / 2 ^ places < 2 ^ width :=
    Nat.lt_of_lt_of_le (Nat.div_lt_of_lt_mul (by rwa [Nat.mul_comm] at finite)) (Nat.sub_le _ _)
  have significand : 2 ^ places + bits % 2 ^ places ≤ 2 ^ (places + 1) := by
    rw [Nat.pow_succ]
    omega
  generalize bits / 2 ^ places = exponent at bounded ⊢
  split
  · refine Nat.lt_of_lt_of_le fraction (Nat.pow_le_pow_right (by decide) ?_)
    omega
  · calc (2 ^ places + bits % 2 ^ places) * 2 ^ (exponent - 1)
        ≤ 2 ^ (places + 1) * 2 ^ (exponent - 1) := Nat.mul_le_mul_right _ significand
      _ = 2 ^ (places + 1 + (exponent - 1)) := (Nat.pow_add _ _ _).symm
      _ < 2 ^ (places + 1 + 2 ^ width) := Nat.pow_lt_pow_right (by decide) (by omega)

/-- A small integer is a finite single. -/
theorem Single.bits_ofInt_lt
    {n : Nat}
    (small : n < 2 ^ 10) :
    (Single.ofInt n).bits.toNat < Format.single.infinityBits := by
  have finite : Format.single.roundToBits (n * 2 ^ Format.single.unitExponent) 1 <
      Format.single.infinityBits := by
    apply Format.roundToBits_lt 135 (by decide) (by decide)
    rw [Nat.div_one]
    calc n * 2 ^ Format.single.unitExponent
        < 2 ^ 10 * 2 ^ Format.single.unitExponent :=
          Nat.mul_lt_mul_of_pos_right small (Nat.two_pow_pos _)
      _ ≤ 2 ^ (Format.single.precision + 135) := by
          rw [← Nat.pow_add]
          exact Nat.pow_le_pow_right (by decide) (by decide)
  have positive : decide ((n : Int) < 0) = false := by simp
  unfold ofInt Format.ofInt Format.round Format.join
  rw [positive, if_neg Bool.false_ne_true, Int.natAbs_natCast, Nat.pow_eq, UInt32.toNat_ofNat']
  exact Nat.lt_of_le_of_lt (Nat.mod_le _ _) finite

/-- A finite single without a sign is a finite double. -/
theorem Double.isFinite_ofSingle
    {a : Single}
    (finite : a.bits.toNat < Format.single.infinityBits) :
    (ofSingle a).isFinite = true := by
  have units := Format.unitsOfBits_lt (by decide) finite
  have wide : Format.double.roundToBits
      (Format.single.unitsOfBits a.bits.toNat * 2 ^ Format.double.unitExponent)
      (2 ^ Format.single.unitExponent) < Format.double.infinityBits := by
    apply Format.roundToBits_lt 1300 (by decide) (by decide)
    apply Nat.div_lt_of_lt_mul
    have exponents : Format.single.precision + 2 ^ Format.single.exponentWidth +
        Format.double.unitExponent ≤
          Format.single.unitExponent + (Format.double.precision + 1300) := by decide
    have powers {small large : Nat} (less : small ≤ large) : 2 ^ small ≤ 2 ^ large :=
      Nat.pow_le_pow_right Nat.two_pos less
    have product (first second : Nat) : 2 ^ (first + second) = 2 ^ first * 2 ^ second :=
      Nat.pow_add 2 first second
    calc Format.single.unitsOfBits a.bits.toNat * 2 ^ Format.double.unitExponent
        < 2 ^ (Format.single.precision + 2 ^ Format.single.exponentWidth) *
            2 ^ Format.double.unitExponent :=
          Nat.mul_lt_mul_of_pos_right units (Nat.two_pow_pos _)
      _ = 2 ^ (Format.single.precision + 2 ^ Format.single.exponentWidth +
            Format.double.unitExponent) := (product _ _).symm
      _ ≤ 2 ^ (Format.single.unitExponent + (Format.double.precision + 1300)) :=
          powers exponents
      _ = 2 ^ Format.single.unitExponent * 2 ^ (Format.double.precision + 1300) := product _ _
  have bits : (ofSingle a).bits.toNat = Format.double.roundToBits
      (Format.single.unitsOfBits a.bits.toNat * 2 ^ Format.double.unitExponent)
      (2 ^ Format.single.unitExponent) := by
    unfold ofSingle Format.convert
    rw [Datum.ofBits_eq_finite finite (Nat.lt_trans finite (by decide))]
    simp only [Format.round, Format.join, Bool.false_eq_true, if_false, Nat.pow_eq]
    have fits : Format.double.infinityBits < 2 ^ 64 := by decide
    rw [UInt64.toNat_ofNat', Nat.mod_eq_of_lt (Nat.lt_trans wide fits)]
  unfold isFinite datum
  rw [bits, Datum.ofBits_eq_finite wide (Nat.lt_trans wide (by decide))]

end Ieee
end Chronicle
