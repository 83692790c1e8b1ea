import DabStar.Lib.Crc

/-! The register of a CRC as a polynomial over the field of two elements: what is left at the
end is the remainder of the message, with the first register in front of it, modulo the
generator. -/
namespace DabStar.Lib.Crc
open Polynomial

noncomputable section

def coefficient (bit : Bool) : ZMod 2 := if bit then 1 else 0

def polynomial (n : Nat) : (ZMod 2)[X] := ∑ i ∈ Finset.range 16, C (coefficient (n.testBit i)) * X ^ i

def message : List Bool → (ZMod 2)[X]
  | [] => 0
  | bit :: bits => C (coefficient bit) * X ^ bits.length + message bits

def generator (poly : Nat) : (ZMod 2)[X] := X ^ 16 + polynomial poly

theorem coefficientXor (a b : Bool) : coefficient (a ^^ b) = coefficient a + coefficient b := by
  cases a <;> cases b <;> decide

theorem polynomialCoeff (n k : Nat) : (polynomial n).coeff k = if k < 16 then coefficient (n.testBit k) else 0 := by
  simp [polynomial,coeff_C_mul,coeff_X_pow]

theorem polynomialXor (a b : Nat) : polynomial (a ^^^ b) = polynomial a + polynomial b := by
  ext k
  rw [coeff_add,polynomialCoeff,polynomialCoeff,polynomialCoeff,Nat.testBit_xor,coefficientXor]
  split <;> simp

theorem polynomialShift (n : Nat) : polynomial ((n <<< 1) % 2 ^ 16) + C (coefficient (n.testBit 15)) * X ^ 16 = X * polynomial n := by
  ext k
  rw [coeff_add,coeff_C_mul,coeff_X_pow,polynomialCoeff,Nat.testBit_mod_two_pow,Nat.testBit_shiftLeft]
  cases k with
  | zero => simp [coefficient]
  | succ k =>
    rw [coeff_X_mul,polynomialCoeff]
    rcases Nat.lt_trichotomy k 15 with below | rfl | above
    · have other : k ≠ 15 := by omega
      have inside : k + 1 < 16 := by omega
      have inside' : k < 16 := by omega
      simp [inside,inside',other]
    · simp
    · have other : k ≠ 15 := by omega
      have outside : ¬k + 1 < 16 := by omega
      have outside' : ¬k < 16 := by omega
      simp [outside,outside',other]

theorem polynomialDegree (n : Nat) : (polynomial n).degree < (16 : Nat) := by
  refine (degree_lt_iff_coeff_zero _ _).mpr fun k high => ?_
  rw [polynomialCoeff,if_neg (by omega)]

variable (poly : Nat)

theorem generatorMonic : (generator poly).Monic := monic_X_pow_add (polynomialDegree poly)

theorem generatorDegree : (generator poly).degree = (16 : Nat) := by
  have less : (polynomial poly).degree < ((X : (ZMod 2)[X]) ^ 16).degree := by
    rw [degree_X_pow]
    exact polynomialDegree poly
  rw [generator,degree_add_eq_left_of_degree_lt less,degree_X_pow]

theorem shiftInPolynomial (poly register : Nat) (bit : Bool) :
    polynomial (shiftIn poly register bit) = X * polynomial register + C (coefficient bit) * X ^ 16 +
      C (coefficient (register.testBit 15 ^^ bit)) * generator poly := by
  have twice : ∀ p : (ZMod 2)[X], p + p = 0 := fun p => CharTwo.add_self_eq_zero p
  have selected : polynomial (if register.testBit 15 ^^ bit then poly else 0) =
      C (coefficient (register.testBit 15 ^^ bit)) * polynomial poly := by
    cases register.testBit 15 ^^ bit with
    | true => simp [coefficient]
    | false => simp [coefficient,polynomial]
  have shifted := polynomialShift register
  rw [shiftIn,polynomialXor,selected,← shifted,generator,coefficientXor,C_add]
  linear_combination (-1 : (ZMod 2)[X]) * twice (C (coefficient (register.testBit 15)) * X ^ 16) - twice (C (coefficient bit) * X ^ 16)

theorem remainderDivides (bits : List Bool) (register : Nat) : generator poly ∣
    (X ^ bits.length * polynomial register + X ^ 16 * message bits) - polynomial (remainder poly register bits) := by
  induction bits generalizing register with
  | nil => simp [message,remainder]
  | cons bit bits ih =>
    obtain ⟨q,quotient⟩ := ih (shiftIn poly register bit)
    have step := shiftInPolynomial poly register bit
    have same : remainder poly register (bit :: bits) = remainder poly (shiftIn poly register bit) bits := rfl
    refine ⟨q - X ^ bits.length * C (coefficient (register.testBit 15 ^^ bit)),?_⟩
    rw [same,List.length_cons,message]
    rw [step] at quotient
    generalize polynomial register = r at *
    generalize polynomial (remainder poly (shiftIn poly register bit) bits) = r' at *
    generalize C (coefficient (register.testBit 15 ^^ bit)) = c at *
    generalize generator poly = g at *
    linear_combination quotient

theorem remainderPolynomial (bits : List Bool) (register : Nat) : polynomial (remainder poly register bits) =
      (X ^ bits.length * polynomial register + X ^ 16 * message bits) %ₘ generator poly := by
  have monic := generatorMonic poly
  have small : polynomial (remainder poly register bits) %ₘ generator poly = polynomial (remainder poly register bits) := by
    rw [modByMonic_eq_self_iff monic,generatorDegree]
    exact polynomialDegree _
  have zero := (modByMonic_eq_zero_iff_dvd monic).mpr (remainderDivides poly bits register)
  rw [sub_modByMonic,small,sub_eq_zero] at zero
  exact zero.symm

end

end DabStar.Lib.Crc
