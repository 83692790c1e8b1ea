import Mathlib

/-! Berlekamp-Massey over an arbitrary field, stated on polynomials. A register is kept
together with two witnesses, the evaluator and the cofactor; minimality and uniqueness follow
from their determinant alone. -/
namespace DabStar.KeyEquation
open Polynomial

variable {F : Type*} [Field F]

theorem mulXDegreeLT {p : F[X]} {n : ℕ} (h : p ∈ degreeLT F n) : X * p ∈ degreeLT F (n + 1) := by
  rw [mem_degreeLT,degree_lt_iff_coeff_zero] at h ⊢
  intro i large
  cases i with
  | zero => omega
  | succ i => rw [coeff_X_mul]; exact h i (by omega)

theorem mulCDegreeLT {p : F[X]} {n : ℕ} (a : F) (h : p ∈ degreeLT F n) : C a * p ∈ degreeLT F n := by
  rw [C_mul']
  exact Submodule.smul_mem _ a h

theorem mulDegreeLT {p q : F[X]} {m n : ℕ} (hp : p ∈ degreeLT F (m + 1)) (hq : q ∈ degreeLT F n) : p * q ∈ degreeLT F (m + n) := by
  rw [mem_degreeLT] at hp hq ⊢
  by_cases zero : p = 0
  · rw [zero,zero_mul,degree_zero]; exact WithBot.bot_lt_coe _
  · by_cases zero' : q = 0
    · rw [zero',mul_zero,degree_zero]; exact WithBot.bot_lt_coe _
    · rw [degree_eq_natDegree zero,Nat.cast_lt] at hp
      rw [degree_eq_natDegree zero',Nat.cast_lt] at hq
      rw [degree_mul,degree_eq_natDegree zero,degree_eq_natDegree zero',← Nat.cast_add,Nat.cast_lt]
      omega

theorem eqZeroOfDvd {p : F[X]} {n : ℕ} (small : p ∈ degreeLT F n) (dvd : X ^ n ∣ p) : p = 0 := by
  rw [mem_degreeLT,degree_lt_iff_coeff_zero] at small
  rw [X_pow_dvd_iff] at dvd
  ext i
  by_cases less : i < n
  · exact dvd i less
  · exact small i (by omega)

structure Register (F : Type*) [Field F] where
  length : ℕ
  locator : F[X]
  corrector : F[X]

noncomputable def start : Register F := ⟨0,1,X⟩

noncomputable def discrepancy (S : F[X]) (r : Register F) (n : ℕ) : F := (r.locator * S).coeff n

open Classical in
noncomputable def step (S : F[X]) (r : Register F) (n : ℕ) : Register F :=
  if 2 * r.length ≤ n ∧ discrepancy S r n ≠ 0 then
    ⟨n + 1 - r.length,r.locator - C (discrepancy S r n) * r.corrector,
      X * (C (discrepancy S r n)⁻¹ * r.locator)⟩
  else ⟨r.length,r.locator - C (discrepancy S r n) * r.corrector,X * r.corrector⟩

noncomputable def run (S : F[X]) (n : ℕ) : Register F := (List.range n).foldl (step S) start

theorem runSucc (S : F[X]) (n : ℕ) : run S (n + 1) = step S (run S n) n := by simp [run,List.range_succ]

structure Solved (S : F[X]) (n : ℕ) (r : Register F) (evaluator cofactor : F[X]) : Prop where
  bounded : r.length ≤ n
  locatorDegree : r.locator ∈ degreeLT F (r.length + 1)
  evaluatorDegree : evaluator ∈ degreeLT F r.length
  correctorDegree : r.corrector ∈ degreeLT F (n + 2 - r.length)
  cofactorDegree : cofactor ∈ degreeLT F (n + 1 - r.length)
  constant : r.locator.coeff 0 = 1
  shifted : r.corrector.coeff 0 = 0
  key : X ^ n ∣ r.locator * S - evaluator
  dual : X ^ (n + 1) ∣ r.corrector * S - cofactor - X ^ n
  determinant : r.locator * cofactor - r.corrector * evaluator = -X ^ n

theorem startSolved (S : F[X]) : Solved S 0 start 0 (-1) where
  bounded := Nat.le_refl 0
  locatorDegree := by simp [start,mem_degreeLT]
  evaluatorDegree := Submodule.zero_mem _
  correctorDegree := by simp [start,mem_degreeLT]
  cofactorDegree := by simp [start,mem_degreeLT]
  constant := by simp [start]
  shifted := by simp [start]
  key := by simp
  dual := by simp [start]
  determinant := by simp [start]

theorem discrepancyKey {S : F[X]} {n r evaluator cofactor} (solved : Solved S n r evaluator cofactor) :
    X ^ (n + 1) ∣ r.locator * S - evaluator - C (discrepancy S r n) * X ^ n := by
  have key := X_pow_dvd_iff.mp solved.key
  have top : evaluator.coeff n = 0 := by
    have small := solved.evaluatorDegree
    rw [mem_degreeLT,degree_lt_iff_coeff_zero] at small
    exact small n solved.bounded
  rw [X_pow_dvd_iff]
  intro i less
  rw [coeff_sub,coeff_C_mul,coeff_X_pow]
  rcases Nat.lt_succ_iff_lt_or_eq.mp less with before | rfl
  · rw [key i before,if_neg (by omega)]; ring
  · rw [coeff_sub,top,if_pos rfl,discrepancy]; ring

theorem stepKey {S : F[X]} {n r evaluator cofactor} (solved : Solved S n r evaluator cofactor) :
    X ^ (n + 1) ∣ (r.locator - C (discrepancy S r n) * r.corrector) * S - (evaluator - C (discrepancy S r n) * cofactor) := by
  have difference := dvd_sub (discrepancyKey solved) (solved.dual.mul_left (C (discrepancy S r n)))
  convert difference using 1
  ring

theorem stepSolved {S : F[X]} {n r evaluator cofactor} (solved : Solved S n r evaluator cofactor) :
    ∃ evaluator' cofactor', Solved S (n + 1) (step S r n) evaluator' cofactor' := by
  have bounded := solved.bounded
  by_cases grow : 2 * r.length ≤ n ∧ discrepancy S r n ≠ 0
  · obtain ⟨short,nonzero⟩ := grow
    have unit : C (discrepancy S r n)⁻¹ * C (discrepancy S r n) = 1 := by rw [← C_mul,inv_mul_cancel₀ nonzero,C_1]
    refine ⟨evaluator - C (discrepancy S r n) * cofactor,X * (C (discrepancy S r n)⁻¹ * evaluator),?_⟩
    rw [step,if_pos ⟨short,nonzero⟩]
    refine ⟨by dsimp only; omega,?_,?_,?_,?_,?_,?_,stepKey solved,?_,?_⟩ <;> dsimp only
    · exact Submodule.sub_mem _ (degreeLT_mono (by omega) solved.locatorDegree)
        (degreeLT_mono (by omega) (mulCDegreeLT _ solved.correctorDegree))
    · exact Submodule.sub_mem _ (degreeLT_mono (by omega) solved.evaluatorDegree)
        (mulCDegreeLT _ solved.cofactorDegree)
    · exact degreeLT_mono (by omega) (mulXDegreeLT (mulCDegreeLT _ solved.locatorDegree))
    · exact degreeLT_mono (by omega) (mulXDegreeLT (mulCDegreeLT _ solved.evaluatorDegree))
    · rw [coeff_sub,coeff_C_mul,solved.constant,solved.shifted]; ring
    · exact coeff_X_mul_zero _
    · have scaled := mul_dvd_mul_left X ((discrepancyKey solved).mul_left (C (discrepancy S r n)⁻¹))
      rw [← pow_succ'] at scaled
      convert scaled using 1
      linear_combination X ^ (n + 1) * unit
    · linear_combination X * solved.determinant + (r.locator * cofactor - r.corrector * evaluator) * X * unit
  · refine ⟨evaluator - C (discrepancy S r n) * cofactor,X * cofactor,?_⟩
    -- without growth either the discrepancy is zero or the register is already long enough
    have long : discrepancy S r n = 0 ∨ n + 1 ≤ 2 * r.length := by
      by_contra neither
      push Not at neither
      exact grow ⟨by omega,neither.1⟩
    rw [step,if_neg grow]
    refine ⟨by dsimp only; omega,?_,?_,?_,?_,?_,?_,stepKey solved,?_,?_⟩ <;> dsimp only
    · rcases long with zero | long
      · simpa [zero] using solved.locatorDegree
      · exact Submodule.sub_mem _ solved.locatorDegree
          (degreeLT_mono (by omega) (mulCDegreeLT _ solved.correctorDegree))
    · rcases long with zero | long
      · simpa [zero] using solved.evaluatorDegree
      · exact Submodule.sub_mem _ solved.evaluatorDegree
          (degreeLT_mono (by omega) (mulCDegreeLT _ solved.cofactorDegree))
    · exact degreeLT_mono (by omega) (mulXDegreeLT solved.correctorDegree)
    · exact degreeLT_mono (by omega) (mulXDegreeLT solved.cofactorDegree)
    · rw [coeff_sub,coeff_C_mul,solved.constant,solved.shifted]; ring
    · exact coeff_X_mul_zero _
    · have shifted := mul_dvd_mul_left X solved.dual
      rw [← pow_succ'] at shifted
      convert shifted using 1
      ring
    · linear_combination X * solved.determinant

theorem runSolved (S : F[X]) (n : ℕ) : ∃ evaluator cofactor, Solved S n (run S n) evaluator cofactor := by
  induction n with
  | zero => exact ⟨0,-1,startSolved S⟩
  | succ n ih =>
    obtain ⟨evaluator,cofactor,solved⟩ := ih
    rw [runSucc]
    exact stepSolved solved

theorem coprimeX {p : F[X]} (constant : p.coeff 0 = 1) : IsCoprime p X := by
  refine ⟨1,-divX p,?_⟩
  have whole := divX_mul_X_add p
  rw [constant,C_1] at whole
  linear_combination -whole

theorem solvedCoprime {S : F[X]} {n r evaluator cofactor} (solved : Solved S n r evaluator cofactor) : IsCoprime r.locator evaluator := by
  obtain ⟨a,b,one⟩ := (coprimeX solved.constant).pow_right (n := n)
  refine ⟨a - b * cofactor,b * r.corrector,?_⟩
  linear_combination one - b * solved.determinant

structure Candidate (S : F[X]) (n length : ℕ) (locator evaluator : F[X]) : Prop where
  locatorDegree : locator ∈ degreeLT F (length + 1)
  evaluatorDegree : evaluator ∈ degreeLT F length
  constant : locator.coeff 0 = 1
  key : X ^ n ∣ locator * S - evaluator

theorem Candidate.mono {S : F[X]} {m n length σ ω} (less : m ≤ n) (c : Candidate S n length σ ω) : Candidate S m length σ ω :=
  ⟨c.locatorDegree,c.evaluatorDegree,c.constant,(pow_dvd_pow X less).trans c.key⟩

theorem growthMinimal {S : F[X]} {n r evaluator cofactor} (solved : Solved S n r evaluator cofactor)
    {ν : ℕ} {σ ω : F[X]} (c : Candidate S (n + 1) ν σ ω) (nonzero : discrepancy S r n ≠ 0) : n + 1 ≤ ν + r.length := by
  by_contra short
  push Not at short
  have cross : X ^ (n + 1) ∣ r.locator * ω - σ * evaluator - C (discrepancy S r n) * (σ * X ^ n) := by
    have difference := dvd_sub ((discrepancyKey solved).mul_left σ) (c.key.mul_left r.locator)
    convert difference using 1
    ring
  have left := mulDegreeLT solved.locatorDegree c.evaluatorDegree
  have right := mulDegreeLT c.locatorDegree solved.evaluatorDegree
  rw [mem_degreeLT,degree_lt_iff_coeff_zero] at left right
  have coefficient := X_pow_dvd_iff.mp cross n (by omega)
  have top : (σ * X ^ n).coeff n = 1 := by
    have h := coeff_mul_X_pow σ n 0
    rwa [zero_add,c.constant] at h
  rw [coeff_sub,coeff_sub,left n (by omega),right n (by omega),coeff_C_mul,top] at coefficient
  exact nonzero (by linear_combination -coefficient)

theorem runLengthMinimal {S : F[X]} {n ν : ℕ} {σ ω : F[X]} (c : Candidate S n ν σ ω) : (run S n).length ≤ ν := by
  induction n with
  | zero => exact Nat.zero_le ν
  | succ n ih =>
    have before := ih (c.mono (Nat.le_succ n))
    obtain ⟨evaluator,cofactor,solved⟩ := runSolved S n
    rw [runSucc,step]
    split
    · rename_i grow
      have minimal := growthMinimal solved c grow.2
      dsimp only
      omega
    · exact before

theorem eqOfDvdDvd {p q : F[X]} (hp : p.coeff 0 = 1) (hq : q.coeff 0 = 1) (pq : p ∣ q) (qp : q ∣ p) : p = q := by
  obtain ⟨u,hu⟩ := associated_of_dvd_dvd pq qp
  obtain ⟨c,_,same⟩ := Polynomial.isUnit_iff.mp u.isUnit
  have constant := congrArg (fun f => coeff f 0) hu
  simp only [← same,coeff_mul_C,hp,hq,one_mul] at constant
  rw [← hu,← same,constant,C_1,mul_one]

theorem runUnique {S : F[X]} {n ν : ℕ} {σ ω : F[X]} (c : Candidate S n ν σ ω) (coprime : IsCoprime σ ω)
    (enough : 2 * ν ≤ n) {evaluator cofactor} (solved : Solved S n (run S n) evaluator cofactor) :
    (run S n).locator = σ ∧ evaluator = ω := by
  have minimal := runLengthMinimal c
  have cross : (run S n).locator * ω - σ * evaluator = 0 := by
    apply eqZeroOfDvd (n := n)
    · exact Submodule.sub_mem _ (degreeLT_mono (by omega) (mulDegreeLT solved.locatorDegree c.evaluatorDegree))
        (degreeLT_mono (by omega) (mulDegreeLT c.locatorDegree solved.evaluatorDegree))
    · have difference := dvd_sub (solved.key.mul_left σ) (c.key.mul_left (run S n).locator)
      convert difference using 1
      ring
  have product : (run S n).locator * ω = σ * evaluator := sub_eq_zero.mp cross
  have forward : (run S n).locator ∣ σ := (solvedCoprime solved).dvd_of_dvd_mul_right ⟨ω,product.symm⟩
  have backward : σ ∣ (run S n).locator := coprime.dvd_of_dvd_mul_right ⟨evaluator,product⟩
  have same := eqOfDvdDvd solved.constant c.constant forward backward
  refine ⟨same,?_⟩
  rw [same] at product
  have nonzero : σ ≠ 0 := by
    rintro rfl
    simpa using c.constant
  exact (mul_left_cancel₀ nonzero product).symm

end DabStar.KeyEquation
