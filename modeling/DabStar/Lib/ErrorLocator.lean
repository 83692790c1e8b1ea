import DabStar.Lib.KeyEquation

/-! Error patterns over an arbitrary field: positions l with locators x l and values y l, the
power sums they cause, and the locator and evaluator polynomials that solve the key equation
for these sums. -/
namespace DabStar.ErrorLocator
open Polynomial Finset

variable {F : Type*} [Field F] {ι : Type*}

noncomputable def syndromes (n : ℕ) (s : ℕ → F) : F[X] := ∑ k ∈ range n, C (s k) * X ^ k

noncomputable def factor (x : F) : F[X] := 1 - C x * X

noncomputable def locator (R : Finset ι) (x : ι → F) : F[X] := ∏ l ∈ R, factor (x l)

def powerSum (R : Finset ι) (x y : ι → F) (k : ℕ) : F := ∑ l ∈ R, y l * x l ^ k

theorem syndromesCoeff (n : ℕ) (s : ℕ → F) (k : ℕ) : (syndromes n s).coeff k = if k < n then s k else 0 := by simp [syndromes,coeff_X_pow]

theorem factorDegree (x : F) : factor x ∈ degreeLT F 2 := by
  rw [mem_degreeLT,degree_lt_iff_coeff_zero]
  intro i large
  obtain ⟨i,rfl⟩ : ∃ j, i = j + 2 := ⟨i - 2,by omega⟩
  simp [factor,coeff_one]

theorem locatorConstant (R : Finset ι) (x : ι → F) : (locator R x).coeff 0 = 1 := by
  rw [coeff_zero_eq_eval_zero,locator,eval_prod]
  simp [factor]

theorem geometric (n : ℕ) (x : F) : X ^ n ∣ factor x * syndromes n (fun k => x ^ k) - 1 := by
  have sum : syndromes n (fun k => x ^ k) = ∑ k ∈ range n, (C x * X) ^ k := by simp only [syndromes,mul_pow,C_pow]
  rw [sum,factor,mul_neg_geom_sum,mul_pow]
  exact ⟨-C x ^ n,by ring⟩

section

variable {R : Finset ι} {x : ι → F}

theorem factorRoot {a : F} (nonzero : a ≠ 0) : (factor a).eval a⁻¹ = 0 := by simp [factor,nonzero]

theorem locatorRootIff (a : F) : (locator R x).eval a = 0 ↔ ∃ l ∈ R, x l * a = 1 := by
  rw [locator,eval_prod,prod_eq_zero_iff]
  refine exists_congr fun l => and_congr_right fun _ => ?_
  rw [factor,eval_sub,eval_one,eval_mul,eval_C,eval_X,sub_eq_zero,eq_comm]

theorem coprimeOfEval {p : F[X]} {a : F} (nonzero : a ≠ 0) (value : p.eval a⁻¹ ≠ 0) : IsCoprime (factor a) p := by
  have root : (X - C a⁻¹) ∣ p - C (p.eval a⁻¹) := by rw [dvd_iff_isRoot]; simp
  obtain ⟨q,hq⟩ := root
  have unit : C a * C a⁻¹ = (1 : F[X]) := by rw [← C_mul,mul_inv_cancel₀ nonzero,C_1]
  have inverse : C (p.eval a⁻¹)⁻¹ * C (p.eval a⁻¹) = (1 : F[X]) := by rw [← C_mul,inv_mul_cancel₀ value,C_1]
  refine ⟨C (p.eval a⁻¹)⁻¹ * C a⁻¹ * q,C (p.eval a⁻¹)⁻¹,?_⟩
  rw [factor]
  linear_combination C (p.eval a⁻¹)⁻¹ * hq + inverse - C (p.eval a⁻¹)⁻¹ * q * X * unit

theorem coprimeOfRoots {p : F[X]} (nonzero : ∀ l ∈ R, x l ≠ 0) (value : ∀ l ∈ R, p.eval (x l)⁻¹ ≠ 0) : IsCoprime (locator R x) p :=
  IsCoprime.prod_left fun l member => coprimeOfEval (nonzero l member) (value l member)

theorem eqOfInverseLocators (distinct : Set.InjOn x R) {p q : F[X]} (hp : p ∈ degreeLT F R.card)
    (hq : q ∈ degreeLT F R.card) (agree : ∀ l ∈ R, p.eval (x l)⁻¹ = q.eval (x l)⁻¹) : p = q := by
  have injective : Set.InjOn (fun l => (x l)⁻¹) R := fun l hl m hm same => distinct hl hm (inv_injective same)
  exact Polynomial.eq_of_degrees_lt_of_eval_index_eq R injective (mem_degreeLT.mp hp) (mem_degreeLT.mp hq) agree

end

variable [DecidableEq ι]

noncomputable def others (R : Finset ι) (x : ι → F) (l : ι) : F[X] := ∏ m ∈ R.erase l, factor (x m)

noncomputable def evaluator (R : Finset ι) (x y : ι → F) : F[X] := ∑ l ∈ R, C (y l) * others R x l

theorem prodDegree (R : Finset ι) (x : ι → F) : ∏ l ∈ R, factor (x l) ∈ degreeLT F (R.card + 1) := by
  induction R using Finset.induction_on with
  | empty => simp [mem_degreeLT]
  | insert l R fresh ih =>
    rw [prod_insert fresh,card_insert_of_notMem fresh]
    exact degreeLT_mono (by omega) (KeyEquation.mulDegreeLT (factorDegree (x l)) ih)

theorem locatorDegree (R : Finset ι) (x : ι → F) : locator R x ∈ degreeLT F (R.card + 1) := prodDegree R x

theorem othersDegree {R : Finset ι} (x : ι → F) {l : ι} (member : l ∈ R) : others R x l ∈ degreeLT F R.card := by
  have degree := prodDegree (R.erase l) x
  have positive := card_pos.mpr ⟨l,member⟩
  rwa [card_erase_of_mem member,Nat.sub_add_cancel positive] at degree

theorem evaluatorDegree (R : Finset ι) (x y : ι → F) : evaluator R x y ∈ degreeLT F R.card :=
  Submodule.sum_mem _ fun _ member => KeyEquation.mulCDegreeLT _ (othersDegree x member)

theorem locatorSplit {R : Finset ι} (x : ι → F) {l : ι} (member : l ∈ R) :
    locator R x = factor (x l) * others R x l := (mul_prod_erase R _ member).symm

theorem locatorKey (n : ℕ) (R : Finset ι) (x y : ι → F) : X ^ n ∣ locator R x * syndromes n (powerSum R x y) - evaluator R x y := by
  have expand : syndromes n (powerSum R x y) = ∑ l ∈ R, C (y l) * syndromes n (fun k => x l ^ k) := by
    ext k
    simp only [finsetSum_coeff,coeff_C_mul,syndromesCoeff,powerSum]
    split <;> simp
  rw [expand,mul_sum,evaluator,← sum_sub_distrib]
  refine dvd_sum fun l member => ?_
  have single := (geometric n (x l)).mul_left (C (y l) * others R x l)
  convert single using 1
  rw [locatorSplit x member]
  ring

theorem candidate (n : ℕ) (R : Finset ι) (x y : ι → F) :
    KeyEquation.Candidate (syndromes n (powerSum R x y)) n R.card (locator R x) (evaluator R x y) :=
  ⟨locatorDegree R x,evaluatorDegree R x y,locatorConstant R x,locatorKey n R x y⟩

section Roots
variable {l : ι} {y : ι → F}

variable {R : Finset ι} {x : ι → F}

theorem othersRoot {l m : ι} (member : m ∈ R) (different : l ≠ m) (nonzero : x m ≠ 0) : (others R x l).eval (x m)⁻¹ = 0 := by
  rw [others,eval_prod]
  exact prod_eq_zero (mem_erase.mpr ⟨different.symm,member⟩) (factorRoot nonzero)

theorem othersNeZero (distinct : Set.InjOn x R) (member : l ∈ R) (nonzero : x l ≠ 0) : (others R x l).eval (x l)⁻¹ ≠ 0 := by
  rw [others,eval_prod,prod_ne_zero_iff]
  intro m other zero
  obtain ⟨different,inside⟩ := mem_erase.mp other
  have same : x m = x l := by
    simp only [factor,eval_sub,eval_one,eval_mul,eval_C,eval_X,sub_eq_zero] at zero
    exact (mul_inv_eq_one₀ nonzero).mp zero.symm
  exact different (distinct inside member same)

theorem evaluatorAt (member : l ∈ R) (nonzero : x l ≠ 0) : (evaluator R x y).eval (x l)⁻¹ = y l * (others R x l).eval (x l)⁻¹ := by
  rw [evaluator,eval_finsetSum,sum_eq_single_of_mem l member]
  · simp
  · intro m inside different
    rw [eval_mul,othersRoot member different nonzero,mul_zero]

theorem derivativeAt (member : l ∈ R) (nonzero : x l ≠ 0) :
    (derivative (locator R x)).eval (x l)⁻¹ = -x l * (others R x l).eval (x l)⁻¹ := by
  rw [locatorSplit x member,derivative_mul,eval_add,eval_mul,eval_mul,factorRoot nonzero,zero_mul,add_zero]
  simp [factor]

theorem derivativeNeZero (distinct : Set.InjOn x R) (member : l ∈ R) (nonzero : x l ≠ 0) : (derivative (locator R x)).eval (x l)⁻¹ ≠ 0 := by
  rw [derivativeAt member nonzero]
  exact mul_ne_zero (neg_ne_zero.mpr nonzero) (othersNeZero distinct member nonzero)

theorem forney (distinct : Set.InjOn x R) (member : l ∈ R) (nonzero : x l ≠ 0) :
    y l = -(x l * (evaluator R x y).eval (x l)⁻¹) / (derivative (locator R x)).eval (x l)⁻¹ := by
  rw [eq_div_iff (derivativeNeZero distinct member nonzero),evaluatorAt member nonzero,derivativeAt member nonzero]
  ring

theorem candidateCoprime (distinct : Set.InjOn x R) (nonzero : ∀ l ∈ R, x l ≠ 0)
    (values : ∀ l ∈ R, y l ≠ 0) : IsCoprime (locator R x) (evaluator R x y) := by
  refine coprimeOfRoots nonzero fun l member => ?_
  rw [evaluatorAt member (nonzero l member)]
  exact mul_ne_zero (values l member) (othersNeZero distinct member (nonzero l member))

theorem valuesOfPowerSums (distinct : Set.InjOn x R) (nonzero : ∀ l ∈ R, x l ≠ 0) {n : ℕ} (few : R.card ≤ n) (zero : ∀ k < n, powerSum R x y k = 0) : ∀ l ∈ R, y l = 0 := by
  have none : syndromes n (powerSum R x y) = 0 := by
    rw [syndromes]
    exact sum_eq_zero fun k member => by rw [zero k (mem_range.mp member),C_0,zero_mul]
  have key := locatorKey n R x y
  rw [none,mul_zero,zero_sub,dvd_neg] at key
  have empty := KeyEquation.eqZeroOfDvd (degreeLT_mono few (evaluatorDegree R x y)) key
  intro l member
  have value := evaluatorAt (y := y) member (nonzero l member)
  rw [empty,eval_zero] at value
  exact (mul_eq_zero.mp value.symm).resolve_right (othersNeZero distinct member (nonzero l member))

theorem locatorOfRoots (distinct : Set.InjOn x R) (nonzero : ∀ l ∈ R, x l ≠ 0) {p : F[X]}
    (degree : p ∈ degreeLT F (R.card + 1)) (constant : p.coeff 0 = 1) (roots : ∀ l ∈ R, p.eval (x l)⁻¹ = 0) : p = locator R x := by
  -- the difference is X times a polynomial below degree card R with card R roots
  have shifted : p - locator R x = X * divX (p - locator R x) := by
    have whole := divX_mul_X_add (p - locator R x)
    rw [coeff_sub,constant,locatorConstant,sub_self,C_0,add_zero] at whole
    rw [mul_comm,whole]
  have small : divX (p - locator R x) ∈ degreeLT F R.card := by
    have sum := Submodule.sub_mem _ degree (locatorDegree R x)
    rw [mem_degreeLT,degree_lt_iff_coeff_zero] at sum ⊢
    intro i large
    rw [coeff_divX]
    exact sum _ (by omega)
  have zero : divX (p - locator R x) = 0 := by
    refine eqOfInverseLocators distinct small (Submodule.zero_mem _) fun l member => ?_
    have value := congrArg (eval (x l)⁻¹) shifted
    rw [eval_sub,roots l member,(locatorRootIff _).mpr ⟨l,member,mul_inv_cancel₀ (nonzero l member)⟩,
      sub_zero,eval_mul,eval_X] at value
    rw [eval_zero]
    exact (mul_eq_zero.mp value.symm).resolve_left (inv_ne_zero (nonzero l member))
  rw [← sub_eq_zero,shifted,zero,mul_zero]

theorem partialFractions (distinct : Set.InjOn x R) (nonzero : ∀ l ∈ R, x l ≠ 0) {n : ℕ} {S Ω : F[X]}
    (degree : Ω ∈ degreeLT F R.card) (key : X ^ n ∣ locator R x * S - Ω) (y : ι → F)
    (values : ∀ l ∈ R, y l = -(x l * Ω.eval (x l)⁻¹) / (derivative (locator R x)).eval (x l)⁻¹) :
    X ^ n ∣ S - syndromes n (powerSum R x y) := by
  have same : Ω = evaluator R x y := by
    refine eqOfInverseLocators distinct degree (evaluatorDegree R x y) fun l member => ?_
    have unit := othersNeZero distinct member (nonzero l member)
    rw [evaluatorAt member (nonzero l member),values l member,derivativeAt member (nonzero l member)]
    rw [neg_mul,neg_div_neg_eq,mul_div_mul_left _ _ (nonzero l member),div_mul_cancel₀ _ unit]
  have difference := dvd_sub key (locatorKey n R x y)
  rw [same] at difference
  have product : X ^ n ∣ locator R x * (S - syndromes n (powerSum R x y)) := by
    convert difference using 1
    ring
  exact ((KeyEquation.coprimeX (locatorConstant R x)).symm.pow_left).dvd_of_dvd_mul_left product

end Roots
end DabStar.ErrorLocator
