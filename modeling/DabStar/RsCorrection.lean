import DabStar.RsLocator

/-! What the shortened decoder returns. A word that is returned as decoded lies near the code
exactly when the located errors account for all ten syndromes inside the transmitted positions.
-/
namespace DabStar.RsCorrection
open GF256 ReedSolomon RsCode RsLocator Polynomial Finset
open Galois (addPoly)
variable {w : List U8}

def point (q : ℕ) : GF256 := alpha ^ (254 - q)

def byteAt (w : List U8) (q : ℕ) : GF256 := ofByte (w.getD q 0#8)

def wrong (a b : List U8) (n : ℕ) : Finset ℕ := (range n).filter (fun i => a.getD i 0#8 ≠ b.getD i 0#8)

theorem pointNeZero (q : ℕ) : point q ≠ 0 := pow_ne_zero _ alphaNeZero

theorem pointInverse {q : ℕ} (small : q < 255) : (point q)⁻¹ = alpha ^ (q + 1) := by
  refine inv_eq_of_mul_eq_one_right ?_
  rw [point,← pow_add,show 254 - q + (q + 1) = 255 by omega,alphaOrder]

theorem pointInjOn {R : Finset ℕ} (inside : R ⊆ range 255) : Set.InjOn point R := by
  intro a ha b hb same
  have ha := mem_range.mp (inside ha)
  have hb := mem_range.mp (inside hb)
  have exponents := alphaPowInjective (by omega) (by omega) same
  omega

theorem hornerPowerSum (length : w.length = 255) (k : ℕ) : horner (alpha ^ k) w = ErrorLocator.powerSum (range 255) point (byteAt w) k := by
  rw [hornerSum,length,ErrorLocator.powerSum]
  refine sum_congr rfl fun q _ => ?_
  rw [point,← pow_mul,← pow_mul,mul_comm k]
  rfl

theorem syndromesValue (length : w.length = 255) {k : ℕ} (small : k < 10) :
    ofByte ((mRsDecoder.computeSyndromes w).1.getD k 0#8) = horner (alpha ^ k) w := by
  rw [computeSyndromes,nrootsValue]
  dsimp only
  rw [getDMapRange _ _ _ small,getSyndromeHorner length small]

theorem orZero (l : List U8) (a : U8) : l.foldl (· ||| ·) a = 0#8 ↔ a = 0#8 ∧ ∀ b ∈ l, b = 0#8 := by
  induction l generalizing a with
  | nil => simp
  | cons b l ih =>
    rw [List.foldl_cons,ih,List.forall_mem_cons,BitVec.or_eq_zero_iff,and_assoc]

theorem noSyndromes (length : w.length = 255) : (mRsDecoder.computeSyndromes w).2 = true ↔ Codeword w := by
  have flag : (mRsDecoder.computeSyndromes w).2 = true ↔ ∀ k < 10, ofByte ((mRsDecoder.computeSyndromes w).1.getD k 0#8) = 0 := by
    rw [computeSyndromes,nrootsValue]
    dsimp only
    rw [decide_eq_true_iff,orZero]
    simp only [true_and,List.forall_mem_map,List.mem_range]
    refine forall_congr' fun k => forall_congr' fun small => ?_
    rw [getDMapRange _ _ _ small,ofByteEqZero]
  rw [flag]
  constructor
  · exact fun zero => ⟨length,fun k small => by rw [← syndromesValue length small,zero k small]⟩
  · exact fun code k small => by rw [syndromesValue length small,code.roots k small]

theorem errorSum {w c : List U8} (length : w.length = 255) (code : Codeword c) {R : Finset ℕ} (inside : R ⊆ range 255)
    (same : ∀ q ∈ range 255, q ∉ R → byteAt w q = byteAt c q) {k : ℕ} (small : k < 10) :
    horner (alpha ^ k) w = ErrorLocator.powerSum R point (fun q => byteAt w q - byteAt c q) k := by
  have zero := code.roots k small
  rw [hornerPowerSum code.length] at zero
  rw [hornerPowerSum length,← sub_zero (ErrorLocator.powerSum _ _ (byteAt w) k),← zero]
  simp only [ErrorLocator.powerSum]
  rw [← sum_sub_distrib]
  simp only [← sub_mul]
  refine (sum_subset inside fun q member outside => ?_).symm
  rw [same q member outside,sub_self,zero_mul]

theorem wordEq {a b : List U8} (ha : a.length = 255) (hb : b.length = 255) (same : ∀ q < 255, byteAt a q = byteAt b q) : a = b := by
  refine List.ext_getElem (ha.trans hb.symm) fun q h1 h2 => ?_
  have bytes : a.getD q 0#8 = b.getD q 0#8 := same q (by omega)
  rwa [List.getD_eq_getElem _ _ h1,List.getD_eq_getElem _ _ h2] at bytes

theorem codewordUnique {a b : List U8} (ha : Codeword a) (hb : Codeword b) (same : ∀ q < 245, byteAt a q = byteAt b q) : a = b := by
  have inside : Ico 245 255 ⊆ range 255 := fun q member => mem_range.mpr (mem_Ico.mp member).2
  have agree : ∀ q ∈ range 255, q ∉ Ico 245 255 → byteAt a q = byteAt b q := by
    intro q member outside
    rw [mem_range] at member
    rw [mem_Ico] at outside
    exact same q (by omega)
  have zero := ErrorLocator.valuesOfPowerSums (pointInjOn inside) (fun q _ => pointNeZero q) (n := 10) (by simp)
    (y := fun q => byteAt a q - byteAt b q)
    (fun k small => by rw [← errorSum ha.length hb inside agree small,ha.roots k small])
  refine wordEq ha.length hb.length fun q less => ?_
  by_cases parity : q ∈ Ico 245 255
  · exact sub_eq_zero.mp (zero q parity)
  · exact agree q (mem_range.mpr less) parity

section Search
variable {q : ℕ}

variable {syn l : List U8} (length : l.length = 10) (one : ofByte (l.getD 0 0#8) = 1)

noncomputable def errorLocs (p : GF256[X]) : Finset ℕ := (range 255).filter (fun q => p.eval (point q)⁻¹ = 0)

theorem errorLocsInside (p : GF256[X]) : errorLocs p ⊆ range 255 := filter_subset _ _

theorem memErrorLocs {p : GF256[X]} : q ∈ errorLocs p ↔ q + 1 ∈ roots p 255 := by
  rw [errorLocs,mem_filter,mem_range,memRoots]
  constructor
  · rintro ⟨small,root⟩
    exact ⟨⟨by omega,by omega⟩,by rwa [pointInverse small] at root⟩
  · rintro ⟨small,root⟩
    exact ⟨by omega,by rwa [pointInverse (by omega)]⟩

theorem rootsCount (p : GF256[X]) (A : ℕ → Prop) [DecidablePred A] :
    ((roots p 255).filter (fun i => A i)).length = ((errorLocs p).filter (fun q => A (q + 1))).card := by
  have image : ((roots p 255).filter (fun i => A i)).toFinset = ((errorLocs p).filter (fun q => A (q + 1))).image (· + 1) := by
    ext i
    simp only [List.mem_toFinset,List.mem_filter,decide_eq_true_iff,mem_image,mem_filter]
    constructor
    · rintro ⟨member,holds⟩
      have positive := (memRoots.mp member).1.1
      have back : i - 1 + 1 = i := by omega
      exact ⟨i - 1,⟨memErrorLocs.mpr (by rwa [back]),by rwa [back]⟩,back⟩
    · rintro ⟨q,⟨member,holds⟩,rfl⟩
      exact ⟨memErrorLocs.mp member,holds⟩
  rw [← List.toFinset_card_of_nodup (List.Nodup.filter _ (rootsNodup p 255)),image,card_image_of_injective _ (add_left_injective 1)]

theorem rootsLength (p : GF256[X]) : (roots p 255).length = (errorLocs p).card := by simpa using rootsCount p (fun _ => True)

include one in
theorem fullLocator (full : (errorLocs (cellPoly l)).card = ReedSolomon.degree l 10) :
    cellPoly l = ErrorLocator.locator (errorLocs (cellPoly l)) point := by
  refine ErrorLocator.locatorOfRoots (pointInjOn (errorLocsInside _)) (fun q _ => pointNeZero q) ?_ ?_ ?_
  · rw [full]
    exact cellPolyDegree l
  · rw [cellPolyCoeff,if_pos (by omega),one]
  · exact fun q member => (mem_filter.mp member).2

noncomputable def forney (syn l : List U8) (q : ℕ) : GF256 :=
  -(point q * (cellPoly (omegaList syn l)).eval (point q)⁻¹) / (derivative (cellPoly l)).eval (point q)⁻¹

def omegaOf (syn l : List U8) : ℕ × List ℕ := mRsDecoder.computeOmega syn (l.map (fun a => gf256.poly2power a)) (ReedSolomon.degree l 10)

def lambdaOf (l : List U8) : ℕ × List ℕ := (ReedSolomon.degree l 10, l.map (fun a => gf256.poly2power a))

include length one in
theorem denNeZero (full : (errorLocs (cellPoly l)).card = ReedSolomon.degree l 10)
    (member : q ∈ errorLocs (cellPoly l)) : mRsDecoder.den (lambdaOf l) (q + 1) ≠ 0#8 := by
  intro zero
  have small := mem_range.mp (errorLocsInside _ member)
  have value := denValue length (q + 1)
  rw [lambdaOf] at zero
  rw [zero,ofByteZero,← pointInverse small] at value
  have nonzero := ErrorLocator.derivativeNeZero (pointInjOn (errorLocsInside (cellPoly l))) member (pointNeZero q)
  rw [← fullLocator one full] at nonzero
  exact nonzero value.symm

theorem num2Point (small : q < 255) : ofByte (mRsDecoder.num2 (q + 1)) = point q := by
  have product := num2Value (q + 1)
  rw [← pointInverse small] at product
  exact (mul_inv_eq_one₀ (pointNeZero q)).mp product

theorem num1Point (syn l : List U8) (small : q < 255) :
    ofByte (mRsDecoder.num1 (omegaOf syn l) (q + 1)) = (cellPoly (omegaList syn l)).eval (point q)⁻¹ := by
  rw [pointInverse small]
  exact num1Value syn l (q + 1)

include length one in
theorem num1Zero (full : (errorLocs (cellPoly l)).card = ReedSolomon.degree l 10) (member : q ∈ errorLocs (cellPoly l)) :
    mRsDecoder.num1 (omegaOf syn l) (q + 1) = 0#8 ↔ forney syn l q = 0 := by
  have small := mem_range.mp (errorLocsInside _ member)
  have den : (derivative (cellPoly l)).eval (point q)⁻¹ ≠ 0 := by
    rw [pointInverse small,← denValue length (q + 1)]
    exact denNeZero length one full member
  rw [← ofByteEqZero,num1Point syn l small,forney,div_eq_zero_iff,or_iff_left den,neg_eq_zero,mul_eq_zero,
    or_iff_right (pointNeZero q)]

include length one in
theorem correctionForney (full : (errorLocs (cellPoly l)).card = ReedSolomon.degree l 10)
    (member : q ∈ errorLocs (cellPoly l)) (nonzero : mRsDecoder.num1 (omegaOf syn l) (q + 1) ≠ 0#8) :
    ofByte (mRsDecoder.correction (mRsDecoder.num1 (omegaOf syn l) (q + 1)) (mRsDecoder.num2 (q + 1))
      (mRsDecoder.den (lambdaOf l) (q + 1))) = forney syn l q := by
  have small := mem_range.mp (errorLocsInside _ member)
  have inverse : mRsDecoder.num2 (q + 1) ≠ 0#8 := by
    intro zero
    have value := num2Point small
    rw [zero,ofByteZero] at value
    exact pointNeZero q value.symm
  have den : ofByte (mRsDecoder.den (lambdaOf l) (q + 1)) = (derivative (cellPoly l)).eval (point q)⁻¹ := by
    rw [pointInverse small]
    exact denValue length (q + 1)
  rw [correctionValue nonzero inverse (denNeZero length one full member),num1Point syn l small,num2Point small,den,
    forney,CharTwo.neg_eq,mul_comm]

end Search

theorem applyErrorsRun (lambda omega : ℕ × List ℕ) {is : List ℕ} (nodup : is.Nodup)
    (located : ∀ i ∈ is, 1 ≤ i ∧ i ≤ 255 ∧ mRsDecoder.den lambda i ≠ 0#8) (count : ℤ) (data : List U8) (length : data.length = 255) :
    let out := mRsDecoder.applyErrors lambda omega (is.map (fun i => (i, i - 1))) count data
    out.1 = count - (is.filter (fun i => mRsDecoder.num1 omega i ≠ 0#8 ∧ 245 ≤ i - 1)).length ∧ out.2.length = 255 ∧
      ∀ q < 255, out.2.getD q 0#8 = if q + 1 ∈ is ∧ q < 245 ∧ mRsDecoder.num1 omega (q + 1) ≠ 0#8 then
        addPoly (data.getD q 0#8) (mRsDecoder.correction (mRsDecoder.num1 omega (q + 1)) (mRsDecoder.num2 (q + 1))
          (mRsDecoder.den lambda (q + 1))) else data.getD q 0#8 := by
  induction is generalizing count data with
  | nil => simp [applyErrors,length]
  | cons i is ih =>
    obtain ⟨fresh,distinct⟩ := List.nodup_cons.mp nodup
    obtain ⟨positive,small,nonzero⟩ := located i List.mem_cons_self
    have rest := fun j (member : j ∈ is) => located j (List.mem_cons_of_mem i member)
    obtain ⟨p,rfl⟩ : ∃ p, i = p + 1 := ⟨i - 1,by omega⟩
    have skipped : ¬ (p < 245 ∧ mRsDecoder.num1 omega (p + 1) ≠ 0#8) → ∀ q,
        ((q + 1 ∈ (p + 1) :: is ∧ q < 245 ∧ mRsDecoder.num1 omega (q + 1) ≠ 0#8) ↔
          (q + 1 ∈ is ∧ q < 245 ∧ mRsDecoder.num1 omega (q + 1) ≠ 0#8)) := by
      intro idle q
      rw [List.mem_cons]
      refine and_congr_left fun active => or_iff_right fun same => ?_
      obtain rfl : q = p := by omega
      exact idle active
    rw [List.map_cons,applyErrors,if_neg nonzero,codeLengthValue,nrootsValue]
    simp only [Nat.add_sub_cancel]
    by_cases silent : mRsDecoder.num1 omega (p + 1) = 0#8
    · rw [if_pos silent]
      obtain ⟨counted,kept,bytes⟩ := ih distinct rest count data length
      refine ⟨by rw [counted]; simp [silent],kept,fun q less => ?_⟩
      rw [bytes q less]
      simp only [skipped (fun active => active.2 silent)]
    · rw [if_neg silent]
      by_cases parity : p ≥ 255 - 10
      · rw [if_pos parity]
        obtain ⟨counted,kept,bytes⟩ := ih distinct rest (count - 1) data length
        refine ⟨?_,kept,fun q less => ?_⟩
        · have here : mRsDecoder.num1 omega (p + 1) ≠ 0#8 ∧ 245 ≤ p + 1 - 1 := ⟨silent,parity⟩
          rw [counted,List.filter_cons_of_pos (by simpa using here),List.length_cons]
          push_cast
          ring
        · rw [bytes q less]
          simp only [skipped (fun active => by omega)]
      · rw [if_neg parity]
        have inside : p < 245 := by omega
        obtain ⟨counted,kept,bytes⟩ := ih distinct rest count (data.set p _)
          ((List.length_set ..).trans length)
        refine ⟨?_,kept,fun q less => ?_⟩
        · rw [counted,List.filter_cons_of_neg (by simp; omega)]
        · rw [bytes q less]
          by_cases here : q = p
          · subst here
            rw [if_neg (fun h => fresh h.1),if_pos ⟨List.mem_cons_self,inside,silent⟩,getDSetSelf _ (by omega)]
          · have apart : q + 1 ∈ (p + 1) :: is ↔ q + 1 ∈ is := by rw [List.mem_cons,or_iff_right (by omega)]
            rw [getDSetNe _ (Ne.symm here)]
            simp only [apart]

def lambdaList (syn : List U8) : List U8 := mRsDecoder.updateLambda (mRsDecoder.massey syn)

section
variable (syn : List U8)

theorem lambdaListLength : (lambdaList syn).length = 10 := by rw [lambdaList,updateLambda,List.length_map,List.length_range,nrootsValue]

theorem lambdaListOne : ofByte ((lambdaList syn).getD 0 0#8) = 1 := by rw [lambdaList,lambdaCells syn 0 (by omega),runConstant]

theorem computeLambdaOf : mRsDecoder.computeLambda syn = lambdaOf (lambdaList syn) := rfl

/- What decodeRs returns when the search finds as many positions as the locator's
degree: R are the positions and y the values removed from them. -/
structure Corrected (w : List U8) (R : Finset ℕ) (y : ℕ → GF256) (out : ℤ × List U8) : Prop where
  inside : R ⊆ range 255
  count : out.1 = R.card - ((R.filter (fun q => y q ≠ 0 ∧ 245 ≤ q)).card : ℤ)
  length : out.2.length = 255
  bytes : ∀ q < 255, byteAt out.2 q = byteAt w q + if q ∈ R ∧ q < 245 then y q else 0

theorem foundCorrected {w : List U8} {l : List U8} (length : w.length = 255) (size : l.length = 10)
    (one : ofByte (l.getD 0 0#8) = 1) (full : (errorLocs (cellPoly l)).card = ReedSolomon.degree l 10) :
    Corrected w (errorLocs (cellPoly l)) (forney syn l) (mRsDecoder.applyErrors (lambdaOf l) (omegaOf syn l)
      ((roots (cellPoly l) 255).map (fun i => (i, i - 1))).reverse (errorLocs (cellPoly l)).card w) := by
  rw [← List.map_reverse]
  have located : ∀ i ∈ (roots (cellPoly l) 255).reverse, 1 ≤ i ∧ i ≤ 255 ∧ mRsDecoder.den (lambdaOf l) i ≠ 0#8 := by
    intro i member
    have member := List.mem_reverse.mp member
    obtain ⟨⟨positive,small⟩,-⟩ := memRoots.mp member
    obtain ⟨q,rfl⟩ : ∃ q, i = q + 1 := ⟨i - 1,by omega⟩
    exact ⟨positive,small,denNeZero size one full (memErrorLocs.mpr member)⟩
  obtain ⟨count,kept,bytes⟩ := applyErrorsRun (lambdaOf l) (omegaOf syn l)
    (List.nodup_reverse.mpr (rootsNodup (cellPoly l) 255)) located (errorLocs (cellPoly l)).card w length
  refine ⟨errorLocsInside _,?_,kept,fun q less => ?_⟩
  · have parity : (errorLocs (cellPoly l)).filter (fun q => mRsDecoder.num1 (omegaOf syn l) (q + 1) ≠ 0#8 ∧
        245 ≤ q + 1 - 1) = (errorLocs (cellPoly l)).filter (fun q => forney syn l q ≠ 0 ∧ 245 ≤ q) := by
      refine filter_congr fun q member => ?_
      rw [Nat.add_sub_cancel,ne_eq,ne_eq,num1Zero size one full member]
    rw [count,List.filter_reverse,List.length_reverse,rootsCount (cellPoly l)
      (fun i => mRsDecoder.num1 (omegaOf syn l) i ≠ 0#8 ∧ 245 ≤ i - 1),parity]
  · rw [byteAt,bytes q less]
    simp only [List.mem_reverse,← memErrorLocs]
    by_cases member : q ∈ errorLocs (cellPoly l)
    · by_cases silent : mRsDecoder.num1 (omegaOf syn l) (q + 1) = 0#8
      · rw [if_neg (fun h => h.2.2 silent),(num1Zero size one full member).mp silent,ite_self,add_zero,byteAt]
      · by_cases data : q < 245
        · rw [if_pos ⟨member,data,silent⟩,if_pos ⟨member,data⟩,ofByteAdd,correctionForney size one full member silent,byteAt]
        · rw [if_neg (fun h => data h.2.1),if_neg (fun h => data h.2),add_zero,byteAt]
    · rw [if_neg (fun h => member h.1),if_neg (fun h => member h.1),add_zero,byteAt]

end

theorem decodeRsFaulty {w : List U8} (faulty : (mRsDecoder.computeSyndromes w).2 = false) {syn l : List U8}
    (received : syn = (mRsDecoder.computeSyndromes w).1) (computed : l = lambdaList syn) :
    mRsDecoder.decodeRs w = if (errorLocs (cellPoly l)).card ≠ ReedSolomon.degree l 10 then (-1, w)
      else mRsDecoder.applyErrors (lambdaOf l) (omegaOf syn l)
        ((roots (cellPoly l) 255).map (fun i => (i, i - 1))).reverse (errorLocs (cellPoly l)).card w := by
  have search : mRsDecoder.computeErrors (lambdaOf l).2 (lambdaOf l).1 = _ :=
    computeErrorsRoots (computed ▸ lambdaListLength syn) (computed ▸ lambdaListOne syn)
  rw [rootsLength] at search
  rw [decodeRs,if_neg (by rw [faulty]; simp),computeLambdaOf,← received,← computed]
  dsimp only
  rw [search]
  by_cases full : (errorLocs (cellPoly l)).card = ReedSolomon.degree l 10
  · rw [if_neg (not_not_intro full),if_neg (not_not_intro full)]
    dsimp only
    rw [List.length_map,rootsLength]
    rfl
  · rw [if_pos full,if_pos full]

section Near

variable {w c : List U8} (length : w.length = 255) (code : Codeword c)

theorem memWrong {a b : List U8} {n q : ℕ} : q ∈ wrong a b n ↔ q < n ∧ byteAt a q ≠ byteAt b q := by
  rw [wrong,mem_filter,mem_range]
  rfl

theorem wrongInside (a b : List U8) : wrong a b 255 ⊆ range 255 := filter_subset _ _

include length code

theorem nearSyndromes : syndromePoly (mRsDecoder.computeSyndromes w).1 = ErrorLocator.syndromes 10
    (ErrorLocator.powerSum (wrong w c 255) point (fun q => byteAt w q - byteAt c q)) := by
  ext k
  rw [syndromePoly,ErrorLocator.syndromesCoeff,ErrorLocator.syndromesCoeff]
  split
  · rename_i small
    have same : ∀ q ∈ range 255, q ∉ wrong w c 255 → byteAt w q = byteAt c q := by
      intro q member outside
      by_contra different
      exact outside (memWrong.mpr ⟨mem_range.mp member,different⟩)
    rw [syndromesValue length small,errorSum length code (wrongInside w c) same small]
  · rfl

variable (few : (wrong w c 255).card ≤ 5)
include few

theorem nearLocator : cellPoly (lambdaList (mRsDecoder.computeSyndromes w).1) = ErrorLocator.locator (wrong w c 255) point := by
  obtain ⟨evaluator,cofactor,solved⟩ := KeyEquation.runSolved (syndromePoly (mRsDecoder.computeSyndromes w).1) 10
  have candidate := ErrorLocator.candidate 10 (wrong w c 255) point (fun q => byteAt w q - byteAt c q)
  have coprime := ErrorLocator.candidateCoprime (pointInjOn (wrongInside w c)) (fun q _ => pointNeZero q)
    (y := fun q => byteAt w q - byteAt c q) (fun q member => sub_ne_zero.mpr (memWrong.mp member).2)
  rw [← nearSyndromes length code] at candidate
  obtain ⟨unique,-⟩ := KeyEquation.runUnique candidate coprime (by omega) solved
  ext i
  rw [cellPolyCoeff,← unique]
  split
  · rename_i small
    exact lambdaCells _ i small
  · rename_i large
    have degree := candidate.locatorDegree
    rw [mem_degreeLT,degree_lt_iff_coeff_zero,← unique] at degree
    exact (degree i (by omega)).symm

omit length code few in
theorem locatorLocs {R : Finset ℕ} (inside : R ⊆ range 255) : errorLocs (ErrorLocator.locator R point) = R := by
  ext q
  rw [errorLocs,mem_filter,ErrorLocator.locatorRootIff]
  constructor
  · rintro ⟨small,m,member,unit⟩
    have same : point m = point q := (mul_inv_eq_one₀ (pointNeZero q)).mp unit
    rwa [← pointInjOn (Subset.refl (range 255)) (inside member) small same]
  · exact fun member => ⟨inside member,q,member,mul_inv_cancel₀ (pointNeZero q)⟩

omit length code few in
theorem locatorCells {l : List U8} {R : Finset ℕ} (inside : R ⊆ range 255)
    (poly : cellPoly l = ErrorLocator.locator R point) : ReedSolomon.degree l 10 = R.card := by
  have top := ErrorLocator.locatorDegree R point
  rw [mem_degreeLT,degree_lt_iff_coeff_zero,← poly] at top
  refine Nat.le_antisymm ?_ ?_
  · by_contra above
    obtain ⟨small,nonzero⟩ := (degreeSpec l 10).2 (by omega)
    have zero := top (ReedSolomon.degree l 10) (by omega)
    rw [cellPolyCoeff,if_pos small,ofByteEqZero] at zero
    exact nonzero zero
  · by_contra below
    -- fewer coefficients than roots
    have vanish : cellPoly l = 0 := by
      refine ErrorLocator.eqOfInverseLocators (pointInjOn inside) (degreeLT_mono (by omega) (cellPolyDegree l))
        (Submodule.zero_mem _) fun q member => ?_
      rw [poly,eval_zero]
      exact (ErrorLocator.locatorRootIff _).mpr ⟨q,member,mul_inv_cancel₀ (pointNeZero q)⟩
    have constant := ErrorLocator.locatorConstant R point
    rw [← poly,vanish,coeff_zero] at constant
    exact zero_ne_one constant

theorem nearOmega : cellPoly (omegaList (mRsDecoder.computeSyndromes w).1 (lambdaList (mRsDecoder.computeSyndromes w).1)) =
      ErrorLocator.evaluator (wrong w c 255) point (fun q => byteAt w q - byteAt c q) := by
  have key := ErrorLocator.locatorKey 10 (wrong w c 255) point (fun q => byteAt w q - byteAt c q)
  rw [← nearSyndromes length code,← nearLocator length code few] at key
  have key' := omegaKey (mRsDecoder.computeSyndromes w).1
    (lambdaListLength (mRsDecoder.computeSyndromes w).1)
  refine sub_eq_zero.mp (KeyEquation.eqZeroOfDvd (n := 10) (Submodule.sub_mem _ ?_ ?_) ?_)
  · exact degreeLT_mono (degreeLtTen _) (cellPolyDegree _)
  · exact degreeLT_mono (by omega) (ErrorLocator.evaluatorDegree _ _ _)
  · convert dvd_sub key key' using 1
    ring

theorem nearOmegaDegree (faulty : ¬ Codeword w) : ReedSolomon.degree (omegaList (mRsDecoder.computeSyndromes w).1
    (lambdaList (mRsDecoder.computeSyndromes w).1)) 10 < (wrong w c 255).card := by
  have top := ErrorLocator.evaluatorDegree (wrong w c 255) point (fun q => byteAt w q - byteAt c q)
  rw [← nearOmega length code few,mem_degreeLT,degree_lt_iff_coeff_zero] at top
  by_contra large
  by_cases positive : 0 < ReedSolomon.degree (omegaList (mRsDecoder.computeSyndromes w).1
    (lambdaList (mRsDecoder.computeSyndromes w).1)) 10
  · obtain ⟨small,nonzero⟩ := (degreeSpec _ 10).2 positive
    have zero := top _ (Nat.not_lt.mp large)
    rw [cellPolyCoeff,if_pos small,ofByteEqZero] at zero
    exact nonzero zero
  · have none := card_eq_zero.mp (by omega : (wrong w c 255).card = 0)
    have same : w = c := by
      refine wordEq length code.length fun q less => ?_
      by_contra different
      have member := memWrong.mpr ⟨less,different⟩
      rw [none] at member
      exact notMem_empty q member
    rw [same] at faulty
    exact faulty code

theorem nearForney {q : ℕ} (member : q ∈ wrong w c 255) : forney (mRsDecoder.computeSyndromes w).1
    (lambdaList (mRsDecoder.computeSyndromes w).1) q = byteAt w q - byteAt c q := by
  rw [forney,nearOmega length code few,nearLocator length code few]
  exact (ErrorLocator.forney (pointInjOn (wrongInside w c)) member (pointNeZero q)).symm

theorem cleanNear (clean : Codeword w) : wrong w c 255 = ∅ := by
  have zero := ErrorLocator.valuesOfPowerSums (pointInjOn (wrongInside w c)) (fun q _ => pointNeZero q) (n := 10)
    (by omega) (y := fun q => byteAt w q - byteAt c q) (fun k small => by
      have sums := nearSyndromes length code
      have coefficient := congrArg (fun p => p.coeff k) sums
      simp only [syndromePolyCoeff _ small,ErrorLocator.syndromesCoeff,if_pos small,
        syndromesValue length small,clean.roots k small] at coefficient
      exact coefficient.symm)
  refine eq_empty_of_forall_notMem fun q member => (memWrong.mp member).2 ?_
  exact sub_eq_zero.mp (zero q member)

theorem nearCorrected : Corrected w (wrong w c 255) (fun q => byteAt w q - byteAt c q) (mRsDecoder.decodeRs w) := by
  by_cases clean : Codeword w
  · rw [cleanNear length code few clean,decodeRs,if_pos ((noSyndromes length).mpr clean)]
    exact ⟨empty_subset _,by simp,length,fun q _ => by simp⟩
  · have faulty : (mRsDecoder.computeSyndromes w).2 = false := by
      rw [Bool.eq_false_iff,ne_eq,noSyndromes length]
      exact clean
    have poly := nearLocator length code few
    have locs := locatorLocs (wrongInside w c)
    rw [← poly] at locs
    have full : (errorLocs (cellPoly (lambdaList (mRsDecoder.computeSyndromes w).1))).card =
        ReedSolomon.degree (lambdaList (mRsDecoder.computeSyndromes w).1) 10 := by
      rw [locs,locatorCells (wrongInside w c) poly]
    have found := foundCorrected (mRsDecoder.computeSyndromes w).1 length (lambdaListLength _)
      (lambdaListOne _) full
    have decoded := decodeRsFaulty faulty rfl rfl
    rw [if_neg (not_not_intro full)] at decoded
    rw [← decoded,locs] at found
    have values : ∀ q ∈ wrong w c 255, forney (mRsDecoder.computeSyndromes w).1
        (lambdaList (mRsDecoder.computeSyndromes w).1) q = byteAt w q - byteAt c q :=
      fun q member => nearForney length code few member
    refine ⟨found.inside,?_,found.length,fun q less => ?_⟩
    · rw [found.count,filter_congr fun q member => by rw [values q member]]
    · rw [found.bytes q less]
      split
      · rename_i located
        rw [values q located.1]
      · rfl

end Near

end DabStar.RsCorrection
