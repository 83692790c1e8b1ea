import DabStar.Lib.ErrorLocator
import DabStar.RsCode

/-! The decoder's loops against the polynomials they compute. Syndromes are values of the
received word at the roots of the code; the Massey cells are the first ten coefficients of
the general algorithm. -/
namespace DabStar.RsLocator
open GF256 ReedSolomon RsCode Polynomial Finset
open List hiding range mem_range map_cons map_map mem_map sum_cons sum_range_succ sum_range_succ'
open Galois (addPoly)
variable {l : List U8} {τ : Type*} {i : ℕ} {p : GF256[X]} {e : ℕ} {a : GF256}

theorem foldSum (f : U8 → τ → U8) (g : τ → GF256) (l : List τ) (term : ∀ acc, ∀ t ∈ l, ofByte (f acc t) = ofByte acc + g t) (a : U8) :
    ofByte (l.foldl f a) = ofByte a + (l.map g).sum := by
  induction l generalizing a with
  | nil => simp
  | cons t l ih =>
    have rest := ih (fun acc u member => term acc u (mem_cons_of_mem t member))
    rw [foldl_cons,rest,term a t mem_cons_self,List.map_cons,List.sum_cons,add_assoc]

theorem sumRange (n : ℕ) (g : ℕ → GF256) : ((List.range n).map g).sum = ∑ i ∈ range n, g i := rfl

theorem sumDown (n : ℕ) (g : ℕ → GF256) : (((List.range (n + 1)).map (fun k => n - k)).map g).sum = ∑ i ∈ range (n + 1), g i := by
  rw [List.map_map,sumRange]
  exact sum_range_reflect g (n + 1)

theorem getDMapRange (n : ℕ) (f : ℕ → τ) (d : τ) (small : i < n) : ((List.range n).map f).getD i d = f i := by
  rw [getD_eq_getElem _ _ (by simpa using small)]
  simp

theorem getDSetNe (l : List τ) {i j : ℕ} (apart : i ≠ j) (x d : τ) : (l.set i x).getD j d = l.getD j d := by
  rw [getD_eq_getElem?_getD,getElem?_set_ne apart,← getD_eq_getElem?_getD]

theorem getDSetSelf (l : List τ) (inside : i < l.length) (x d : τ) : (l.set i x).getD i d = x := by
  rw [getD_eq_getElem?_getD,getElem?_set_self inside,Option.getD_some]

theorem syndromeStepValue (data : List U8) {root : ℕ} (small : root < 10) (syn : U8) (j : ℕ) :
    ofByte (mRsDecoder.syndromeStep data root syn j) = ofByte syn * alpha ^ root + ofByte (data.getD j 0#8) := by
  simp only [syndromeStep,myGaloisValue,fcrValue,primValue]
  split
  · rename_i zero
    rw [zero,ofByteZero,zero_mul,zero_add]
  · rename_i nonzero
    have exponent : gf256.powPower (gf256.multiplyPower 0 root) 1 = root := by
      rw [multiplyPowerMod,Galois.powPower,gf256DQ]
      split <;> omega
    rw [exponent,ofByteAdd,ofByteMultiplyPower,pow_add,alphaPowLog nonzero,add_comm]

theorem getSyndromeHorner {data : List U8} (length : data.length = 255) {root : ℕ} (small : root < 10) :
    ofByte (mRsDecoder.getSyndrome data root) = horner (alpha ^ root) data := by
  have read : ∀ n < 255, ofByte ((range' 1 n).foldl (fun syn j => mRsDecoder.syndromeStep data root syn j)
      (data.getD 0 0#8)) = horner (alpha ^ root) (data.take (n + 1)) := by
    intro n bound
    have next : ∀ m < 255, data.take (m + 1) = data.take m ++ [data.getD m 0#8] := by
      intro m less
      rw [take_succ_eq_append_getElem (by omega),getD_eq_getElem _ _ (by omega)]
    induction n with
    | zero => rw [next 0 (by omega),hornerSnoc]; simp
    | succ n ih =>
      rw [range'_1_concat,foldl_append,foldl_cons,foldl_nil,syndromeStepValue data small,
        ih (by omega),next (n + 1) (by omega),hornerSnoc,Nat.add_comm 1 n]
  have whole := read 254 (by omega)
  rwa [take_of_length_le (by omega)] at whole

def Cells (l : List U8) (p : GF256[X]) : Prop := ∀ i < 10, ofByte (l.getD i 0#8) = p.coeff i

noncomputable def syndromePoly (syn : List U8) : GF256[X] := ErrorLocator.syndromes 10 (fun k => ofByte (syn.getD k 0#8))

structure Tracks (syn : List U8) (n : ℕ) (s : Massey) : Prop where
  length : s.L = (KeyEquation.run (syndromePoly syn) n).length
  lambda : Cells s.lambda (KeyEquation.run (syndromePoly syn) n).locator
  corrector : Cells s.corrector (KeyEquation.run (syndromePoly syn) n).corrector
  error : ofByte s.error = KeyEquation.discrepancy (syndromePoly syn) (KeyEquation.run (syndromePoly syn) n) n

variable (syn : List U8)

theorem syndromePolyCoeff {k : ℕ} (small : k < 10) : (syndromePoly syn).coeff k = ofByte (syn.getD k 0#8) := by
  rw [syndromePoly,ErrorLocator.syndromesCoeff,if_pos small]

theorem productCoeff (p : GF256[X]) {K : ℕ} (small : K < 10) :
    (p * syndromePoly syn).coeff K = ∑ i ∈ range (K + 1), p.coeff i * ofByte (syn.getD (K - i) 0#8) := by
  rw [coeff_mul,Nat.sum_antidiagonal_eq_sum_range_succ (fun i j => p.coeff i * (syndromePoly syn).coeff j)]
  refine sum_congr rfl fun i _ => ?_
  rw [syndromePolyCoeff syn (by omega)]

theorem updateLambdaCells {s : Massey} {p q : GF256[X]} (lambda : Cells s.lambda p) (corrector : Cells s.corrector q) :
    Cells (mRsDecoder.updateLambda s) (p - C (ofByte s.error) * q) := by
  intro i small
  simp only [updateLambda,nrootsValue,myGaloisValue]
  rw [getDMapRange _ _ _ small,ofByteAdd,ofByteMul,lambda i small,corrector i small,coeff_sub,coeff_C_mul,CharTwo.sub_eq_add]

theorem discrepancyValue {syn lambda : List U8} (cells : Cells lambda p) (constant : p.coeff 0 = 1) {K : ℕ} (small : K < 10) :
    ofByte (mRsDecoder.discrepancy syn lambda K) = (p * syndromePoly syn).coeff K := by
  have term : ∀ acc, ∀ i ∈ range' 1 K, ofByte (addPoly acc (gf256.multiplyPoly (syn.getD (K - i) 0#8) (lambda.getD i 0#8))) =
        ofByte acc + p.coeff i * ofByte (syn.getD (K - i) 0#8) := by
    intro acc i member
    have range := mem_range'_1.mp member
    rw [ofByteAdd,ofByteMul,cells i (by omega),mul_comm]
  rw [discrepancy,myGaloisValue,foldSum _ _ _ term,productCoeff syn p small,sum_range_succ',constant,
    one_mul,Nat.sub_zero,add_comm,range'_eq_map_range,List.map_map,sumRange]
  congr 1
  refine sum_congr rfl fun i _ => ?_
  simp [Nat.add_comm]

theorem shiftCells (cells : Cells l p) : Cells (0#8 :: l.take 9) (X * p) := by
  intro i small
  cases i with
  | zero => simp
  | succ i =>
    rw [getD_cons_succ,coeff_X_mul,← cells i (by omega),getD_eq_getElem?_getD,getElem?_take,
      if_pos (by omega),← getD_eq_getElem?_getD]

theorem divideCells (cells : Cells l p) {error : U8} (nonzero : error ≠ 0#8) :
    Cells ((List.range 10).map (fun i => gf256.dividePoly (l.getD i 0#8) error)) (C (ofByte error)⁻¹ * p) := by
  intro i small
  rw [getDMapRange _ _ _ small,ofByteDivide _ nonzero,cells i small,coeff_C_mul,div_eq_inv_mul]

theorem runConstant (S : GF256[X]) (n : ℕ) : (KeyEquation.run S n).locator.coeff 0 = 1 := by
  obtain ⟨_,_,solved⟩ := KeyEquation.runSolved S n
  exact solved.constant

theorem runLocatorSucc (S : GF256[X]) (n : ℕ) : (KeyEquation.run S (n + 1)).locator = (KeyEquation.run S n).locator -
      C (KeyEquation.discrepancy S (KeyEquation.run S n) n) * (KeyEquation.run S n).corrector := by
  rw [KeyEquation.runSucc,KeyEquation.step]
  split <;> rfl

theorem masseyStartTracks : Tracks syn 0 (mRsDecoder.masseyStart syn) where
  length := rfl
  lambda := by
    intro i small
    have one : (KeyEquation.run (syndromePoly syn) 0).locator = 1 := rfl
    rw [one,coeff_one]
    interval_cases i <;> simp [masseyStart,nrootsValue]
  corrector := by
    intro i small
    have shift : (KeyEquation.run (syndromePoly syn) 0).corrector = X := rfl
    rw [shift,coeff_X]
    interval_cases i <;> simp [masseyStart,nrootsValue]
  error := by
    have one : (KeyEquation.run (syndromePoly syn) 0).locator = 1 := rfl
    rw [KeyEquation.discrepancy,one,one_mul,syndromePolyCoeff syn (by omega)]
    rfl

theorem masseyStepTracks {syn : List U8} {n : ℕ} {s : Massey} (small : n + 1 < 10) (tracks : Tracks syn n s) :
    Tracks syn (n + 1) (mRsDecoder.masseyStep syn s (n + 1)) := by
  have lambda : Cells (mRsDecoder.updateLambda s) (KeyEquation.run (syndromePoly syn) (n + 1)).locator := by
    rw [runLocatorSucc,← tracks.error]
    exact updateLambdaCells tracks.lambda tracks.corrector
  have grown : (2 * s.L < n + 1 ∧ s.error ≠ 0#8) ↔ 2 * (KeyEquation.run (syndromePoly syn) n).length ≤ n ∧
        KeyEquation.discrepancy (syndromePoly syn) (KeyEquation.run (syndromePoly syn) n) n ≠ 0 := by
    rw [tracks.length,← tracks.error,Nat.lt_succ_iff,ne_eq,ne_eq,ofByteEqZero]
  refine ⟨?_,lambda,?_,discrepancyValue lambda (runConstant _ _) small⟩
  · simp only [KeyEquation.runSucc,KeyEquation.step,masseyStep,grown]
    split
    · rw [tracks.length]
    · exact tracks.length
  · simp only [KeyEquation.runSucc,KeyEquation.step,masseyStep,grown,nrootsValue,myGaloisValue]
    split
    · rename_i grow
      have nonzero : s.error ≠ 0#8 := (grown.mpr grow).2
      rw [← tracks.error]
      exact shiftCells (divideCells tracks.lambda nonzero)
    · exact shiftCells tracks.corrector

theorem masseyTracks : Tracks syn 9 (mRsDecoder.massey syn) := by
  have run : ∀ n < 10, Tracks syn n ((range' 1 n).foldl (fun s K => mRsDecoder.masseyStep syn s K)
      (mRsDecoder.masseyStart syn)) := by
    intro n small
    induction n with
    | zero => exact masseyStartTracks syn
    | succ n ih =>
      rw [range'_1_concat,foldl_append,foldl_cons,foldl_nil,Nat.add_comm 1 n]
      exact masseyStepTracks small (ih (by omega))
  exact run 9 (by omega)

theorem lambdaCells : Cells (mRsDecoder.updateLambda (mRsDecoder.massey syn)) (KeyEquation.run (syndromePoly syn) 10).locator := by
  have tracks := masseyTracks syn
  rw [runLocatorSucc,← tracks.error]
  exact updateLambdaCells tracks.lambda tracks.corrector

noncomputable def cellPoly (l : List U8) : GF256[X] := ∑ i ∈ range 10, C (ofByte (l.getD i 0#8)) * X ^ i

section
variable (l : List U8)

theorem cellPolyCoeff (k : ℕ) : (cellPoly l).coeff k = if k < 10 then ofByte (l.getD k 0#8) else 0 := by simp [cellPoly,coeff_X_pow]

theorem degreeSpec (n : ℕ) : (∀ i < n, degree l n < i → l.getD i 0#8 = 0#8) ∧
    (0 < degree l n → degree l n < n ∧ l.getD (degree l n) 0#8 ≠ 0#8) := by
  induction n with
  | zero => simp [ReedSolomon.degree]
  | succ n ih =>
    have next : degree l (n + 1) = if l.getD n 0#8 ≠ 0#8 then n else degree l n := by simp [ReedSolomon.degree,range_succ]
    rw [next]
    split
    · rename_i nonzero
      exact ⟨fun i less above => by omega,fun _ => ⟨by omega,nonzero⟩⟩
    · rename_i zero
      refine ⟨fun i less above => ?_,fun positive => ?_⟩
      · obtain rfl | before : i = n ∨ i < n := by omega
        · exact of_not_not zero
        · exact ih.1 i before above
      · exact ⟨by have := (ih.2 positive).1; omega,(ih.2 positive).2⟩

theorem degreeLtTen : degree l 10 < 10 := by
  by_cases positive : 0 < degree l 10
  · exact ((degreeSpec l 10).2 positive).1
  · omega

theorem cellPolyDegree : cellPoly l ∈ degreeLT GF256 (degree l 10 + 1) := by
  rw [mem_degreeLT,degree_lt_iff_coeff_zero]
  intro i large
  rw [cellPolyCoeff]
  split
  · rename_i small
    rw [(degreeSpec l 10).1 i small (by omega),ofByteZero]
  · rfl

theorem cellPolyEval (x : GF256) : (cellPoly l).eval x = ∑ i ∈ range (degree l 10 + 1), ofByte (l.getD i 0#8) * x ^ i := by
  have natDegree : (cellPoly l).natDegree < degree l 10 + 1 := by
    by_cases zero : cellPoly l = 0
    · rw [zero,natDegree_zero]; omega
    · exact (natDegree_lt_iff_degree_lt zero).mpr (mem_degreeLT.mp (cellPolyDegree l))
  rw [eval_eq_sum_range' natDegree]
  refine sum_congr rfl fun i member => ?_
  have bound := degreeLtTen l
  have small := mem_range.mp member
  rw [cellPolyCoeff,if_pos (by omega)]

end

def Log (e : ℕ) (a : GF256) : Prop := (e = 255 ∧ a = 0) ∨ (e < 255 ∧ alpha ^ e = a)

theorem logByte (a : U8) : Log (gf256.poly2power a) (ofByte a) := by
  by_cases zero : a = 0#8
  · exact .inl ⟨by rw [zero,poly2powerZero],by rw [zero,ofByteZero]⟩
  · exact .inr ⟨poly2powerLt zero,alphaPowLog zero⟩

theorem logCells (small : i < l.length) : Log ((l.map (fun a => gf256.poly2power a)).getD i 0) (ofByte (l.getD i 0#8)) := by
  have entry : (l.map (fun a => gf256.poly2power a)).getD i 0 = gf256.poly2power (l.getD i 0#8) := by
    rw [getD_eq_getElem _ _ (by simpa using small),getElem_map,getD_eq_getElem _ _ small]
  rw [entry]
  exact logByte _

theorem logZero (log : Log e a) : e = 255 ↔ a = 0 := by
  rcases log with ⟨full,zero⟩ | ⟨small,power⟩
  · exact iff_of_true full zero
  · refine iff_of_false (by omega) ?_
    rw [← power]
    exact pow_ne_zero e alphaNeZero

theorem logPow (log : Log e a) (nonzero : e ≠ 255) : alpha ^ e = a := by
  rcases log with ⟨full,_⟩ | ⟨_,power⟩
  · exact absurd full nonzero
  · exact power

theorem logStep (log : Log e a) (nonzero : e ≠ 255) (j : ℕ) : Log (gf256.multiplyPower e j) (a * alpha ^ j) := by
  refine .inr ⟨?_,?_⟩
  · rw [multiplyPowerMod]; exact Nat.mod_lt _ (by omega)
  · rw [multiplyPowerMod,alphaPowMod,pow_add,logPow log nonzero]

theorem chienInnerFold {js : List ℕ} (nodup : js.Nodup) (a : ℕ → GF256) (work : List ℕ) (acc : U8)
    (bound : ∀ j ∈ js, j < work.length) (logs : ∀ j ∈ js, Log (work.getD j 0) (a j)) :
    let out := js.foldl (fun acc j => mRsDecoder.chienInner acc j) (work, acc)
    out.1.length = work.length ∧ (∀ j ∈ js, Log (out.1.getD j 0) (a j * alpha ^ j)) ∧ (∀ m ∉ js, out.1.getD m 0 = work.getD m 0) ∧
      ofByte out.2 = ofByte acc + (js.map (fun j => a j * alpha ^ j)).sum := by
  induction js generalizing work acc with
  | nil => simp
  | cons j js ih =>
    obtain ⟨fresh,nodup⟩ := nodup_cons.mp nodup
    have log := logs j mem_cons_self
    have less := bound j mem_cons_self
    rw [foldl_cons,chienInner,codeLengthValue,myGaloisValue]
    dsimp only
    split
    · rename_i nonzero
      have rest := ih nodup (work.set j (gf256.multiplyPower (work.getD j 0) j))
        (addPoly acc (gf256.power2poly (gf256.multiplyPower (work.getD j 0) j)))
        (fun m member => by rw [length_set]; exact bound m (mem_cons_of_mem j member))
        (fun m member => by
          rw [getDSetNe _ (ne_of_mem_of_not_mem member fresh).symm]
          exact logs m (mem_cons_of_mem j member))
      obtain ⟨length,inside,outside,sum⟩ := rest
      refine ⟨by rw [length,length_set],fun m member => ?_,fun m other => ?_,?_⟩
      · rcases mem_cons.mp member with rfl | member
        · rw [outside m fresh,getDSetSelf _ less]
          exact logStep log nonzero m
        · exact inside m member
      · obtain ⟨different,absent⟩ := not_or.mp (fun h => other (mem_cons.mpr h))
        rw [outside m absent,getDSetNe _ (Ne.symm different)]
      · rw [sum,ofByteAdd,ofByteMultiplyPower,pow_add,logPow log nonzero,List.map_cons,List.sum_cons,add_assoc]
    · rename_i full
      have zero : a j = 0 := (logZero log).mp (of_not_not full)
      obtain ⟨length,inside,outside,sum⟩ := ih nodup work acc
        (fun m member => bound m (mem_cons_of_mem j member))
        (fun m member => logs m (mem_cons_of_mem j member))
      refine ⟨length,fun m member => ?_,fun m other => ?_,?_⟩
      · rcases mem_cons.mp member with rfl | member
        · rw [outside m fresh,zero,zero_mul,← zero]
          exact log
        · exact inside m member
      · exact outside m (fun member => other (mem_cons_of_mem j member))
      · rw [sum,List.map_cons,List.sum_cons,zero,zero_mul,zero_add]

noncomputable def roots (p : GF256[X]) (n : ℕ) : List ℕ := (range' 1 n).filter (fun i => p.eval (alpha ^ i) = 0)

theorem rootsSucc (p : GF256[X]) (n : ℕ) : roots p (n + 1) = if p.eval (alpha ^ (n + 1)) = 0 then roots p n ++ [n + 1] else roots p n := by
  rw [roots,range'_1_concat,filter_append,← roots,Nat.add_comm 1 n]
  split <;> rename_i root <;> simp [root]

theorem memRoots {n i : ℕ} : i ∈ roots p n ↔ (1 ≤ i ∧ i ≤ n) ∧ p.eval (alpha ^ i) = 0 := by
  rw [roots,mem_filter,mem_range'_1,decide_eq_true_iff]
  exact and_congr_left fun _ => by omega

theorem rootsNodup (p : GF256[X]) (n : ℕ) : (roots p n).Nodup := Nodup.filter _ nodup_range'

def down (n : ℕ) : List ℕ := (List.range n).map (fun k => n - k)

theorem memDown {n j : ℕ} : j ∈ down n ↔ 1 ≤ j ∧ j ≤ n := by
  simp only [down,List.mem_map,List.mem_range]
  exact ⟨by rintro ⟨k,less,rfl⟩; omega,fun h => ⟨n - j,by omega,by omega⟩⟩

theorem downNodup (n : ℕ) : (down n).Nodup :=
  Nodup.map_on (fun x hx y hy same => by rw [List.mem_range] at hx hy; omega) nodup_range

theorem downSum (n : ℕ) (g : ℕ → GF256) : ((down n).map g).sum = ∑ i ∈ range n, g (i + 1) := by
  rw [down,List.map_map,sumRange,← sum_range_reflect]
  refine sum_congr rfl fun i member => ?_
  have less := mem_range.mp member
  exact congrArg g (show n - (n - 1 - i) = i + 1 by omega)

structure Searched (l : List U8) (n : ℕ) (s : Chien) : Prop where
  length : s.workRegister.length = 10
  logs : ∀ j, 1 ≤ j → j ≤ ReedSolomon.degree l 10 →
    Log (s.workRegister.getD j 0) (ofByte (l.getD j 0#8) * (alpha ^ n) ^ j)
  k : s.k = n
  rootTable : s.rootTable = roots (cellPoly l) n
  locTable : s.locTable = (roots (cellPoly l) n).map (fun i => i - 1)

theorem chienStepSearched (one : ofByte (l.getD 0 0#8) = 1) {n : ℕ} {s : Chien} (searched : Searched l n s) :
    Searched l (n + 1) (mRsDecoder.chienStep (ReedSolomon.degree l 10) s (n + 1)) := by
  have bound := degreeLtTen l
  obtain ⟨work,logs,-,sum⟩ := chienInnerFold (downNodup (ReedSolomon.degree l 10))
    (fun j => ofByte (l.getD j 0#8) * (alpha ^ n) ^ j) s.workRegister 1#8
    (fun j member => by have := memDown.mp member; rw [searched.length]; omega)
    (fun j member => searched.logs j (memDown.mp member).1 (memDown.mp member).2)
  have power : ∀ j, ofByte (l.getD j 0#8) * (alpha ^ n) ^ j * alpha ^ j = ofByte (l.getD j 0#8) * (alpha ^ (n + 1)) ^ j := by
    intro j
    rw [mul_assoc,← mul_pow,← pow_succ]
  simp only [power] at logs sum
  have value : ofByte ((down (ReedSolomon.degree l 10)).foldl (fun acc j => mRsDecoder.chienInner acc j)
      (s.workRegister, 1#8)).2 = (cellPoly l).eval (alpha ^ (n + 1)) := by
    rw [sum,downSum,cellPolyEval,sum_range_succ',one,pow_zero,mul_one,ofByteOne,add_comm]
  have root : ((down (ReedSolomon.degree l 10)).foldl (fun acc j => mRsDecoder.chienInner acc j)
      (s.workRegister, 1#8)).2 = 0#8 ↔ (cellPoly l).eval (alpha ^ (n + 1)) = 0 := by
    rw [← value,ofByteEqZero]
  have table : ∀ j, 1 ≤ j → j ≤ ReedSolomon.degree l 10 → Log (((down (ReedSolomon.degree l 10)).foldl
      (fun acc j => mRsDecoder.chienInner acc j) (s.workRegister, 1#8)).1.getD j 0)
      (ofByte (l.getD j 0#8) * (alpha ^ (n + 1)) ^ j) := fun j low high => logs j (memDown.mpr ⟨low,high⟩)
  rw [chienStep]
  change Searched l (n + 1) (if ((down (ReedSolomon.degree l 10)).foldl
    (fun acc j => mRsDecoder.chienInner acc j) (s.workRegister, 1#8)).2 ≠ 0#8 then _ else _)
  split
  · rename_i nonzero
    have kept : roots (cellPoly l) (n + 1) = roots (cellPoly l) n := by rw [rootsSucc,if_neg (fun zero => nonzero (root.mpr zero))]
    exact ⟨work.trans searched.length,table,by rw [searched.k]; rfl,kept ▸ searched.rootTable,kept ▸ searched.locTable⟩
  · rename_i zero
    have grown : roots (cellPoly l) (n + 1) = roots (cellPoly l) n ++ [n + 1] := by rw [rootsSucc,if_pos (root.mp (of_not_not zero))]
    refine ⟨work.trans searched.length,table,by rw [searched.k]; rfl,?_,?_⟩
    · rw [grown,searched.rootTable]
    · rw [grown,map_append,searched.locTable,searched.k]
      rfl

theorem computeErrorsRoots (length : l.length = 10) (one : ofByte (l.getD 0 0#8) = 1) :
    mRsDecoder.computeErrors (l.map (fun a => gf256.poly2power a)) (ReedSolomon.degree l 10) =
      if (roots (cellPoly l) 255).length ≠ ReedSolomon.degree l 10 then none
      else some ((roots (cellPoly l) 255).map (fun i => (i, i - 1))) := by
  have search : ∀ n, Searched l n ((range' 1 n).foldl
      (fun s i => mRsDecoder.chienStep (ReedSolomon.degree l 10) s i)
      ⟨l.map (fun a => gf256.poly2power a),mRsDecoder.iprim - 1,[],[]⟩) := by
    intro n
    induction n with
    | zero =>
      refine ⟨by simpa using length,fun j low high => ?_,rfl,rfl,rfl⟩
      have bound := degreeLtTen l
      rw [pow_zero,one_pow,mul_one]
      exact logCells (by omega)
    | succ n ih =>
      rw [range'_1_concat,foldl_append,foldl_cons,foldl_nil,Nat.add_comm 1 n]
      exact chienStepSearched one ih
  have found := search 255
  have zipped : ∀ t : List ℕ, t.zip (t.map (fun i => i - 1)) = t.map (fun i => (i, i - 1)) := by
    intro t
    induction t with
    | nil => rfl
    | cons i t ih => rw [List.map_cons,zip_cons_cons,ih,List.map_cons]
  rw [computeErrors,codeLengthValue]
  simp only [found.rootTable,found.locTable,zipped]

theorem omegaTerm (i : ℕ) {j : ℕ} (inside : j < l.length) (acc : U8) : ofByte (if gf256.poly2power (syn.getD (i - j) 0#8) ≠ 255 ∧
        (l.map (fun a => gf256.poly2power a)).getD j 0 ≠ 255 then
      addPoly acc (gf256.power2poly (gf256.multiplyPower (gf256.poly2power (syn.getD (i - j) 0#8))
        ((l.map (fun a => gf256.poly2power a)).getD j 0)))
      else acc) = ofByte acc + ofByte (l.getD j 0#8) * ofByte (syn.getD (i - j) 0#8) := by
  have log := logCells inside
  have log' := logByte (syn.getD (i - j) 0#8)
  split
  · rename_i nonzero
    rw [ofByteAdd,ofByteMultiplyPower,pow_add,logPow log nonzero.2,logPow log' nonzero.1,mul_comm]
  · rename_i zero
    rcases not_and_or.mp zero with full | full
    · rw [(logZero log').mp (of_not_not full),mul_zero,add_zero]
    · rw [(logZero log).mp (of_not_not full),zero_mul,add_zero]

theorem omegaCellValue {syn l : List U8} (length : l.length = 10) (small : i < 10) :
    ofByte (mRsDecoder.omegaCell syn (l.map (fun a => gf256.poly2power a)) (ReedSolomon.degree l 10) i) =
      (cellPoly l * syndromePoly syn).coeff i := by
  have bound := degreeLtTen l
  have whole := foldSum _ (fun j => ofByte (l.getD j 0#8) * ofByte (syn.getD (i - j) 0#8))
    ((List.range ((if ReedSolomon.degree l 10 < i then ReedSolomon.degree l 10 else i) + 1)).map
      (fun k => (if ReedSolomon.degree l 10 < i then ReedSolomon.degree l 10 else i) - k))
    (fun acc j member => omegaTerm syn (l := l) i (by
      obtain ⟨k,_,rfl⟩ := List.mem_map.mp member
      split <;> omega) acc) 0#8
  refine whole.trans ?_
  have cells : ∀ j ∈ range (i + 1), (cellPoly l).coeff j * ofByte (syn.getD (i - j) 0#8) =
      ofByte (l.getD j 0#8) * ofByte (syn.getD (i - j) 0#8) := by
    intro j member
    have less := mem_range.mp member
    rw [cellPolyCoeff,if_pos (by omega)]
  rw [sumDown _ (fun j => ofByte (l.getD j 0#8) * ofByte (syn.getD (i - j) 0#8)),productCoeff _ _ small,ofByteZero,
    zero_add,sum_congr rfl cells]
  -- the cells above the degree are zero
  refine sum_subset (range_mono (by split <;> omega)) fun j member outside => ?_
  have less := mem_range.mp member
  have above : ReedSolomon.degree l 10 < j := by
    rw [mem_range] at outside
    split at outside <;> omega
  rw [(degreeSpec l 10).1 j (by omega) above,ofByteZero,zero_mul]

theorem powerSumValue {cells : List ℕ} (root : ℕ) (terms : List (ℕ × ℕ))
    (logs : ∀ t ∈ terms, Log (cells.getD t.1 0) (ofByte (l.getD t.1 0#8))) : ofByte (mRsDecoder.powerSum cells root terms) =
      (terms.map (fun t => ofByte (l.getD t.1 0#8) * (alpha ^ root) ^ t.2)).sum := by
  have term : ∀ acc, ∀ t ∈ terms, ofByte (if cells.getD t.1 0 ≠ 255 then
      addPoly acc (gf256.power2poly (gf256.multiplyPower (cells.getD t.1 0) (gf256.powPower t.2 root))) else acc) =
      ofByte acc + ofByte (l.getD t.1 0#8) * (alpha ^ root) ^ t.2 := by
    intro acc t member
    have log := logs t member
    split
    · rename_i nonzero
      have exponent : alpha ^ gf256.powPower t.2 root = (alpha ^ root) ^ t.2 := by
        rw [Galois.powPower,gf256DQ,← pow_mul,mul_comm root]
        split
        · rename_i zero
          rw [zero,zero_mul]
        · exact alphaPowMod _
      rw [ofByteAdd,ofByteMultiplyPower,pow_add,logPow log nonzero,exponent]
    · rename_i full
      rw [(logZero log).mp (of_not_not full),zero_mul,add_zero]
  have whole := foldSum _ _ _ term 0#8
  rwa [ofByteZero,zero_add] at whole

def omegaList (syn l : List U8) : List U8 := (List.range 10).map
  (fun i => mRsDecoder.omegaCell syn (l.map (fun a => gf256.poly2power a)) (ReedSolomon.degree l 10) i)

theorem omegaPolyCoeff {syn l : List U8} (length : l.length = 10) (i : ℕ) : (cellPoly (omegaList syn l)).coeff i =
    if i < 10 then (cellPoly l * syndromePoly syn).coeff i else 0 := by
  rw [cellPolyCoeff]
  split
  · rename_i small
    rw [omegaList,getDMapRange _ _ _ small,omegaCellValue length small]
  · rfl

theorem omegaKey (length : l.length = 10) : X ^ 10 ∣ cellPoly l * syndromePoly syn - cellPoly (omegaList syn l) := by
  rw [X_pow_dvd_iff]
  intro i small
  rw [coeff_sub,omegaPolyCoeff length,if_pos small,sub_self]

theorem num1Eval {w : List U8} (length : w.length = 10) (root : ℕ) :
    ofByte (mRsDecoder.num1 (ReedSolomon.degree w 10, w.map (fun a => gf256.poly2power a) ++ [255]) root) =
      (cellPoly w).eval (alpha ^ root) := by
  have bound := degreeLtTen w
  rw [num1,powerSumValue (l := w),List.map_map]
  · exact (sum_range_reflect (fun i => ofByte (w.getD i 0#8) * (alpha ^ root) ^ i)
      (ReedSolomon.degree w 10 + 1)).trans (cellPolyEval _ _).symm
  · intro t member
    obtain ⟨k,_,rfl⟩ := List.mem_map.mp member
    rw [getD_append _ _ _ _ (by rw [length_map,length]; dsimp only; omega)]
    exact logCells (by rw [length]; dsimp only; omega)

theorem num1Value (syn l : List U8) (root : ℕ) : ofByte (mRsDecoder.num1 (mRsDecoder.computeOmega syn (l.map (fun a => gf256.poly2power a))
      (ReedSolomon.degree l 10)) root) = (cellPoly (omegaList syn l)).eval (alpha ^ root) := by
  have length : (omegaList syn l).length = 10 := by rw [omegaList,length_map,length_range]
  exact num1Eval length root

theorem num2Value (root : ℕ) : ofByte (mRsDecoder.num2 root) * alpha ^ root = 1 := by
  have inverse : gf256.dividePower mRsDecoder.fcr 1 = 254 := by rw [Galois.dividePower,gf256Modnn,gf256DQ,fcrValue]
  rw [num2,myGaloisValue,codeLengthValue,inverse]
  rw [ofByteMultiplyPower,pow_add,alphaOrder,mul_one,Galois.powPower,gf256DQ]
  split
  · rename_i zero
    rw [zero,pow_zero,mul_one]
  · rw [alphaPowMod,← pow_add]
    have whole : root * 254 + root = 255 * root := by ring
    rw [whole,pow_mul,alphaOrder,one_pow]

theorem derivativeEval (l : List U8) (x : GF256) : (derivative (cellPoly l)).eval x =
    ∑ k ∈ range 5, ofByte (l.getD (2 * k + 1) 0#8) * x ^ (2 * k) := by
  have even : ∀ m : ℕ, ((2 * m : ℕ) : GF256) = 0 := by
    intro m
    rw [Nat.cast_mul,Nat.cast_two,CharTwo.two_eq_zero,zero_mul]
  have odd : ∀ m : ℕ, ((2 * m + 1 : ℕ) : GF256) = 1 := by
    intro m
    rw [Nat.cast_add,even,Nat.cast_one,zero_add]
  have split : cellPoly l = ∑ k ∈ range 5, (C (ofByte (l.getD (2 * k) 0#8)) * X ^ (2 * k) +
      C (ofByte (l.getD (2 * k + 1) 0#8)) * X ^ (2 * k + 1)) := by
    simp only [cellPoly,sum_range_succ,sum_range_zero]
    ring
  rw [split,derivative_sum,eval_finsetSum]
  refine sum_congr rfl fun k _ => ?_
  rw [derivative_add,derivative_C_mul_X_pow,derivative_C_mul_X_pow,even,odd]
  simp

theorem denValue (length : l.length = 10) (root : ℕ) :
    ofByte (mRsDecoder.den (ReedSolomon.degree l 10, l.map (fun a => gf256.poly2power a)) root) =
      (derivative (cellPoly l)).eval (alpha ^ root) := by
  have bound := degreeLtTen l
  have half : min (ReedSolomon.degree l 10) (10 - 1) / 2 = ReedSolomon.degree l 10 / 2 := by omega
  rw [den,nrootsValue]
  simp only [half]
  rw [powerSumValue (l := l),List.map_map,derivativeEval]
  · refine (sum_range_reflect (fun k => ofByte (l.getD (2 * k + 1) 0#8) * (alpha ^ root) ^ (2 * k))
      (ReedSolomon.degree l 10 / 2 + 1)).trans ?_
    refine sum_subset (range_mono (by omega)) fun k member outside => ?_
    rw [mem_range] at member outside
    rw [(degreeSpec l 10).1 (2 * k + 1) (by omega) (by omega),ofByteZero,zero_mul]
  · intro t member
    obtain ⟨k,_,rfl⟩ := List.mem_map.mp member
    exact logCells (by dsimp only; omega)

theorem correctionValue {num1 num2 den : U8} (nonzero1 : num1 ≠ 0#8) (nonzero2 : num2 ≠ 0#8) (nonzero : den ≠ 0#8) :
    ofByte (mRsDecoder.correction num1 num2 den) = ofByte num1 * ofByte num2 / ofByte den := by
  have divisor : ofByte den ≠ 0 := nonzero
  have small := poly2powerLt nonzero
  rw [eq_div_iff divisor,correction,myGaloisValue,codeLengthValue]
  rw [ofByteMultiplyPower,multiplyPowerMod,pow_add,alphaPowMod,pow_add,alphaPowLog nonzero1,alphaPowLog nonzero2,
    ← alphaPowLog nonzero,mul_assoc,← pow_add]
  have whole : 255 - gf256.poly2power den + gf256.poly2power den = 255 := by omega
  rw [whole,alphaOrder,mul_one]

end DabStar.RsLocator
