import DabStar.ReedSolomon

/-! The code behind the codec: words of 255 bytes that vanish at alpha to the 0 .. 9. The
encoder's register holds the remainder of the data read so far, so appending it gives a word of
the code. -/
namespace DabStar.RsCode
open GF256 ReedSolomon Finset
open List hiding range mem_range range_succ range_zero sum_range_succ sum_eq_zero
open Galois (addPoly)
variable {k : ℕ}

def horner (x : GF256) (l : List U8) : GF256 := l.foldl (fun acc b => acc * x + ofByte b) 0

variable (x : GF256)

@[simp] theorem hornerNil : horner x [] = 0 := rfl

theorem hornerSnoc (l : List U8) (b : U8) : horner x (l ++ [b]) = horner x l * x + ofByte b := by simp [horner]

theorem hornerAppend (l m : List U8) : horner x (l ++ m) = horner x l * x ^ m.length + horner x m := by
  induction m using reverseRecOn with
  | nil => simp
  | append_singleton m b ih =>
    rw [← append_assoc,hornerSnoc,ih,hornerSnoc,length_append,length_singleton]
    ring

theorem hornerSum (l : List U8) : horner x l = ∑ p ∈ range l.length, ofByte (l.getD p 0#8) * x ^ (l.length - 1 - p) := by
  induction l using reverseRecOn with
  | nil => simp
  | append_singleton l b ih =>
    rw [hornerSnoc,ih,length_append,length_singleton,sum_range_succ,sum_mul]
    congr 1
    · refine sum_congr rfl fun p member => ?_
      have less := mem_range.mp member
      rw [getD_append _ _ _ _ less,mul_assoc,← pow_succ]
      congr 2
      omega
    · simp

theorem hornerZeros (n : ℕ) : horner x (replicate n 0#8) = 0 := by
  rw [hornerSum]
  refine sum_eq_zero fun p member => ?_
  simp

theorem hornerByte (small : k < 255) (l : List U8) : horner (alpha ^ k) l =
    ofByte (l.foldl (fun acc b => addPoly (gf256.multiplyPoly acc (gf256.power2poly k)) b) 0#8) := by
  rw [horner,← ofBytePower small]
  rfl

structure Codeword (w : List U8) : Prop where
  length : w.length = 255
  roots : ∀ k < 10, horner (alpha ^ k) w = 0

theorem myGaloisValue : mRsDecoder.myGalois = gf256 := rfl
theorem codeLengthValue : mRsDecoder.codeLength = 255 := rfl
theorem nrootsValue : mRsDecoder.nroots = 10 := rfl
theorem fcrValue : mRsDecoder.fcr = 0 := rfl
theorem primValue : mRsDecoder.prim = 1 := rfl
theorem iprimValue : mRsDecoder.iprim = 1 := rfl

theorem newGenerator (symsize gfpoly fcr prim nroots : ℕ) : (new symsize gfpoly fcr prim nroots).generator =
      (generatorPoly (Galois.new symsize gfpoly) (fcr * prim) nroots).map (Galois.new symsize gfpoly).poly2power := rfl

theorem generatorValue : mRsDecoder.generator = [45,32,94,64,70,118,61,46,67,251,0] := by
  rw [mRsDecoder,newGenerator,zero_mul,← gf256]
  simp only [generatorPoly,generatorStep,generatorInner,power2polyRead,funext poly2powerRead,multiplyPowerMod]
  decide +kernel

theorem generatorRoot (small : k < 10) : (alpha ^ k) ^ 10 = alpha ^ 45 + alpha ^ 32 * alpha ^ k + alpha ^ 94 * (alpha ^ k) ^ 2 +
      alpha ^ 64 * (alpha ^ k) ^ 3 + alpha ^ 70 * (alpha ^ k) ^ 4 + alpha ^ 118 * (alpha ^ k) ^ 5 +
      alpha ^ 61 * (alpha ^ k) ^ 6 + alpha ^ 46 * (alpha ^ k) ^ 7 + alpha ^ 67 * (alpha ^ k) ^ 8 + alpha ^ 251 * (alpha ^ k) ^ 9 := by
  simp only [← pow_mul,← pow_add]
  simp only [← ofBytePowerMod,← ofByteAdd,power2polyRead]
  congr 1
  revert k
  decide

theorem encodeStepHorner (small : k < 10) {data bb : List U8} (length : bb.length = 10) (i : ℕ) :
    horner (alpha ^ k) (mRsDecoder.encodeStep data bb i) =
      horner (alpha ^ k) bb * alpha ^ k + ofByte (data.getD i 0#8) * (alpha ^ k) ^ 10 := by
  match bb, length with
  | [b0,b1,b2,b3,b4,b5,b6,b7,b8,b9], _ =>
    have root := generatorRoot small
    simp only [encodeStep,myGaloisValue,codeLengthValue,nrootsValue,generatorValue,ne_eq,poly2powerEqLog]
    split
    · rename_i nonzero
      have log := alphaPowLog nonzero
      simp only [getD_cons_zero,ofByteAdd] at log
      simp only [getD_cons_zero,multiplyPowerMod]
      generalize gf256.poly2power (addPoly (data.getD i 0#8) b0) = f at log
      have run : (range' 1 (10 - 1)) = [1,2,3,4,5,6,7,8,9] := by decide
      rw [run]
      simp only [horner,foldl,tail_cons,cons_append,nil_append,set_cons_succ,
        set_cons_zero,getD_cons_succ,getD_cons_zero,ofByteAdd,ofBytePowerMod,pow_add,Nat.reduceSub,log]
      linear_combination -(ofByte (data.getD i 0#8) + ofByte b0) * root
    · rename_i zero
      have same : ofByte (data.getD i 0#8) + ofByte b0 = 0 := of_not_not zero
      simp only [horner,foldl,tail_cons,cons_append,nil_append,ofByteZero]
      linear_combination -(alpha ^ k) ^ 10 * same

theorem encodeStepLength {data bb : List U8} (length : bb.length = 10) (i : ℕ) : (mRsDecoder.encodeStep data bb i).length = 10 := by
  have fold : ∀ (js : List ℕ) (f : List U8 → ℕ → U8) (l : List U8), (js.foldl (fun l j => l.set j (f l j)) l).length = l.length := by
    intro js f l
    induction js generalizing l with
    | nil => rfl
    | cons j js ih => rw [foldl_cons,ih,length_set]
  simp only [encodeStep]
  split
  · rw [length_append,length_tail,fold,length,length_singleton]
  · rw [length_append,length_tail,length,length_singleton]

/- After i symbols the register is the remainder of the data read so far, shifted by
ten places. -/
theorem encodePrefix (data : List U8) {i : ℕ} (bound : i ≤ data.length) :
    let bb := (List.range i).foldl (fun bb i => mRsDecoder.encodeStep data bb i) (replicate 10 0#8)
    bb.length = 10 ∧ ∀ k < 10, horner (alpha ^ k) bb = horner (alpha ^ k) (data.take i) * (alpha ^ k) ^ 10 := by
  induction i with
  | zero =>
    refine ⟨by simp,fun k _ => ?_⟩
    rw [List.range_zero,foldl_nil,hornerZeros,take_zero,hornerNil,zero_mul]
  | succ i ih =>
    obtain ⟨length,value⟩ := ih (by omega)
    rw [List.range_succ,foldl_append,foldl_cons,foldl_nil]
    refine ⟨encodeStepLength length i,fun k small => ?_⟩
    have next : data.take (i + 1) = data.take i ++ [data.getD i 0#8] := by
      rw [take_succ_eq_append_getElem (by omega),getD_eq_getElem _ _ (by omega)]
    rw [encodeStepHorner small length,value k small,next,hornerSnoc]
    ring

theorem encodeRsLength {data : List U8} (length : 245 ≤ data.length) : (mRsDecoder.encodeRs data).length = 10 :=
  (encodePrefix data length).1

theorem encodeRsCodeword {data : List U8} (length : data.length = 255) : Codeword (data.take 245 ++ mRsDecoder.encodeRs data) := by
  have run := encodePrefix data (i := 245) (by omega)
  refine ⟨?_,fun k small => ?_⟩
  · rw [length_append,length_take,length,encodeRsLength (by omega),Nat.min_eq_left (by omega)]
  · have value : horner (alpha ^ k) (mRsDecoder.encodeRs data) = horner (alpha ^ k) (data.take 245) * (alpha ^ k) ^ 10 := run.2 k small
    rw [hornerAppend,encodeRsLength (by omega),value]
    exact addSelf _

end DabStar.RsCode
