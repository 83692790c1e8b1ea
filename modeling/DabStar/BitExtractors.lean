import DabStar.MotParameters

/-! Bits out of a byte stream. The bytes that hold them are shifted into an accumulator of 64
bits, of which at most 40 are used. -/
namespace DabStar.BitExtractors
open List Lib.BitFields
open MotObject (byteReads)
variable (data : List U8) (bitOffset numBits : Nat)

def accumulate (accum : BitVec 64) (i : Nat) : BitVec 64 := (accum <<< 8) ||| (data.getD i 0#8).setWidth 64

def extractBitsFromByteStream : BitVec 32 :=
  let accum := (byteReads bitOffset numBits).foldl (accumulate data) 0
  let lastByte := (bitOffset + numBits - 1) / 8
  let shift := (lastByte + 1) * 8 - (bitOffset + numBits)
  ((accum >>> shift) &&& ((1#64 <<< numBits) - 1#64)).setWidth 32

theorem accumulated {first count : Nat} (few : count ≤ 5) :
    (((range count).map (first + ·)).foldl (accumulate data) 0).toNat = number (byteBits data) (8 * first) (8 * count) := by
  induction count with
  | zero => rfl
  | succ count ih =>
    have before := ih (by omega)
    have small : number (byteBits data) (8 * first) (8 * count) < 2 ^ 32 :=
      (numberLt _ _ _).trans_le (Nat.pow_le_pow_right (by decide) (by omega))
    have whole := bytesNumber data first (count + 1)
    rw [range_succ,foldl_append,bytesNumber] at whole
    rw [range_succ,map_append,foldl_append,map_singleton,foldl_cons,foldl_nil,← whole]
    simp only [accumulate,BitVec.toNat_or,BitVec.toNat_shiftLeft,before,BitVec.toNat_setWidth,foldl_cons,foldl_nil]
    rw [Nat.mod_eq_of_lt (show number (byteBits data) (8 * first) (8 * count) <<< 8 < 2 ^ 64 by rw [Nat.shiftLeft_eq]; omega),
      Nat.mod_eq_of_lt ((data.getD (first + count) 0#8).isLt.trans (by decide))]

theorem maskValue {n : Nat} (few : n ≤ 32) : ((1#64 <<< n) - 1#64).toNat = 1 <<< n - 1 := by
  have power : 2 ^ n ≤ 2 ^ 32 := Nat.pow_le_pow_right (by decide) few
  have positive := Nat.two_pow_pos n
  simp only [BitVec.toNat_sub,BitVec.toNat_shiftLeft,BitVec.toNat_ofNat,Nat.shiftLeft_eq,Nat.one_mod_two_pow (show 0 < 64 by decide),Nat.one_mul]
  omega

theorem extractedNumber {numBits : Nat} (some : 1 ≤ numBits) (few : numBits ≤ 32) :
    (extractBitsFromByteStream data bitOffset numBits).toNat = number (byteBits data) bitOffset numBits := by
  have small : number (byteBits data) bitOffset numBits < 2 ^ 32 := (numberLt _ _ _).trans_le (Nat.pow_le_pow_right (by decide) few)
  have value := MotObject.extractNumber data bitOffset some
  rw [MotObject.extractBitsFromByteStream,bytesNumber] at value
  simp only [extractBitsFromByteStream,byteReads,BitVec.toNat_setWidth,BitVec.toNat_and,BitVec.toNat_ushiftRight,maskValue few,
    accumulated data (show (bitOffset + numBits - 1) / 8 + 1 - bitOffset / 8 ≤ 5 by omega),value]
  exact Nat.mod_eq_of_lt small

theorem bitsExtracted (some : 1 ≤ numBits) (few : numBits ≤ 32) (inside : bitOffset + numBits ≤ 8 * data.length) :
    (extractBitsFromByteStream data bitOffset numBits).toNat = number (byteBits data) bitOffset numBits ∧
    (∀ i ∈ byteReads bitOffset numBits, i < data.length ∧ ∃ bit, bitOffset ≤ bit ∧ bit < bitOffset + numBits ∧ bit / 8 = i) ∧
    ∀ a b, 1 ≤ a → 1 ≤ b → a + b = numBits →
      (extractBitsFromByteStream data bitOffset a).toNat = (extractBitsFromByteStream data bitOffset numBits).toNat / 2 ^ b ∧
      (extractBitsFromByteStream data (bitOffset + a) b).toNat = (extractBitsFromByteStream data bitOffset numBits).toNat % 2 ^ b := by
  refine ⟨extractedNumber data bitOffset some few,fun i read => ?_,fun a b front behind total => ?_⟩
  · simp only [byteReads,mem_map,mem_range] at read
    obtain ⟨k,near,rfl⟩ := read
    refine ⟨by omega,max bitOffset (8 * (bitOffset / 8 + k)),by omega,by omega,by omega⟩
  · subst total
    have low := numberLt (byteBits data) (bitOffset + a) b
    rw [extractedNumber data bitOffset front (by omega),extractedNumber data _ behind (by omega),
      extractedNumber data bitOffset some few,numberAppend,Nat.add_comm,Nat.add_mul_div_right _ _ (Nat.two_pow_pos b),
      Nat.div_eq_of_lt low,Nat.zero_add,Nat.add_mul_mod_self_right,Nat.mod_eq_of_lt low]
    exact ⟨rfl,rfl⟩

theorem nibblesExtracted : (extractBitsFromByteStream [0xAB#8,0xCD#8] 4 8).toNat = 0xBC ∧
    (extractBitsFromByteStream [0xAB#8,0xCD#8] 4 4).toNat = (extractBitsFromByteStream [0xAB#8,0xCD#8] 4 8).toNat / 2 ^ 4 :=
  ⟨by decide,((bitsExtracted [0xAB#8,0xCD#8] 4 8 (by decide) (by decide) (by decide)).2.2 4 4 (by decide) (by decide) rfl).1⟩

end DabStar.BitExtractors
