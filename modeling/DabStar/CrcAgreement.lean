import DabStar.Lib.CrcPolynomial
import DabStar.MotHandler

/-! The CRC is computed three times: with a table (backend/crc.cpp), with swapped halves
(usCalculCRC of backend/data/tdc_datahandler.cpp), and bit by bit (check_CRC_bits). All three
are one register. -/
namespace DabStar
open Lib List
open Mp4Processor (checkCrcBytes)
open MotHandler (checkCrcBits crcPolynome)

def swap (a : Nat) : Nat := (a <<< 8) ||| (a >>> 8)

def usCalculCRCStep (crc byte : Nat) : Nat :=
  let crc := (swap crc ^^^ byte) % 65536
  let crc := crc ^^^ ((crc % 256) >>> 4)
  (crc ^^^ (swap (crc % 256) <<< 4) ^^^ ((crc % 256) <<< 5)) % 65536

def usCalculCRC (buf : List Nat) : Nat := buf.foldl usCalculCRCStep 0xffff ^^^ 0xffff

def swappedEntry (t : Nat) : Nat := ((t ^^^ (t >>> 4)) ^^^ (swap (t ^^^ (t >>> 4)) <<< 4) ^^^ ((t ^^^ (t >>> 4)) <<< 5)) % 65536

theorem swappedTable : (range 256).map swappedEntry = crctab1021 := by decide +kernel

theorem swapHalves {crc : Nat} (small : crc < 2 ^ 16) : swap crc % 65536 = ((crc <<< 8) % 2 ^ 16) ^^^ (crc >>> 8) := by
  have above : ∀ i, 16 ≤ i → crc.testBit i = false :=
    fun i high => Nat.testBit_lt_two_pow (Nat.lt_of_lt_of_le small (Nat.pow_le_pow_right (by decide) high))
  refine Nat.eq_of_testBit_eq fun i => ?_
  rw [swap,show 65536 = 2 ^ 16 from rfl,Nat.testBit_mod_two_pow,Nat.testBit_or,Nat.testBit_xor,Nat.testBit_mod_two_pow,
    Nat.testBit_shiftLeft,Nat.testBit_shiftRight]
  rcases Nat.lt_or_ge i 8 with low | high
  · have inside : i < 16 := by omega
    have outside : ¬8 ≤ i := by omega
    simp [inside,outside]
  · rw [above (8 + i) (by omega),Bool.or_false,Bool.xor_false]

theorem swappedStep {crc byte : Nat} (small : crc < 2 ^ 16) (narrow : byte < 2 ^ 8) : usCalculCRCStep crc byte =
      crctab1021.getD ((byte ^^^ (crc >>> 8)) % 256) 0 ^^^ ((crc <<< 8) % 2 ^ 16) := by
  have high : crc >>> 8 < 2 ^ 8 := by
    rw [Nat.shiftRight_eq_div_pow]
    omega
  have out : byte ^^^ (crc >>> 8) < 2 ^ 8 := Nat.xor_lt_two_pow narrow high
  have first : (swap crc ^^^ byte) % 65536 = ((crc <<< 8) % 2 ^ 16) ^^^ (byte ^^^ (crc >>> 8)) := by
    have wide : byte % 2 ^ 16 = byte := Nat.mod_eq_of_lt (Nat.lt_of_lt_of_le narrow (by decide))
    have halves := swapHalves small
    rw [show 65536 = 2 ^ 16 from rfl] at halves ⊢
    rw [Nat.xor_mod_two_pow,halves,wide,Nat.xor_assoc,Nat.xor_comm byte]
  have empty : ((crc <<< 8) % 2 ^ 16) % 2 ^ 8 = 0 := by
    rw [Nat.shiftLeft_eq]
    omega
  have low : ∀ t < 2 ^ 8, (((crc <<< 8) % 2 ^ 16) ^^^ t) % 256 = t := by
    intro t byte
    rw [show 256 = 2 ^ 8 from rfl,Nat.xor_mod_two_pow,empty,Nat.zero_xor,Nat.mod_eq_of_lt byte]
  rw [show 256 = 2 ^ 8 from rfl,Nat.mod_eq_of_lt out,← Crc.rangeEntry swappedTable _ out]
  unfold usCalculCRCStep swappedEntry
  simp only [first,low _ out]
  generalize byte ^^^ (crc >>> 8) = t at out
  have shifted : t >>> 4 < 2 ^ 8 := Nat.lt_of_le_of_lt (Nat.shiftRight_le t 4) out
  have second : t ^^^ (t >>> 4) < 2 ^ 8 := Nat.xor_lt_two_pow out shifted
  rw [Nat.xor_assoc ((crc <<< 8) % 2 ^ 16),low _ second]
  generalize t ^^^ (t >>> 4) = u
  rw [Nat.xor_assoc,Nat.xor_assoc,Nat.xor_comm,show 65536 = 2 ^ 16 from rfl,Nat.xor_mod_two_pow,Nat.mod_mod,Nat.xor_assoc u]

theorem usCalculCRCRegister (data : List U8) : usCalculCRC (data.map BitVec.toNat) = crc16 (data.map BitVec.toNat) := by
  have step : ∀ register < 2 ^ 16, (data.map BitVec.toNat).foldl usCalculCRCStep register =
      Crc.remainder 0x1021 register ((data.map BitVec.toNat).flatMap Crc.byteBits) := by
    induction data with
    | nil => exact fun _ _ => rfl
    | cons byte data ih =>
      intro register small
      have one := Crc.remainderByte (Crc.rangeEntry tableBytes) (Crc.rangeEntry tableHigh) tableLow small byte.toNat
      rw [← swappedStep small byte.isLt] at one
      have rest := ih _ (Crc.remainderBounded (by decide : 0x1021 < 2 ^ 16) (Crc.byteBits byte.toNat) small)
      rw [map_cons,foldl_cons,flatMap_cons,Crc.remainderAppend,← one,rest]
  rw [usCalculCRC,crc16,step _ (by decide),Nat.xor_comm]

def serialStep (b : List Bool) (bit : Bool) : List Bool :=
  if b.getD 0 false ^^ bit then zipWith xor crcPolynome (b.drop 1) ++ [true] else b.drop 1 ++ [false]

theorem serialShift (register : Nat) (bit : Bool) :
    serialStep (Crc.wordBits register) bit = Crc.wordBits (Crc.shiftIn 0x1021 register bit) := by
  have first : (Crc.wordBits register).getD 0 false = register.testBit 15 := rfl
  have polynome : Crc.wordBits 0x1021 = crcPolynome ++ [true] := by decide
  unfold serialStep Crc.shiftIn
  rw [first]
  cases register.testBit 15 ^^ bit with
  | true =>
    have length : ((Crc.wordBits register).drop 1).length = crcPolynome.length := rfl
    rw [if_pos rfl,if_pos rfl,Crc.wordBitsXor,Crc.wordBitsShift,polynome,zipWith_append length,zipWith_comm_of_comm Bool.xor_comm]
    rfl
  | false =>
    rw [if_neg Bool.false_ne_true,if_neg Bool.false_ne_true,Nat.xor_zero,Crc.wordBitsShift]

theorem serialRun {α : Type} (f : α → Bool) (l : List α) (register : Nat) :
    l.foldl (fun b x => serialStep b (f x)) (Crc.wordBits register) = Crc.wordBits (Crc.remainder 0x1021 register (l.map f)) := by
  induction l generalizing register with
  | nil => rfl
  | cons x l ih =>
    rw [foldl_cons,serialShift,ih]
    rfl

theorem checkCrcBitsRegister (data tail : List Bool) (sixteen : tail.length = 16) :
    checkCrcBits (data ++ tail) = true ↔ Crc.remainder 0x1021 0xffff (data ++ tail.map (! ·)) = 0 := by
  have inverted : (data ++ tail).zipIdx.map (fun x => x.1 ^^ decide ((x.2 : Int) ≥ (data ++ tail).length - 16)) =
      data ++ tail.map (! ·) := by
    refine ext_getElem (by simp) fun k left _ => ?_
    simp only [length_map,length_zipIdx,length_append,sixteen] at left
    simp only [getElem_map,getElem_zipIdx,getElem_append,length_append,sixteen]
    by_cases front : k < data.length
    · have early : ¬data.length ≤ k := by omega
      simp [front,early]
    · have late : data.length ≤ k := by omega
      simp [front,late]
  have run := serialRun (fun x : Bool × Nat => x.1 ^^ decide ((x.2 : Int) ≥ (data ++ tail).length - 16))
    (data ++ tail).zipIdx 0xffff
  have ones : Crc.wordBits 0xffff = replicate 16 true := by decide
  have small : Crc.remainder 0x1021 0xffff (data ++ tail.map (! ·)) < 2 ^ 16 := Crc.remainderBounded (by decide) _ (by decide)
  rw [inverted,ones] at run
  rw [← Crc.wordBitsZero small,← run]
  rfl

theorem wordOfBytes (high low : U8) :
    Crc.byteBits high.toNat ++ Crc.byteBits low.toNat = Crc.wordBits ((high.toNat <<< 8) ||| low.toNat) := by
  have above : ∀ i, 8 ≤ i → low.toNat.testBit i = false :=
    fun i beyond => Nat.testBit_lt_two_pow (Nat.lt_of_lt_of_le low.isLt (Nat.pow_le_pow_right (by decide) beyond))
  refine ext_getElem rfl fun k left _ => ?_
  have inside : k < 16 := left
  simp only [Crc.byteBits,Crc.wordBits,getElem_append,length_map,length_range,getElem_map,
    getElem_range,Nat.testBit_or,Nat.testBit_shiftLeft]
  split
  · have beyond : 15 - k ≥ 8 := by omega
    have place : 15 - k - 8 = 7 - k := by omega
    rw [above _ beyond,decide_eq_true beyond,place,Bool.true_and,Bool.or_false]
  · have within : ¬15 - k ≥ 8 := by omega
    have place : 7 - (k - 8) = 15 - k := by omega
    rw [decide_eq_false within,place,Bool.false_and,Bool.false_or]

theorem wordBitsInvert {word : Nat} : (Crc.wordBits word).map (! ·) = Crc.wordBits (0xffff ^^^ word) := by
  have ones : Crc.wordBits 0xffff = replicate 16 true := by decide
  rw [Crc.wordBitsXor,ones]
  simp [Crc.wordBits,range_succ]

theorem checkCrcSame (body : List U8) (high low : U8) : checkCrcBytes (body ++ [high,low]) body.length =
      checkCrcBits ((body ++ [high,low]).flatMap fun byte => Crc.byteBits byte.toNat) := by
  have word : (high.toNat <<< 8) ||| low.toNat < 2 ^ 16 := by
    rw [← Nat.shiftLeft_add_eq_or_of_lt low.isLt,Nat.shiftLeft_eq]
    have := high.isLt
    have := low.isLt
    omega
  have bits : (body ++ [high,low]).flatMap (fun byte => Crc.byteBits byte.toNat) =
      (body.map BitVec.toNat).flatMap Crc.byteBits ++ Crc.wordBits ((high.toNat <<< 8) ||| low.toNat) := by
    rw [← wordOfBytes,flatMap_append,flatMap_map]
    simp
  have register : Crc.remainder 0x1021 0xffff ((body.map BitVec.toNat).flatMap Crc.byteBits) < 2 ^ 16 :=
    Crc.remainderBounded (by decide) _ (by decide)
  have tail := checkCrcBitsRegister ((body.map BitVec.toNat).flatMap Crc.byteBits)
    (Crc.wordBits ((high.toNat <<< 8) ||| low.toNat)) rfl
  rw [wordBitsInvert,Crc.remainderAppend,Crc.remainderWord (by decide) (by decide) register
    (Nat.xor_lt_two_pow (by decide) word)] at tail
  have first : (body ++ [high,low]).getD body.length 0#8 = high := by simp
  have second : (body ++ [high,low]).getD (body.length + 1) 0#8 = low := by simp
  rw [Bool.eq_iff_iff,bits,tail,checkCrcBytes]
  simp only [first,second,take_left',beq_iff_eq,Nat.xor_eq_zero_iff]
  rw [calcCrcRegister,crc16]
  constructor
  · intro same
    rw [same,← Nat.xor_assoc,Nat.xor_self,Nat.zero_xor]
  · intro same
    rw [same,← Nat.xor_assoc,Nat.xor_self,Nat.zero_xor]

section Agreement
open Polynomial

theorem generatorX25 : Crc.generator 0x1021 = X ^ 16 + X ^ 12 + X ^ 5 + 1 := by
  have bits : ∀ i ∈ Finset.range 16, Crc.coefficient (Nat.testBit 0x1021 i) = if i = 0 ∨ i = 5 ∨ i = 12 then 1 else 0 := by decide
  rw [Crc.generator,Crc.polynomial,Finset.sum_congr rfl fun i member => by rw [bits i member]]
  simp [Finset.sum_range_succ]
  ring

theorem crcAgreement : (∀ data : List U8, usCalculCRC (data.map BitVec.toNat) = calcCrc (data.map BitVec.toNat) ∧
      calcCrc (data.map BitVec.toNat) < 2 ^ 16 ∧ Crc.polynomial (0xffff ^^^ calcCrc (data.map BitVec.toNat)) =
        (X ^ (8 * data.length) * Crc.polynomial 0xffff +
          X ^ 16 * Crc.message (data.flatMap fun byte => Crc.byteBits byte.toNat)) %ₘ (X ^ 16 + X ^ 12 + X ^ 5 + 1)) ∧
    ∀ (body : List U8) (high low : U8), checkCrcBytes (body ++ [high,low]) body.length =
      checkCrcBits ((body ++ [high,low]).flatMap fun byte => Crc.byteBits byte.toNat) := by
  refine ⟨fun data => ?_,checkCrcSame⟩
  have bits : (data.map BitVec.toNat).flatMap Crc.byteBits = data.flatMap fun byte => Crc.byteBits byte.toNat := flatMap_map _ _ _
  have length := Crc.bytesLength (data.map BitVec.toNat)
  rw [length_map] at length
  have register : Crc.remainder 0x1021 0xffff ((data.map BitVec.toNat).flatMap Crc.byteBits) < 2 ^ 16 :=
    Crc.remainderBounded (by decide) _ (by decide)
  rw [calcCrcRegister,usCalculCRCRegister,← generatorX25]
  refine ⟨rfl,Nat.xor_lt_two_pow (by decide) register,?_⟩
  rw [crc16,← Nat.xor_assoc,Nat.xor_self,Nat.zero_xor,Crc.remainderPolynomial,length,bits]

end Agreement

end DabStar
