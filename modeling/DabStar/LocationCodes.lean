import DabStar.FibBounds
import DabStar.FigWire

/-! The location codes of a FIG 0/15. The size of a code depends on its digits, their padding
and the field of sub-codes; it is compared with the end of the FIG before the digits are read.
-/
namespace DabStar.Fib.FibReads
open List

structure LocationCode where
  nff : BitVec 2
  zone : BitVec 6
  digit : BitVec 4
  otherDigits : List (BitVec 4)
  padding : BitVec 4
  subCodes : Option (BitVec 16)
  few : otherDigits.length ≤ if subCodes.isSome then 4 else 5

namespace LocationCode
open Lib.BitFields
variable (code : LocationCode)

def scf : BitVec 1 := if code.subCodes.isSome then 1#1 else 0#1

def paddingBits : List Bool := if code.otherDigits.length % 2 = 1 then field code.padding else []

def subCodeBits : List Bool := (code.subCodes.map field).getD []

def bits : List Bool :=
  field code.nff ++ field code.zone ++ field code.scf ++
    field (BitVec.ofNat 3 code.otherDigits.length) ++ field code.digit ++
    code.otherDigits.flatMap field ++ code.paddingBits ++ code.subCodeBits

theorem bitsLength : code.bits.length = 16 + 4 * code.otherDigits.length + (if code.otherDigits.length % 2 = 1 then 4 else 0) +
    if code.scf.toNat = 1 then 16 else 0 := by
  have digits : (code.otherDigits.flatMap field).length = 4 * code.otherDigits.length := flatMapLength fieldLength _
  have subs : code.subCodeBits.length = if code.scf.toNat = 1 then 16 else 0 := by
    unfold subCodeBits scf
    cases code.subCodes <;> simp
  have pad : code.paddingBits.length = if code.otherDigits.length % 2 = 1 then 4 else 0 := by
    unfold paddingBits
    split <;> simp
  simp only [bits,length_append,fieldLength,digits,subs,pad]

end LocationCode

open Lib.BitReader Lib.BitReader.Reader
open Lib.BitFields (Written writtenAppend fieldLength)

def ewsMarkStep (endOffset bitOffset : Nat) : Reader (Nat ⊕ Option Nat) :=
  if bitOffset < endOffset then do
    match ← getEwsLocationCode bitOffset endOffset with
    | some behind => pure (.inl behind)
    | none => pure (.inr none)
  else pure (.inr (some bitOffset))

theorem markStepSame (endOffset bitOffset : Nat) :
    ewsLocationStep endOffset bitOffset = (Sum.map id fun _ => ()) <$> ewsMarkStep endOffset bitOffset := by
  unfold ewsLocationStep ewsMarkStep
  split
  · rw [map_bind]
    refine bind_congr fun code => ?_
    cases code <;> rfl
  · rfl

theorem markLoopSame (endOffset fuel bitOffset : Nat) :
    loop (ewsLocationStep endOffset) fuel bitOffset = (fun _ => ()) <$> loop (ewsMarkStep endOffset) fuel bitOffset := by
  induction fuel generalizing bitOffset with
  | zero => rfl
  | succ fuel ih =>
    rw [loop,loop,markStepSame,bind_map_left,map_bind]
    refine bind_congr fun r => ?_
    cases r with
    | inl y => exact ih y
    | inr b => rfl

variable {d : Bits} {bitOffset endOffset : Nat}

theorem codeAdvance {behind : Nat} (value : (getEwsLocationCode bitOffset endOffset).run (getBits d) = some (some behind)) :
    ∃ n, 0 < n ∧ behind = bitOffset + 8 * n ∧ behind ≤ endOffset := by
  simp only [getEwsLocationCode,runIf,runFieldBind,runBindOf (runFields 4 _),runPure] at value
  generalize getBits d (bitOffset + 8) 1 = scf at value
  generalize getBits d (bitOffset + 9) 3 = numDigits at value
  refine ⟨(behind - bitOffset) / 8,?_⟩
  split_ifs at value <;> simp only [Option.some.injEq,reduceCtorEq] at value <;> omega

theorem codeRead {code : LocationCode} (written : Written d bitOffset code.bits) (fits : bitOffset + code.bits.length ≤ endOffset) :
    (getEwsLocationCode bitOffset endOffset).run (getBits d) = some (some (bitOffset + code.bits.length)) := by
  have size := code.bitsLength
  have few := code.few
  simp only [LocationCode.bits,writtenAppend,fieldLength,length_append,Nat.reduceAdd] at written
  obtain ⟨⟨⟨⟨⟨⟨⟨-,-⟩,scf⟩,digits⟩,-⟩,-⟩,-⟩,-⟩ := written
  have scf : getBits d (bitOffset + 8) 1 = _ := readField scf
  have digits : getBits d (bitOffset + 9) 3 = _ := readField digits
  have limit : code.otherDigits.length ≤ if code.scf.toNat = 1 then 4 else 5 := by
    unfold LocationCode.scf
    generalize code.subCodes = subCodes at few
    cases subCodes <;> simpa using few
  have number : (BitVec.ofNat 3 code.otherDigits.length).toNat = code.otherDigits.length := by
    rw [BitVec.toNat_ofNat,Nat.mod_eq_of_lt]
    split at limit <;> omega
  rw [number] at digits
  simp only [getEwsLocationCode,runIf,runFieldBind,runBindOf (runFields 4 _),runPure,scf,digits]
  rw [if_neg (by omega),if_neg (by omega),if_neg (by omega)]
  by_cases sub : code.scf.toNat = 1
  · rw [if_pos sub,size,if_pos sub]
    simp only [Nat.add_assoc]
  · rw [if_neg sub,size,if_neg sub]
    simp only [Nat.add_assoc,Nat.add_zero]

theorem codesRead (codes : List LocationCode) {fuel : Nat} (enough : codes.length < fuel) (written : Written d bitOffset (codes.flatMap LocationCode.bits))
    (filled : bitOffset + (codes.flatMap LocationCode.bits).length = endOffset) :
    (loop (ewsMarkStep endOffset) fuel bitOffset).run (getBits d) = some (some endOffset) := by
  induction codes generalizing bitOffset fuel with
  | nil =>
    obtain ⟨fuel,rfl⟩ := Nat.exists_eq_add_one_of_ne_zero (Nat.ne_of_gt enough)
    simp only [flatMap_nil,length_nil,Nat.add_zero] at filled
    subst filled
    simp [loop,ewsMarkStep]
  | cons code rest ih =>
    obtain ⟨fuel,rfl⟩ := Nat.exists_eq_add_one_of_ne_zero (Nat.ne_of_gt (Nat.zero_lt_of_lt enough))
    rw [flatMap_cons,writtenAppend] at written
    rw [flatMap_cons,length_append,← Nat.add_assoc] at filled
    have size := code.bitsLength
    have step : (ewsMarkStep endOffset bitOffset).run (getBits d) = some (.inl (bitOffset + code.bits.length)) := by
      rw [ewsMarkStep,if_pos (by omega),runBindOf (codeRead written.1 (by omega))]
      rfl
    rw [loop,runBindOf step]
    exact ih (by simpa using enough) written.2 filled

theorem marksReturn (d : Bits) (short : endOffset ≤ 256) : ∃ r, (loop (ewsMarkStep endOffset) 32 bitOffset).run (getBits d) = some r := by
  have returned := @locationsValue d endOffset bitOffset short
  rw [markLoopSame,map_eq_pure_bind,runBind] at returned
  obtain ⟨r,value,-⟩ := Option.bind_eq_some_iff.mp returned
  exact ⟨r,value⟩

theorem locationCodesTaken (d : Bits) (s : FibDecoder) : (∃ s', (processFig0s15 32 s).run (getBits d) = some s') ∧
    (∀ bitOffset, loop (ewsLocationStep (room d)) 32 bitOffset = (fun _ => ()) <$> loop (ewsMarkStep (room d)) 32 bitOffset ∧
      ∃ r, (loop (ewsMarkStep (room d)) 32 bitOffset).run (getBits d) = some r) ∧
    (∀ bitOffset, (getEwsLocationCode bitOffset (room d)).Within (getBits d) (room d) ∧
      ∀ behind, (getEwsLocationCode bitOffset (room d)).run (getBits d) = some (some behind) →
        ∃ n, 0 < n ∧ behind = bitOffset + 8 * n ∧ behind ≤ room d) ∧
    ∀ (bitOffset : Nat) (codes : List LocationCode), Written d bitOffset (codes.flatMap LocationCode.bits) →
      bitOffset + (codes.flatMap LocationCode.bits).length = room d →
      (loop (ewsMarkStep (room d)) 32 bitOffset).run (getBits d) = some (some (room d)) := by
  have short : room d ≤ 256 := by
    have := lengthLt d
    change 8 * ((Fib.getFigHeader d).length + 1) ≤ 256
    omega
  refine ⟨⟨_,fig0s15Value d s⟩,fun _ => ⟨markLoopSame _ _ _,marksReturn d short⟩,fun bitOffset => ⟨locationWithin d bitOffset _,fun _ => codeAdvance⟩,?_⟩
  intro bitOffset codes written filled
  have each : ∀ codes : List LocationCode, 16 * codes.length ≤ (codes.flatMap LocationCode.bits).length := by
    intro codes
    induction codes with
    | nil => exact Nat.le_refl 0
    | cons code rest ih =>
      rw [flatMap_cons,length_append,length_cons,code.bitsLength]
      omega
  have all := each codes
  exact codesRead codes (by omega) written filled

def oneCode : LocationCode := ⟨0#2,5#6,7#4,[1#4],0#4,none,by decide⟩

def oneCodeFig : Bits := Lib.BitFields.alone (Lib.BitFields.field 7#8 ++ replicate 32 false ++ oneCode.bits)

theorem oneCodeTaken : (loop (ewsMarkStep 64) 32 40).run (getBits oneCodeFig) = some (some 64) :=
  (locationCodesTaken oneCodeFig {}).2.2.2 40 [oneCode] (by decide) (by decide)

end DabStar.Fib.FibReads
