import DabStar.SuperFrame

/-! Bounds of the DAB+ access units. The length of a unit is tested, its end is not; the PAD
length is not compared with the unit at all. -/
namespace DabStar.Mp4Processor
open List

def unitCount (out : List U8) : Nat := [4,2,6,3].getD ((out.getD 2 0#8).toNat / 32 % 4) 0

def addressField (out : List U8) (i : Nat) : Nat :=
  let first := (24 + 12 * i) / 8
  ((out.getD first 0#8).toNat * 256 + (out.getD (first + 1) 0#8).toNat) / 2 ^ (4 - (24 + 12 * i) % 8) % 4096

def unitStart (out : List U8) (size : Int) (i : Nat) : Int :=
  if i = 0 then ((3 + (12 * (unitCount out - 1) + 7) / 8 : Nat) : Int)
  else if i < unitCount out then addressField out (i - 1) else size

variable (out : List U8)

theorem rateCode : 2 * (streamParameters out).dacRate + (streamParameters out).sbrFlag = (out.getD 2 0#8).toNat / 32 % 4 := by
  show 2 * (((out.getD 2 0#8).toNat >>> 6) &&& 1) + (((out.getD 2 0#8).toNat >>> 5) &&& 1) = _
  rw [Nat.and_one_is_mod,Nat.and_one_is_mod,Nat.shiftRight_eq_div_pow,Nat.shiftRight_eq_div_pow]
  omega

theorem highField (a b : U8) : a.toNat * 16 + (b.toNat >>> 4) = (a.toNat * 256 + b.toNat) / 2 ^ 4 % 4096 := by
  have small := a.isLt
  have smallToo := b.isLt
  rw [Nat.shiftRight_eq_div_pow]
  omega

theorem lowField (a b : U8) : (a.toNat &&& 0xf) * 256 + b.toNat = (a.toNat * 256 + b.toNat) / 2 ^ 0 % 4096 := by
  have small := b.isLt
  rw [show 0xf = 2 ^ 4 - 1 by rfl,Nat.and_two_pow_sub_one_eq_mod]
  omega

theorem auStartArrFields (mBitRate : Int) : (auStartArr out mBitRate (streamParameters out)).1 =
      (range (unitCount out + 1)).map (unitStart out (toI16 (110 * mBitRate.tdiv 8))) := by
  have code := rateCode out
  have small : (out.getD 2 0#8).toNat / 32 % 4 < 4 := Nat.mod_lt _ (by decide)
  unfold auStartArr unitStart unitCount addressField
  dsimp only
  rw [code]
  generalize toI16 (110 * mBitRate.tdiv 8) = last
  generalize (out.getD 2 0#8).toNat / 32 % 4 = kind at small
  simp only [highField,lowField]
  match kind, small with
  | 0, _ => rfl
  | 1, _ => rfl
  | 2, _ => rfl
  | 3, _ => rfl

def ReadInside (size : Int) : Mp4Read → Prop
  | .mOutVec first count => 0 ≤ first ∧ first + count ≤ size
  | .padData taken aacFrameLen => taken ≤ aacFrameLen
  | .padCopy index count => 0 ≤ index ∧ index < count

def UnitFits (out : List U8) (size first next : Int) : Prop :=
  2 ≤ next - first → next - first ≤ 962 → next ≤ size ∧
    (checkCrcBytes (slice out first (next - first)) (next - first - 2).toNat = true → (byteOf out first).toNat / 32 = 4 →
      2 ≤ (byteOf out (first + 1)).toNat ∧ (byteOf out (first + 1)).toNat + 4 ≤ next - first)

theorem processUnitOut (s : Mp4Processor) (backend : AacBackend) (sp : SStreamParms) (auIdx : Nat) (auStart auNext : Int) :
    (countAacFrame (s.processUnit backend sp auIdx auStart auNext)).next.mOutVec = s.mOutVec := by
  have unit : (s.processUnit backend sp auIdx auStart auNext).next.mOutVec = s.mOutVec := by
    unfold processUnit
    dsimp only
    split
    · rfl
    · split
      · dsimp only
        split <;> rfl
      · rfl
  unfold countAacFrame
  split <;> exact unit

theorem countAacFrameReads (step : Step) : (countAacFrame step).reads = step.reads := by
  unfold countAacFrame
  split <;> rfl

theorem auPadInside {out : List U8} {auStart aacFrameLen size : Int} (start : 0 ≤ auStart) (room : auStart + aacFrameLen + 2 ≤ size)
    (length : 0 ≤ aacFrameLen) : (∀ read ∈ (padOf out auStart aacFrameLen).2, ReadInside size read) ↔
      ((byteOf out auStart).toNat / 32 = 4 → 2 ≤ (byteOf out (auStart + 1)).toNat ∧
        (byteOf out (auStart + 1)).toNat + 4 ≤ aacFrameLen + 2) := by
  have top : ((byteOf out auStart).toNat >>> 5) &&& 7 = (byteOf out auStart).toNat / 32 := by
    have small := (byteOf out auStart).isLt
    rw [show 7 = 2 ^ 3 - 1 by rfl,Nat.and_two_pow_sub_one_eq_mod,Nat.shiftRight_eq_div_pow]
    omega
  unfold padOf
  rw [top]
  split
  · rename_i pad
    simp only [forall_mem_cons,not_mem_nil,false_implies,implies_true,and_true,ReadInside,pad,true_implies]
    omega
  · rename_i other
    refine ⟨fun _ pad => absurd pad other,fun _ read member => ?_⟩
    rw [mem_singleton.mp member]
    exact ⟨start,by omega⟩

theorem unitInside {s : Mp4Processor} (backend : AacBackend) (sp : SStreamParms) (auIdx : Nat) {auStart auNext size : Int}
    (start : 0 ≤ auStart) : (∀ read ∈ (s.processUnit backend sp auIdx auStart auNext).reads, ReadInside size read) ↔
      UnitFits s.mOutVec size auStart auNext := by
  unfold processUnit UnitFits
  dsimp only
  split
  · rename_i wrong
    simp only [not_mem_nil,false_implies,implies_true,true_iff]
    omega
  · rename_i length
    rw [show auNext - auStart - 2 + 2 = auNext - auStart by omega]
    have whole : ReadInside size (.mOutVec auStart (auNext - auStart)) ↔ auNext ≤ size := by
      show 0 ≤ auStart ∧ auStart + (auNext - auStart) ≤ size ↔ auNext ≤ size
      omega
    have bounds : 2 ≤ auNext - auStart ∧ auNext - auStart ≤ 962 := by omega
    simp only [bounds,true_implies]
    split
    · rename_i correct
      simp only [correct,true_implies,forall_mem_append,forall_mem_cons,not_mem_nil,false_implies,implies_true,and_true,whole]
      constructor
      · rintro ⟨⟨inside,_⟩,pad⟩
        have taken := (auPadInside start (by omega) (by omega)).mp pad
        exact ⟨inside,fun first => by have fits := taken first; omega⟩
      · rintro ⟨inside,taken⟩
        refine ⟨⟨inside,start,by omega⟩,(auPadInside start (by omega) (by omega)).mpr (fun first => ?_)⟩
        have fits := taken first
        omega
    · rename_i wrong
      simp only [wrong,false_implies,and_true,forall_mem_cons,not_mem_nil,implies_true,whole,Bool.false_eq_true]

theorem unitsInside (backend : AacBackend) (sp : SStreamParms) {starts : List Int} (auIdx : Nat) (s : Mp4Processor)
    (size : Int) (low : ∀ auStart ∈ starts.dropLast, 0 ≤ auStart) :
    (∀ read ∈ (processUnits backend sp starts auIdx s).reads, ReadInside size read) ↔ starts.IsChain (UnitFits s.mOutVec size) := by
  induction starts generalizing auIdx s with
  | nil => exact ⟨fun _ => .nil,fun _ read impossible => absurd impossible not_mem_nil⟩
  | cons auStart rest ih =>
    cases rest with
    | nil => exact ⟨fun _ => .singleton _,fun _ read impossible => absurd impossible not_mem_nil⟩
    | cons auNext rest =>
      rw [dropLast_cons_cons,forall_mem_cons] at low
      have more := ih (auIdx + 1) (countAacFrame (s.processUnit backend sp auIdx auStart auNext)).next low.2
      rw [processUnitOut] at more
      unfold processUnits
      rw [forall_mem_append,isChain_cons_cons,more,countAacFrameReads,unitInside backend sp auIdx low.1]

theorem startsLow (size : Int) (count : Nat) (few : count ≤ unitCount out) :
    ∀ auStart ∈ (range count).map (unitStart out size), 0 ≤ auStart := by
  intro auStart member
  obtain ⟨i,inside,rfl⟩ := mem_map.mp member
  have small := mem_range.mp inside
  unfold unitStart
  split
  · exact Int.natCast_nonneg _
  · rw [if_pos (by omega)]
    exact Int.natCast_nonneg _

theorem headerInside (mBitRate : Int) (sp : SStreamParms) {size : Int} (large : 11 ≤ size) :
    ReadInside size (auStartArr out mBitRate sp).2 := by
  unfold auStartArr
  dsimp only
  split <;> exact ⟨by decide,by omega⟩

theorem unitReadsInside {s : Mp4Processor} {iBitRate : Int} (positive : 0 < iBitRate) (eights : iBitRate % 8 = 0)
    (rate : s.mBitRate = iBitRate) (size : (s.mOutVec.length : Int) = 110 * iBitRate / 8) (backend : AacBackend) :
    (∀ read ∈ (s.processOutVec backend).reads, ReadInside s.mOutVec.length read) ↔
      ∀ i < unitCount s.mOutVec, UnitFits s.mOutVec s.mOutVec.length (unitStart s.mOutVec (toI16 s.mOutVec.length) i)
        (unitStart s.mOutVec (toI16 s.mOutVec.length) (i + 1)) := by
  have total : 110 * iBitRate.tdiv 8 = s.mOutVec.length := by
    rw [Int.tdiv_eq_ediv_of_nonneg (by omega)]
    omega
  have fields := auStartArrFields s.mOutVec s.mBitRate
  have header := headerInside s.mOutVec s.mBitRate (streamParameters s.mOutVec) (show 11 ≤ (s.mOutVec.length : Int) by omega)
  rw [rate,total] at fields
  rw [rate] at header
  have low : ∀ auStart ∈ ((range (unitCount s.mOutVec + 1)).map
      (unitStart s.mOutVec (toI16 s.mOutVec.length))).dropLast, 0 ≤ auStart := by
    rw [range_succ,map_append,map_singleton,dropLast_concat]
    exact startsLow _ _ _ (le_refl _)
  unfold processOutVec
  dsimp only
  rw [forall_mem_cons,rate,fields,unitsInside backend _ 0 s _ low,isChain_map,isChain_range_succ]
  exact and_iff_right header

def farUnit : List U8 := [0x46#8,0x15#8,0x20#8,0x3c#8,0x70#8] ++ replicate 105 0#8

theorem farUnitOutside : FirecodeChecker.check farUnit = true ∧ (farUnit.length : Int) = 110 * 8 / 8 ∧
    ¬∀ read ∈ (processOutVec { newMp4Processor 8 with mOutVec := farUnit } (quiet 0)).reads, ReadInside farUnit.length read := by
  have starts : auStartArr farUnit (newMp4Processor 8).mBitRate (streamParameters farUnit) = ([5,967,110], .mOutVec 2 3) := by decide
  refine ⟨by decide,by decide,fun inside => ?_⟩
  unfold processOutVec at inside
  dsimp only at inside
  rw [starts] at inside
  have chain := (unitsInside _ _ 0 _ _ (by decide)).mp (forall_mem_cons.mp inside).2
  have ends := ((isChain_cons_cons.mp chain).1 (by decide) (by decide)).1
  exact absurd ends (by decide)

def nearUnits : List U8 := [0#8,0#8,0x20#8,0x02#8,0x00#8] ++ replicate 105 0#8

theorem nearUnitsInside : unitCount nearUnits = 2 ∧
    ∀ read ∈ (processOutVec { newMp4Processor 8 with mOutVec := nearUnits } (quiet 0)).reads, ReadInside nearUnits.length read := by
  refine ⟨by decide,(unitReadsInside (show (0 : Int) < 8 by decide) (by decide) rfl (by decide) (quiet 0)).mpr ?_⟩
  intro i small
  match i, small with
  | 0, _ => exact fun _ _ => ⟨by decide,fun _ pad => absurd pad (by decide)⟩
  | 1, _ => exact fun _ _ => ⟨by decide,fun _ pad => absurd pad (by decide)⟩

end DabStar.Mp4Processor
