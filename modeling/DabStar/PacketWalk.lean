import DabStar.DataProcessor

/-! The packets of a frame. The walk is driven by the length field of each packet, what is
copied by the useful length, which nothing relates to it. -/
namespace DabStar.DataProcessor
open List
open Fib (Bits getBits getBits2)

def packetAt (outV : Bits) (offset : Nat) : Bits := fun i => outV (offset + i)

def Copies (s : DataProcessor) (data : Bits) : Prop :=
  s.mPacketAddress = address data ∧ continuityIndex data = s.mExpectedIndex ∧ crcCorrect data = true ∧
    (s.mPacketState = 0 ∧ (firstLast data = 2 ∨ firstLast data = 3) ∨ s.mPacketState = 1 ∧ firstLast data ≠ 3)
  deriving Decidable

def copied (s : DataProcessor) (data : Bits) : List Nat := if Copies s data then (range (8 * usefulLength data)).map (24 + ·) else []

def Series (s : DataProcessor) (data : Bits) : Prop :=
  (s.handlePacket data).1.mSeriesVec = s.mSeriesVec ++ (copied s data).map data ∨
    (s.handlePacket data).1.mSeriesVec = (copied s data).map data

def visits : Nat → DataProcessor → Bits → Nat → Nat → List (DataProcessor × Nat)
  | 0, _, _, _, _ => []
  | fuel + 1, s, outV, offset, lengthBits =>
    let pLengthBits := packetLengthBytes (packetAt outV offset) * 8
    if lengthBits < pLengthBits then []
    else (s, offset) :: if lengthBits - pLengthBits < 2 then []
      else visits fuel (s.handlePacket (packetAt outV offset)).1 outV (offset + pLengthBits) (lengthBits - pLengthBits)

inductive Tiles (outV : Bits) : Nat → List Nat → Nat → Prop where
  | nil (offset : Nat) : Tiles outV offset [] offset
  | cons {offset last : Nat} {offsets : List Nat} (rest : Tiles outV (offset + packetLengthBytes (packetAt outV offset) * 8) offsets last) :
      Tiles outV offset (offset :: offsets) last

def UsefulFits (s : DataProcessor) (data : Bits) : Prop := Copies s data → usefulLength data + 5 ≤ packetLengthBytes data
  deriving Decidable

variable {s : DataProcessor} {outV data : Bits} {offset lengthBits fuel last : Nat} {offsets : List Nat}

theorem lengthPositive (data : Bits) : 24 ≤ packetLengthBytes data := by
  unfold packetLengthBytes
  omega

theorem tilesForward (tiles : Tiles outV offset offsets last) : offset ≤ last := by
  induction tiles with
  | nil => exact le_refl _
  | cons rest ih => omega

theorem handledVisits (enough : lengthBits < 192 * fuel) : ∃ t, handlePackets fuel s (packetAt outV offset) lengthBits =
    some (t, (visits fuel s outV offset lengthBits).flatMap (fun x => (x.1.handlePacket (packetAt outV x.2)).2)) := by
  induction fuel generalizing s offset lengthBits with
  | zero => omega
  | succ fuel ih =>
    have long := lengthPositive (packetAt outV offset)
    simp only [handlePackets,visits,← packetLengthBytes.eq_1]
    by_cases short : lengthBits < packetLengthBytes (packetAt outV offset) * 8
    · simp [short]
    · simp only [short,if_false]
      by_cases done : lengthBits - packetLengthBytes (packetAt outV offset) * 8 < 2
      · exact ⟨(s.handlePacket (packetAt outV offset)).1,by simp [done]⟩
      · simp only [done,if_false]
        obtain ⟨t,later⟩ := @ih (s.handlePacket (packetAt outV offset)).1 (offset + packetLengthBytes (packetAt outV offset) * 8)
          (lengthBits - packetLengthBytes (packetAt outV offset) * 8) (by omega)
        refine ⟨t,?_⟩
        have shift : (fun i => packetAt outV offset (packetLengthBytes (packetAt outV offset) * 8 + i)) =
            packetAt outV (offset + packetLengthBytes (packetAt outV offset) * 8) := by
          funext i
          simp [packetAt,Nat.add_assoc]
        rw [shift,later]
        rfl

theorem visitsTile : ∃ last ≤ offset + lengthBits, Tiles outV offset ((visits fuel s outV offset lengthBits).map Prod.snd) last := by
  induction fuel generalizing s offset lengthBits with
  | zero => exact ⟨offset,by omega,.nil offset⟩
  | succ fuel ih =>
    simp only [visits]
    by_cases short : lengthBits < packetLengthBytes (packetAt outV offset) * 8
    · simp only [short,if_true]
      exact ⟨offset,by omega,.nil offset⟩
    · simp only [short,if_false]
      by_cases done : lengthBits - packetLengthBytes (packetAt outV offset) * 8 < 2
      · simp only [done,if_true]
        exact ⟨_,by omega,.cons (.nil _)⟩
      · simp only [done,if_false]
        obtain ⟨last,inside,tiles⟩ := @ih (s.handlePacket (packetAt outV offset)).1 (offset + packetLengthBytes (packetAt outV offset) * 8)
          (lengthBits - packetLengthBytes (packetAt outV offset) * 8)
        exact ⟨last,by omega,.cons tiles⟩

theorem visitsCover (enough : lengthBits < 192 * fuel) (tiles : Tiles outV offset offsets (offset + lengthBits)) :
    (visits fuel s outV offset lengthBits).map Prod.snd = offsets := by
  induction fuel generalizing s offset lengthBits offsets with
  | zero => omega
  | succ fuel ih =>
    have long := lengthPositive (packetAt outV offset)
    generalize total : offset + lengthBits = last at tiles
    simp only [visits]
    cases tiles with
    | nil =>
      have short : lengthBits < packetLengthBytes (packetAt outV offset) * 8 := by omega
      simp [short]
    | @cons _ _ offsets rest =>
      have forward := tilesForward rest
      have fits : ¬ lengthBits < packetLengthBytes (packetAt outV offset) * 8 := by omega
      simp only [fits,if_false,map_cons]
      refine congrArg (offset :: ·) ?_
      by_cases done : lengthBits - packetLengthBytes (packetAt outV offset) * 8 < 2
      · cases rest with
        | nil => simp [done]
        | cons later =>
          have beyond := tilesForward later
          have longer := lengthPositive (packetAt outV (offset + packetLengthBytes (packetAt outV offset) * 8))
          omega
      · simp only [done,if_false]
        refine ih (by omega) ?_
        rwa [show offset + packetLengthBytes (packetAt outV offset) * 8 + (lengthBits - packetLengthBytes (packetAt outV offset) * 8) =
          last by omega]

theorem assembleSeries (s : DataProcessor) (data : Bits) {wanted : Prop} [Decidable wanted]
    (fields : wanted ↔ s.mPacketState = 0 ∧ (firstLast data = 2 ∨ firstLast data = 3) ∨ s.mPacketState = 1 ∧ firstLast data ≠ 3) :
    (s.assemble data).1.mSeriesVec = s.mSeriesVec ++ (if wanted then useful data else []) ∨
      (s.assemble data).1.mSeriesVec = if wanted then useful data else [] := by
  have small : firstLast data < 4 := Fib.getBitsLt data 4 2
  rcases Nat.lt_trichotomy s.mPacketState 1 with zero | one | more
  · have waiting : s.mPacketState = 0 := by omega
    refine .inr ?_
    interval_cases kind : firstLast data <;> simp [assemble,waiting,kind,fields]
  · interval_cases kind : firstLast data <;> simp [assemble,one,kind,fields]
  · refine .inl ?_
    have other : s.mPacketState ≠ 0 ∧ s.mPacketState ≠ 1 := by omega
    simp [assemble,other,fields]

theorem copiedSeries (s : DataProcessor) (data : Bits) : Series s data := by
  unfold Series
  have bits : (copied s data).map data = if Copies s data then useful data else [] := by
    unfold copied useful
    split <;> simp [Function.comp_def]
  rw [bits]
  by_cases checked : s.mPacketAddress = address data ∧ continuityIndex data = s.mExpectedIndex ∧ crcCorrect data = true
  · obtain ⟨mine,next,correct⟩ := checked
    have series := assembleSeries { s with mFirstPacket := false, mExpectedIndex := (s.mExpectedIndex + 1) % 4 } data
      (show Copies s data ↔ _ by simp [Copies,mine,next,correct])
    simpa [handlePacket,mine,next,correct] using series
  · have none : ¬ Copies s data := fun copies => checked ⟨copies.1,copies.2.1,copies.2.2.1⟩
    refine .inl ?_
    by_cases mine : s.mPacketAddress = address data
    · by_cases next : continuityIndex data = s.mExpectedIndex
      · have wrong : ¬ crcCorrect data = true := fun correct => checked ⟨mine,next,correct⟩
        simp [handlePacket,mine,next,wrong,none]
      · simp [handlePacket,mine,next,none]
    · simp [handlePacket,mine,none]

theorem copiedInside : (∀ i ∈ copied s data, 24 ≤ i ∧ i < 8 * (packetLengthBytes data - 2)) ↔ UsefulFits s data := by
  have long := lengthPositive data
  unfold copied UsefulFits
  by_cases copies : Copies s data
  · rw [if_pos copies,imp_iff_right copies,forall_mem_map]
    constructor
    · intro inside
      rcases Nat.eq_zero_or_pos (usefulLength data) with none | positive
      · omega
      · have top := (inside (8 * usefulLength data - 1) (mem_range.mpr (by omega))).2
        omega
    · intro fits i member
      have small := mem_range.mp member
      omega
  · simp [copies]

theorem packetWalk (bitRate : Nat) (outV : Bits) (s : DataProcessor) : ((∃ t, handlePackets (bitRate + 1) s outV (24 * bitRate) =
        some (t, (visits (bitRate + 1) s outV 0 (24 * bitRate)).flatMap (fun x => (x.1.handlePacket (packetAt outV x.2)).2))) ∧
      (∃ last ≤ 24 * bitRate, Tiles outV 0 ((visits (bitRate + 1) s outV 0 (24 * bitRate)).map Prod.snd) last) ∧
      (∀ offsets, Tiles outV 0 offsets (24 * bitRate) → (visits (bitRate + 1) s outV 0 (24 * bitRate)).map Prod.snd = offsets) ∧
      ∀ x ∈ visits (bitRate + 1) s outV 0 (24 * bitRate), crcCorrect (packetAt outV x.2) = true → Series x.1 (packetAt outV x.2) ∧
        ∀ i ∈ copied x.1 (packetAt outV x.2), 24 ≤ i ∧ i < 8 * (packetLengthBytes (packetAt outV x.2) - 2)) ↔
    ∀ x ∈ visits (bitRate + 1) s outV 0 (24 * bitRate), UsefulFits x.1 (packetAt outV x.2) := by
  have whole : packetAt outV 0 = outV := by
    funext i
    simp [packetAt]
  have handled := @handledVisits s outV 0 (24 * bitRate) (bitRate + 1) (by omega)
  have tiles := @visitsTile s outV 0 (24 * bitRate) (bitRate + 1)
  rw [whole] at handled
  rw [Nat.zero_add] at tiles
  constructor
  · rintro ⟨-,-,-,inside⟩ x visited
    exact fun copies => copiedInside.mp (inside x visited copies.2.2.1).2 copies
  · intro fits
    refine ⟨handled,tiles,fun offsets cover => visitsCover (by omega) (by rwa [Nat.zero_add]),fun x visited _ => ?_⟩
    exact ⟨copiedSeries x.1 (packetAt outV x.2),copiedInside.mpr (fits x visited)⟩

def longUseful : Bits := fun i => (([0x0C,0x01,0x14] ++ replicate 19 0 ++ [0xF1,0xC0]).getD (i / 8) 0).testBit (7 - i % 8)

theorem crcBitsCopied : crcCorrect longUseful = true ∧ 176 ∈ copied (newDataProcessor 8 60 false 1) longUseful ∧
    (visits 9 (newDataProcessor 8 60 false 1) longUseful 0 (24 * 8)).map Prod.snd = [0] ∧
    (handlePackets 9 (newDataProcessor 8 60 false 1) longUseful (24 * 8)).map Prod.snd =
      some [replicate 152 false ++ [true,true,true,true,false,false,false,true]] := by decide +kernel

end DabStar.DataProcessor
