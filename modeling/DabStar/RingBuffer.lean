import DabStar.Lib.Ring

/-! The ring buffer between the threads (common/ringbuffer.h), over any element type. The
indices run modulo twice the size, so that a full buffer differs from an empty one; data
stands modulo the size. Indices and counts are 32-bit words. -/
namespace DabStar
open List

structure RingBuffer (β : Type) where
  bufferSize : Nat
  smallMask : Nat
  bigMask : Nat
  writeIndex : Nat
  readIndex : Nat
  buffer : List β
  deriving Repr

namespace RingBuffer
open Lib.Ring
variable {β : Type} [Inhabited β]

def roundUpToNextPowerOf2 (iVal : Nat) : Nat := if iVal = 0 then 1 else (smear (iVal - 1) + 1) % 2 ^ 32

def newRingBuffer (elementCount : Nat) : RingBuffer β :=
  let bufferSize := roundUpToNextPowerOf2 elementCount
  { bufferSize, smallMask := bufferSize - 1, bigMask := (bufferSize <<< 1) % 2 ^ 32 - 1, writeIndex := 0, readIndex := 0,
    buffer := replicate bufferSize default }

structure Regions where
  index : Nat
  size1 : Nat
  size2 : Nat
  elementCount : Nat
  deriving DecidableEq, Repr

section Code
variable (rb : RingBuffer β)

def getRingBufferReadAvailable : Nat := (2 ^ 32 + rb.writeIndex - rb.readIndex) % 2 ^ 32 &&& rb.bigMask

def getRingBufferWriteAvailable : Nat := (2 ^ 32 + rb.bufferSize - rb.getRingBufferReadAvailable) % 2 ^ 32

def advanceRingBufferWriteIndex (elementCount : Nat) : RingBuffer β :=
  { rb with writeIndex := (rb.writeIndex + elementCount) % 2 ^ 32 &&& rb.bigMask }

def advanceRingBufferReadIndex (elementCount : Nat) : RingBuffer β :=
  { rb with readIndex := (rb.readIndex + elementCount) % 2 ^ 32 &&& rb.bigMask }

def regions (available index elementCount : Nat) : Regions :=
  let elementCount := if elementCount > available then available else elementCount
  if (index + elementCount) % 2 ^ 32 > rb.bufferSize then
    ⟨index,rb.bufferSize - index,elementCount - (rb.bufferSize - index),elementCount⟩
  else ⟨index,elementCount,0,elementCount⟩

def getRingBufferWriteRegions : Nat → Regions := rb.regions rb.getRingBufferWriteAvailable (rb.writeIndex &&& rb.smallMask)

def getRingBufferReadRegions : Nat → Regions := rb.regions rb.getRingBufferReadAvailable (rb.readIndex &&& rb.smallMask)

def putDataIntoRingBuffer (data : List β) : RingBuffer β × Nat :=
  let r := rb.getRingBufferWriteRegions data.length
  let buffer :=
    if r.size2 > 0 then copy (copy rb.buffer r.index (data.take r.size1)) 0 ((data.drop r.size1).take r.size2)
    else copy rb.buffer r.index (data.take r.size1)
  (({ rb with buffer }).advanceRingBufferWriteIndex r.elementCount, r.elementCount)

/- A negative count becomes a large one. -/
def getDataFromRingBuffer (elementCount : Int) : RingBuffer β × List β × Nat :=
  let r := rb.getRingBufferReadRegions (elementCount % 2 ^ 32).toNat
  let data := (rb.buffer.drop r.index).take r.size1 ++ if r.size2 > 0 then rb.buffer.take r.size2 else []
  (rb.advanceRingBufferReadIndex r.elementCount, data, r.elementCount)

def skipDataInRingBuffer (nValues : Nat) : RingBuffer β × Nat :=
  let nValues := if (nValues : Int).bmod (2 ^ 32) > rb.getRingBufferReadAvailable then rb.getRingBufferReadAvailable else nValues
  (rb.advanceRingBufferReadIndex nValues, nValues)

def getWritableRingBufferSegment (iElemCnt : Nat) : Regions := rb.getRingBufferWriteRegions iElemCnt

/- What a producer does with a segment: whatever stands in it at the end, some of it is accepted. -/
def fillSegment (iElemCnt : Nat) (written : List β) (elementCount : Nat) : RingBuffer β :=
  ({ rb with buffer := copy rb.buffer (rb.getWritableRingBufferSegment iElemCnt).index written }).advanceRingBufferWriteIndex elementCount

def contents : List β := window rb.buffer rb.readIndex rb.getRingBufferReadAvailable

def flushRingBuffer : RingBuffer β := { rb with writeIndex := 0, readIndex := 0 }

end Code

/- The buffer holds a queue: its sizes are those of a power of two, and the elements of the
queue stand from the read index on. -/
structure Holds (rb : RingBuffer β) (q : List β) : Prop where
  sized : ∃ k ≤ 30, rb.bufferSize = 2 ^ k
  small : rb.smallMask = rb.bufferSize - 1
  big : rb.bigMask = 2 * rb.bufferSize - 1
  cells : rb.buffer.length = rb.bufferSize
  reading : rb.readIndex < 2 * rb.bufferSize
  writing : rb.writeIndex = (rb.readIndex + q.length) % (2 * rb.bufferSize)
  short : q.length ≤ rb.bufferSize
  contents : window rb.buffer rb.readIndex q.length = q

variable {rb : RingBuffer β} {q data : List β} {n : Nat}

omit [Inhabited β] in
theorem dropMin (n : Nat) (q : List β) : q.drop (min n q.length) = q.drop n := by
  rw [drop_eq_drop_iff]
  omega

theorem roundedUp {requested : Nat} (least : 1 ≤ requested) (most : requested ≤ 2 ^ 30) :
    ∃ k ≤ 30, roundUpToNextPowerOf2 requested = 2 ^ k ∧ requested ≤ 2 ^ k := by
  have short : (requested - 1).size ≤ 30 := Nat.size_le.mpr (by omega)
  have power : 2 ^ (requested - 1).size ≤ 2 ^ 30 := Nat.pow_le_pow_right (by omega) short
  have positive : 0 < 2 ^ (requested - 1).size := Nat.two_pow_pos _
  have above : requested - 1 < 2 ^ (requested - 1).size := Nat.lt_size_self _
  refine ⟨_,short,?_,by omega⟩
  unfold roundUpToNextPowerOf2
  rw [if_neg (by omega),smearMask (by omega),Nat.mod_eq_of_lt (by omega)]
  omega

theorem newHolds {requested : Nat} (least : 1 ≤ requested) (most : requested ≤ 2 ^ 30) :
    Holds (newRingBuffer requested : RingBuffer β) [] := by
  obtain ⟨k,most,rounded,-⟩ := roundedUp least most
  have power : 2 ^ k ≤ 2 ^ 30 := Nat.pow_le_pow_right (by omega) most
  have positive : 0 < 2 ^ k := Nat.two_pow_pos k
  have sizes : (newRingBuffer requested : RingBuffer β).bufferSize = 2 ^ k := rounded
  refine ⟨⟨k,most,sizes⟩,rfl,?_,length_replicate,?_,?_,Nat.zero_le _,rfl⟩
  · rw [sizes]
    show (roundUpToNextPowerOf2 requested <<< 1) % 2 ^ 32 - 1 = _
    rw [rounded,Nat.shiftLeft_eq,Nat.mod_eq_of_lt (by omega)]
    omega
  · rw [sizes]
    show 0 < _
    omega
  · exact (Nat.zero_mod _).symm

namespace Holds
variable (holds : Holds rb q)
include holds

theorem bounds : 0 < rb.bufferSize ∧ rb.bufferSize ≤ 2 ^ 30 := by
  obtain ⟨k,most,sized⟩ := holds.sized
  rw [sized]
  exact ⟨Nat.two_pow_pos k,Nat.pow_le_pow_right (by omega) most⟩

theorem smallMod (i : Nat) : i &&& rb.smallMask = i % rb.bufferSize := by
  obtain ⟨k,-,sized⟩ := holds.sized
  rw [holds.small,sized,Nat.and_two_pow_sub_one_eq_mod]

theorem bigMod (i : Nat) : i % 2 ^ 32 &&& rb.bigMask = i % (2 * rb.bufferSize) := by
  obtain ⟨k,most,sized⟩ := holds.sized
  rw [holds.big,sized,← Nat.pow_succ',Nat.and_two_pow_sub_one_eq_mod]
  exact Nat.mod_mod_of_dvd i (Nat.pow_dvd_pow 2 (by omega))

theorem readAvailable : rb.getRingBufferReadAvailable = q.length := by
  have bounds := holds.bounds
  have short := holds.short
  have reading := holds.reading
  have once : (rb.readIndex + q.length) % (2 * rb.bufferSize) =
      if rb.readIndex + q.length < 2 * rb.bufferSize then rb.readIndex + q.length else rb.readIndex + q.length - 2 * rb.bufferSize := by
    split
    · exact Nat.mod_eq_of_lt ‹_›
    · rw [Nat.mod_eq_sub_mod (by omega),Nat.mod_eq_of_lt (by omega)]
  obtain ⟨k,most,sized⟩ := holds.sized
  have whole : (2 * rb.bufferSize) ∣ 2 ^ 32 := by
    rw [sized,← Nat.pow_succ']
    exact Nat.pow_dvd_pow 2 (by omega)
  obtain ⟨rounds,whole⟩ := whole
  unfold getRingBufferReadAvailable
  rw [holds.bigMod,holds.writing,once]
  split
  · rw [show 2 ^ 32 + (rb.readIndex + q.length) - rb.readIndex = q.length + 2 * rb.bufferSize * rounds by omega,
      Nat.add_mul_mod_self_left,Nat.mod_eq_of_lt (by omega)]
  · have some : 1 ≤ rounds := by
      rcases Nat.eq_zero_or_pos rounds with rfl | positive
      · simp at whole
      · exact positive
    obtain ⟨more,rfl⟩ := Nat.exists_eq_add_of_le' some
    rw [Nat.mul_add,Nat.mul_one] at whole
    rw [show 2 ^ 32 + (rb.readIndex + q.length - 2 * rb.bufferSize) - rb.readIndex = q.length + 2 * rb.bufferSize * more by omega,
      Nat.add_mul_mod_self_left,Nat.mod_eq_of_lt (by omega)]

theorem contentsHeld : rb.contents = q := by
  unfold RingBuffer.contents
  rw [holds.readAvailable,holds.contents]

theorem writeAvailable : rb.getRingBufferWriteAvailable = rb.bufferSize - q.length := by
  have bounds := holds.bounds
  have short := holds.short
  unfold getRingBufferWriteAvailable
  rw [holds.readAvailable,show 2 ^ 32 + rb.bufferSize - q.length = rb.bufferSize - q.length + 2 ^ 32 by omega,Nat.add_mod_right,
    Nat.mod_eq_of_lt (by omega)]

theorem writeIndexMod : rb.writeIndex % rb.bufferSize = (rb.readIndex + q.length) % rb.bufferSize := by
  rw [holds.writing]
  exact Nat.mod_mod_of_dvd _ (Nat.dvd_mul_left _ _)

theorem append {written : List β} (room : q.length + written.length ≤ rb.bufferSize) (few : n ≤ written.length) :
    Holds (({ rb with buffer := wrapped rb.buffer (rb.writeIndex % rb.bufferSize) written }).advanceRingBufferWriteIndex n)
      (q ++ written.take n) := by
  have bounds := holds.bounds
  have cells := holds.cells
  have inside : rb.writeIndex % rb.bufferSize < rb.buffer.length := by
    rw [cells]
    exact Nat.mod_lt _ bounds.1
  have length : (wrapped rb.buffer (rb.writeIndex % rb.bufferSize) written).length = rb.buffer.length := wrappedLength inside (by omega)
  refine ⟨holds.sized,holds.small,holds.big,length.trans cells,holds.reading,?_,?_,?_⟩
  · show (rb.writeIndex + n) % 2 ^ 32 &&& rb.bigMask = _
    rw [holds.bigMod,holds.writing,Nat.mod_add_mod,length_append,length_take_of_le few,Nat.add_assoc]
    rfl
  · rw [length_append,length_take_of_le few]
    show _ ≤ rb.bufferSize
    omega
  · have before := @wrappedRest β _ rb.buffer written _ inside (by omega) rb.readIndex q.length (by rw [cells,holds.writeIndexMod])
      (by omega)
    have behind := @wrappedWindow β _ rb.buffer written _ inside (by omega)
    show window (wrapped rb.buffer (rb.writeIndex % rb.bufferSize) written) rb.readIndex _ = _
    rw [length_append,windowAdd,before,holds.contents,length_take_of_le few]
    congr 1
    rw [windowShift (show _ = (rb.writeIndex % rb.bufferSize) % _ by rw [length,cells,Nat.mod_mod,holds.writeIndexMod]),
      ← windowTake few,behind]

theorem advanceRead (few : n ≤ q.length) : Holds (rb.advanceRingBufferReadIndex n) (q.drop n) := by
  have bounds := holds.bounds
  have short := holds.short
  have index : (rb.advanceRingBufferReadIndex n).readIndex = (rb.readIndex + n) % (2 * rb.bufferSize) := holds.bigMod _
  refine ⟨holds.sized,holds.small,holds.big,holds.cells,?_,?_,?_,?_⟩
  · rw [index]
    exact Nat.mod_lt _ (show 0 < 2 * rb.bufferSize by omega)
  · show rb.writeIndex = (_ + _) % (2 * rb.bufferSize)
    rw [index,Nat.mod_add_mod,holds.writing,length_drop]
    congr 1
    omega
  · rw [length_drop]
    show _ ≤ rb.bufferSize
    omega
  · show window rb.buffer _ _ = _
    rw [windowShift (show _ = (rb.readIndex + n) % _ by
        rw [index,holds.cells]
        exact Nat.mod_mod_of_dvd _ (Nat.dvd_mul_left _ _)),length_drop,← windowDrop few,holds.contents]

theorem writeRegions (n : Nat) : rb.getRingBufferWriteRegions n =
    if rb.writeIndex % rb.bufferSize + min n (rb.bufferSize - q.length) > rb.bufferSize then
      ⟨rb.writeIndex % rb.bufferSize,rb.bufferSize - rb.writeIndex % rb.bufferSize,
        min n (rb.bufferSize - q.length) - (rb.bufferSize - rb.writeIndex % rb.bufferSize),min n (rb.bufferSize - q.length)⟩
    else ⟨rb.writeIndex % rb.bufferSize,min n (rb.bufferSize - q.length),0,min n (rb.bufferSize - q.length)⟩ := by
  have bounds := holds.bounds
  have inside : rb.writeIndex % rb.bufferSize < rb.bufferSize := Nat.mod_lt _ bounds.1
  have clipped : (if n > rb.bufferSize - q.length then rb.bufferSize - q.length else n) = min n (rb.bufferSize - q.length) := by
    split <;> omega
  unfold getRingBufferWriteRegions regions
  simp only [holds.writeAvailable,holds.smallMod,clipped]
  rw [Nat.mod_eq_of_lt (show _ < 2 ^ 32 by omega)]

theorem readRegions (n : Nat) : rb.getRingBufferReadRegions n = if rb.readIndex % rb.bufferSize + min n q.length > rb.bufferSize then
      ⟨rb.readIndex % rb.bufferSize,rb.bufferSize - rb.readIndex % rb.bufferSize,
        min n q.length - (rb.bufferSize - rb.readIndex % rb.bufferSize),min n q.length⟩
    else ⟨rb.readIndex % rb.bufferSize,min n q.length,0,min n q.length⟩ := by
  have bounds := holds.bounds
  have short := holds.short
  have inside : rb.readIndex % rb.bufferSize < rb.bufferSize := Nat.mod_lt _ bounds.1
  have clipped : (if n > q.length then q.length else n) = min n q.length := by split <;> omega
  unfold getRingBufferReadRegions regions
  simp only [holds.readAvailable,holds.smallMod,clipped]
  rw [Nat.mod_eq_of_lt (show _ < 2 ^ 32 by omega)]

theorem put (data : List β) : (rb.putDataIntoRingBuffer data).2 = min data.length (rb.bufferSize - q.length) ∧
    Holds (rb.putDataIntoRingBuffer data).1 (q ++ data.take (rb.bufferSize - q.length)) := by
  have short := holds.short
  have inside : rb.writeIndex % rb.bufferSize < rb.bufferSize := Nat.mod_lt _ holds.bounds.1
  have accepted : data.take (rb.bufferSize - q.length) = data.take (min data.length (rb.bufferSize - q.length)) := by
    rw [take_eq_take_iff]
    omega
  have result : rb.putDataIntoRingBuffer data =
      (({ rb with buffer := wrapped rb.buffer (rb.writeIndex % rb.bufferSize) (data.take (rb.bufferSize - q.length)) }).advanceRingBufferWriteIndex
        (min data.length (rb.bufferSize - q.length)), min data.length (rb.bufferSize - q.length)) := by
    have taken : (data.take (min data.length (rb.bufferSize - q.length))).length = min data.length (rb.bufferSize - q.length) :=
      length_take_of_le (by omega)
    unfold putDataIntoRingBuffer wrapped
    simp only [holds.writeRegions,accepted,taken,holds.cells]
    generalize min data.length (rb.bufferSize - q.length) = n
    split
    · have some : n - (rb.bufferSize - rb.writeIndex % rb.bufferSize) > 0 := by omega
      have front : min (rb.bufferSize - rb.writeIndex % rb.bufferSize) n = rb.bufferSize - rb.writeIndex % rb.bufferSize := by omega
      simp only [if_pos some,take_take,drop_take,front]
    · simp only [gt_iff_lt,Nat.lt_irrefl,if_false]
  rw [result]
  refine ⟨rfl,?_⟩
  have appended := @Holds.append β _ rb q (min data.length (rb.bufferSize - q.length)) holds (data.take (rb.bufferSize - q.length))
    (by rw [length_take]; omega) (by rw [length_take]; omega)
  rwa [take_take,show min (min data.length (rb.bufferSize - q.length)) (rb.bufferSize - q.length) = min data.length (rb.bufferSize - q.length) by omega,
    ← accepted] at appended

theorem get (elementCount : Int) : (rb.getDataFromRingBuffer elementCount).2 =
      (q.take (elementCount % 2 ^ 32).toNat, min (elementCount % 2 ^ 32).toNat q.length) ∧
    Holds (rb.getDataFromRingBuffer elementCount).1 (q.drop (elementCount % 2 ^ 32).toNat) := by
  generalize counted : (elementCount % 2 ^ 32).toNat = n
  have short := holds.short
  have cells := holds.cells
  have inside : rb.readIndex % rb.bufferSize < rb.bufferSize := Nat.mod_lt _ holds.bounds.1
  have taken : q.take n = window rb.buffer (rb.readIndex % rb.bufferSize) (min n q.length) := by
    rw [windowShift (show _ = rb.readIndex % _ by rw [cells,Nat.mod_mod]),← windowTake (Nat.min_le_right n q.length),holds.contents,
      take_eq_take_iff]
    omega
  have result : rb.getDataFromRingBuffer elementCount = (rb.advanceRingBufferReadIndex (min n q.length), q.take n, min n q.length) := by
    unfold getDataFromRingBuffer
    simp only [counted,holds.readRegions,taken]
    have few : min n q.length ≤ rb.bufferSize := by omega
    generalize min n q.length = m at few
    split
    · have some : m - (rb.bufferSize - rb.readIndex % rb.bufferSize) > 0 := by omega
      have turned : (rb.readIndex % rb.bufferSize + (rb.bufferSize - rb.readIndex % rb.bufferSize)) % rb.buffer.length = 0 % rb.buffer.length := by
        rw [Nat.add_sub_of_le (by omega),cells,Nat.mod_self,Nat.zero_mod]
      have pieces : window rb.buffer (rb.readIndex % rb.bufferSize) m =
          (rb.buffer.drop (rb.readIndex % rb.bufferSize)).take (rb.bufferSize - rb.readIndex % rb.bufferSize) ++
            rb.buffer.take (m - (rb.bufferSize - rb.readIndex % rb.bufferSize)) := by
        conv_lhs => rw [show m = rb.bufferSize - rb.readIndex % rb.bufferSize + (m - (rb.bufferSize - rb.readIndex % rb.bufferSize)) by omega]
        rw [windowAdd,windowStraight (by omega),windowShift turned,windowStraight (by omega),drop_zero]
      simp only [if_pos some,pieces]
    · rw [windowStraight (by omega)]
      simp only [gt_iff_lt,Nat.lt_irrefl,if_false,append_nil]
  rw [result]
  refine ⟨rfl,?_⟩
  have advanced := holds.advanceRead (Nat.min_le_right n q.length)
  rwa [dropMin] at advanced

theorem skip (moderate : n < 2 ^ 31) : (rb.skipDataInRingBuffer n).2 = min n q.length ∧ Holds (rb.skipDataInRingBuffer n).1 (q.drop n) := by
  have signed : (n : Int).bmod (2 ^ 32) = n := by rw [Int.bmod_eq_of_le] <;> omega
  have result : rb.skipDataInRingBuffer n = (rb.advanceRingBufferReadIndex (min n q.length), min n q.length) := by
    have clipped : (if (n : Int) > (q.length : Int) then q.length else n) = min n q.length := by split <;> omega
    unfold skipDataInRingBuffer
    simp only [signed,holds.readAvailable,clipped]
  rw [result]
  refine ⟨rfl,?_⟩
  have advanced := holds.advanceRead (Nat.min_le_right n q.length)
  rwa [dropMin] at advanced

theorem fill {iElemCnt : Nat} {written : List β} (whole : written.length = (rb.getWritableRingBufferSegment iElemCnt).size1)
    (few : n ≤ written.length) : Holds (rb.fillSegment iElemCnt written n) (q ++ written.take n) := by
  have short := holds.short
  have inside : rb.writeIndex % rb.bufferSize < rb.bufferSize := Nat.mod_lt _ holds.bounds.1
  have segment : (rb.getWritableRingBufferSegment iElemCnt).index = rb.writeIndex % rb.bufferSize ∧
      rb.writeIndex % rb.bufferSize + (rb.getWritableRingBufferSegment iElemCnt).size1 ≤ rb.bufferSize ∧
      q.length + (rb.getWritableRingBufferSegment iElemCnt).size1 ≤ rb.bufferSize := by
    unfold getWritableRingBufferSegment
    rw [holds.writeRegions]
    split <;> exact ⟨rfl,by dsimp only; omega,by dsimp only; omega⟩
  have straight : wrapped rb.buffer (rb.writeIndex % rb.bufferSize) written = copy rb.buffer (rb.writeIndex % rb.bufferSize) written := by
    unfold wrapped
    rw [if_neg]
    rw [whole,holds.cells]
    omega
  unfold fillSegment
  rw [segment.1,← straight]
  exact holds.append (by omega) few

end Holds

inductive Call (β : Type) where
  | put (data : List β)
  | fill (iElemCnt : Nat) (written : List β) (elementCount : Nat)
  | get (elementCount : Int)
  | skip (nValues : Nat)
  | advanceRead (elementCount : Nat)
  deriving DecidableEq, Repr

structure Report (β : Type) where
  moved : Option Nat
  elements : List β
  deriving DecidableEq, Repr

def step (rb : RingBuffer β) : Call β → RingBuffer β × Report β
  | .put data => ((rb.putDataIntoRingBuffer data).1, ⟨some (rb.putDataIntoRingBuffer data).2,[]⟩)
  | .fill iElemCnt written elementCount => (rb.fillSegment iElemCnt written elementCount, ⟨none,[]⟩)
  | .get elementCount =>
    let (next, data, numRead) := rb.getDataFromRingBuffer elementCount
    (next, ⟨some numRead,data⟩)
  | .skip nValues => ((rb.skipDataInRingBuffer nValues).1, ⟨some (rb.skipDataInRingBuffer nValues).2,[]⟩)
  | .advanceRead elementCount => (rb.advanceRingBufferReadIndex elementCount, ⟨none,[]⟩)

/- The counts are 32-bit numbers, a segment is filled as it was granted and accepted up to
that, and an advance stays within what is available. -/
def Permitted (rb : RingBuffer β) : Call β → Prop
  | .put data => data.length < 2 ^ 31
  | .fill iElemCnt written elementCount =>
    iElemCnt < 2 ^ 32 ∧ written.length = (rb.getWritableRingBufferSegment iElemCnt).size1 ∧ elementCount ≤ written.length
  | .get elementCount => -2 ^ 31 ≤ elementCount ∧ elementCount < 2 ^ 31
  | .skip nValues => nValues < 2 ^ 32
  | .advanceRead elementCount => elementCount ≤ rb.getRingBufferReadAvailable

structure Effect (β : Type) where
  accepted : List β
  left : Nat
  report : Report β

def effect (size : Nat) (q : List β) : Call β → Effect β
  | .put data => ⟨data.take (size - q.length),0,⟨some (min data.length (size - q.length)),[]⟩⟩
  | .fill _ written elementCount => ⟨written.take elementCount,0,⟨none,[]⟩⟩
  | .get elementCount =>
    let n := (elementCount % 2 ^ 32).toNat
    ⟨[],min n q.length,⟨some (min n q.length),q.take n⟩⟩
  | .skip nValues => ⟨[],min nValues q.length,⟨some (min nValues q.length),[]⟩⟩
  | .advanceRead elementCount => ⟨[],elementCount,⟨none,[]⟩⟩

def queueStep (size : Nat) (q : List β) (c : Call β) : List β := q.drop (effect size q c).left ++ (effect size q c).accepted

def Fifo (rb : RingBuffer β) (q : List β) : List (Call β) → Prop
  | [] => rb.getRingBufferReadAvailable = q.length ∧ q.length ≤ rb.bufferSize
  | c :: rest => (rb.getRingBufferReadAvailable = q.length ∧ q.length ≤ rb.bufferSize) ∧
      (rb.step c).2 = (effect rb.bufferSize q c).report ∧ Fifo (rb.step c).1 (queueStep rb.bufferSize q c) rest

def PermittedRun (rb : RingBuffer β) : List (Call β) → Prop
  | [] => True
  | c :: rest => rb.Permitted c ∧ PermittedRun (rb.step c).1 rest

def Moderate : Call β → Prop
  | .skip nValues => nValues < 2 ^ 31
  | _ => True

instance (c : Call β) : Decidable (Moderate c) := by cases c <;> (unfold Moderate; infer_instance)

theorem stepHolds {c : Call β} (holds : Holds rb q) (permitted : rb.Permitted c) (moderate : Moderate c) :
    (rb.step c).2 = (effect rb.bufferSize q c).report ∧ Holds (rb.step c).1 (queueStep rb.bufferSize q c) := by
  cases c with
  | put data =>
    obtain ⟨count,next⟩ := holds.put data
    exact ⟨by simp [step,effect,count],next⟩
  | fill iElemCnt written elementCount => exact ⟨rfl,holds.fill permitted.2.1 permitted.2.2⟩
  | get elementCount =>
    obtain ⟨result,next⟩ := holds.get elementCount
    refine ⟨by simp [step,effect,result],?_⟩
    simpa [queueStep,effect,step,dropMin] using next
  | skip nValues =>
    obtain ⟨count,next⟩ := holds.skip moderate
    refine ⟨by simp [step,effect,count],?_⟩
    simpa [queueStep,effect,step,dropMin] using next
  | advanceRead elementCount =>
    have few : elementCount ≤ q.length := holds.readAvailable ▸ permitted
    refine ⟨rfl,?_⟩
    simpa [queueStep,effect,step] using holds.advanceRead few

theorem stepExcessive {c : Call β} (holds : Holds rb q) (permitted : rb.Permitted c) (excessive : ¬ Moderate c) :
    (rb.step c).2 ≠ (effect rb.bufferSize q c).report := by
  cases c with
  | skip nValues =>
    have large : 2 ^ 31 ≤ nValues := Nat.le_of_not_lt excessive
    have word : nValues < 2 ^ 32 := permitted
    have bounds := holds.bounds
    have short := holds.short
    have signed : (nValues : Int).bmod (2 ^ 32) = nValues - 2 ^ 32 := by
      rw [Int.bmod_def]
      omega
    have kept : ¬ (nValues : Int).bmod (2 ^ 32) > (rb.getRingBufferReadAvailable : Int) := by omega
    have skipped : (rb.skipDataInRingBuffer nValues).2 = nValues := by
      unfold skipDataInRingBuffer
      simp only [if_neg kept]
    intro same
    have counts : (rb.skipDataInRingBuffer nValues).2 = min nValues q.length := Option.some.inj (congrArg Report.moved same)
    omega
  | put | fill | get | advanceRead => exact absurd trivial excessive

theorem runFifo {calls : List (Call β)} (holds : Holds rb q) (permitted : rb.PermittedRun calls) :
    Fifo rb q calls ↔ ∀ c ∈ calls, Moderate c := by
  induction calls generalizing rb q with
  | nil => exact iff_of_true ⟨holds.readAvailable,holds.short⟩ (fun _ member => nomatch member)
  | cons c rest ih =>
    rw [forall_mem_cons]
    constructor
    · rintro ⟨-,report,later⟩
      have moderate : Moderate c := by
        by_contra excessive
        exact stepExcessive holds permitted.1 excessive report
      exact ⟨moderate,(ih (stepHolds holds permitted.1 moderate).2 permitted.2).mp later⟩
    · rintro ⟨moderate,later⟩
      obtain ⟨report,next⟩ := stepHolds holds permitted.1 moderate
      exact ⟨⟨holds.readAvailable,holds.short⟩,report,(ih next permitted.2).mpr later⟩

theorem fifoQueue {requested : Nat} (least : 1 ≤ requested) (most : requested ≤ 2 ^ 30) (calls : List (Call β))
    (permitted : (newRingBuffer requested : RingBuffer β).PermittedRun calls) :
    Fifo (newRingBuffer requested : RingBuffer β) [] calls ↔ ∀ c ∈ calls, Moderate c := runFifo (newHolds least most) permitted

theorem oneElementQueued : (newRingBuffer 1 : RingBuffer Nat).PermittedRun [.put [7],.skip 1] ∧
    Fifo (newRingBuffer 1 : RingBuffer Nat) [] [.put [7],.skip 1] := by
  have permitted : (newRingBuffer 1 : RingBuffer Nat).PermittedRun [.put [7],.skip 1] :=
    ⟨show 1 < 2 ^ 31 by omega,show 1 < 2 ^ 32 by omega,trivial⟩
  exact ⟨permitted,(fifoQueue (by decide) (by decide) _ permitted).mpr (by decide)⟩

theorem longSkipReported : let full := ((newRingBuffer 1 : RingBuffer Nat).step (.put [7])).1
    full.Permitted (.skip (2 ^ 31)) ∧ (full.step (.skip (2 ^ 31))).2.moved = some (2 ^ 31) ∧ full.getRingBufferReadAvailable = 1 ∧
      (full.step (.skip (2 ^ 31))).1.getRingBufferReadAvailable = 1 := ⟨show 2 ^ 31 < 2 ^ 32 by omega,by decide,by decide,by decide⟩

end RingBuffer
end DabStar
