import DabStar.MotOrder

/-! How a MOT directory is put together. Its size and the number of its objects stand in
segment 0; the other segments may come in any order. The directory is analysed once, when
its last segment is there. -/
namespace DabStar
open List

theorem overwriteLength {vec bytes : List U8} {start : Nat} (fits : start + bytes.length ≤ vec.length) :
    (overwrite vec start bytes).length = vec.length := by
  unfold overwrite
  simp only [length_append,length_take,length_drop]
  omega

theorem overwriteGetD {vec bytes : List U8} {start : Nat} (fits : start + bytes.length ≤ vec.length) (i : Nat) :
    (overwrite vec start bytes).getD i 0#8 =
      if start ≤ i ∧ i < start + bytes.length then bytes.getD (i - start) 0#8 else vec.getD i 0#8 := by
  unfold overwrite
  have whole : bytes.take (vec.length - start) = bytes := take_of_length_le (by omega)
  have front : (vec.take start).length = start := by rw [length_take]; omega
  rw [whole]
  simp only [getD_eq_getElem?_getD]
  by_cases before : i < start
  · rw [append_assoc,List.getElem?_append_left (by omega),List.getElem?_take_of_lt before,if_neg (by omega)]
  · by_cases inside : i < start + bytes.length
    · rw [append_assoc,List.getElem?_append_right (by omega),List.getElem?_append_left (by omega),front,if_pos ⟨by omega,inside⟩]
    · rw [List.getElem?_append_right (by rw [length_append]; omega),length_append,front,List.getElem?_drop,if_neg (by omega)]
      rw [Nat.add_sub_cancel' (Nat.le_of_not_lt inside)]

theorem extGetD {a b : List U8} (length : a.length = b.length) (same : ∀ i < b.length, a.getD i 0#8 = b.getD i 0#8) : a = b := by
  refine ext_getElem length (fun i inA inB => ?_)
  have equal := same i inB
  rwa [getD_eq_getElem _ _ inA,getD_eq_getElem _ _ inB] at equal

theorem toI16Small {n : Int} (low : -32768 ≤ n) (high : n < 32768) : toI16 n = n := Int.bmod_eq_of_le_mul_two (by omega) (by omega)

theorem markedSet {marked : List Bool} {k n : Nat} (inside : n < marked.length) :
    (marked.set n true).getD k false = true ↔ k = n ∨ marked.getD k false = true := by
  rw [getD_eq_getElem?_getD,getD_eq_getElem?_getD,List.getElem?_set]
  by_cases here : n = k
  · subst here
    simp [inside]
  · simp [here,Ne.symm here]

theorem sliceGetD {vec : List U8} {i : Nat} {count : Nat} (inside : i < count) :
    (Mp4Processor.slice vec 0 count).getD i 0#8 = vec.getD i 0#8 := by
  unfold Mp4Processor.slice Mp4Processor.byteOf
  simp [inside]

inductive Listed (bytes : List U8) : Nat → Nat → List Nat → Prop where
  | full {base : Nat} : Listed bytes 0 base []
  | ended {count base : Nat} (zero : be16 bytes base = 0) : Listed bytes (count + 1) base []
  | object {count base : Nat} {ids : List Nat} {headerSize : Nat} (id : be16 bytes base ≠ 0)
      (size : (MotObject.readHeaderCore (bytes.drop (base + 2))).headerSize = headerSize)
      (header : 7 ≤ headerSize ∧ base + 2 + headerSize ≤ bytes.length)
      (rest : Listed bytes count (base + (2 + headerSize)) ids) : Listed bytes (count + 1) base (be16 bytes base :: ids)

def dirSizeOf (bytes : List U8) : Nat :=
  let b := fun i => (bytes.getD i 0#8).toNat
  ((b 0 &&& 0x3F) <<< 24) ||| (b 1 <<< 16) ||| (b 2 <<< 8) ||| b 3

structure MotDirectorySent where
  transportId : Nat
  bytes : List U8
  segmentSize : Nat
  number : Nat
  ids : List Nat
  some : 0 < number
  few : number ≤ 512
  whole : 13 ≤ bytes.length
  sized : segmentSize < 8192
  first : segmentSize ≤ bytes.length
  cut : (number - 1) * segmentSize < bytes.length ∧ bytes.length ≤ number * segmentSize
  announced : dirSizeOf bytes = bytes.length
  objects : be16 bytes 4 ≤ 32767
  listed : Listed bytes (be16 bytes 4) (11 + (2 + be16 bytes 11)) ids

namespace MotDirectory
variable {d : MotDirectory}

theorem setHandleFields (d : MotDirectory) (h : MotObject) (transportId : Nat) :
    ∃ components, d.setHandle h transportId = { d with motComponents := components } := by
  unfold setHandle
  split
  · exact ⟨_,rfl⟩
  · exact ⟨d.motComponents,rfl⟩

theorem analysedFields (count base : Nat) (d : MotDirectory) :
    ∃ components, analyseObjects count base d = { d with motComponents := components } := by
  induction count generalizing base d with
  | zero => exact ⟨d.motComponents,rfl⟩
  | succ count ih =>
    unfold analyseObjects
    dsimp only
    split
    · exact ⟨d.motComponents,rfl⟩
    · obtain ⟨first,set⟩ := setHandleFields d (MotObject.newMotObjectWithHeader true false
        (be16 d.dirSegments base) (d.dirSegments.drop (base + 2))) (be16 d.dirSegments base)
      rw [set]
      obtain ⟨components,rest⟩ := ih _ { d with motComponents := first }
      exact ⟨components,rest⟩

theorem getHandleIff {transportId : Nat} : (d.getHandle transportId).isSome = true ↔
    ∃ c, some c ∈ d.motComponents ∧ c.transportId = transportId := by
  unfold getHandle
  rw [List.findIdx?_isSome,any_eq_true]
  constructor
  · rintro ⟨c,member,same⟩
    obtain ⟨c,rfl,id⟩ := (Option.any_eq_true ..).mp same
    exact ⟨c,member,of_decide_eq_true id⟩
  · rintro ⟨c,member,same⟩
    exact ⟨some c,member,decide_eq_true same⟩

theorem setHandleFills {h : MotObject} {transportId : Nat} (free : 0 < d.motComponents.count none) :
    ((d.setHandle h transportId).getHandle transportId).isSome = true ∧
    (∀ id, (d.getHandle id).isSome = true → ((d.setHandle h transportId).getHandle id).isSome = true) ∧
    (d.setHandle h transportId).motComponents.count none + 1 = d.motComponents.count none := by
  cases found : d.motComponents.findIdx? Option.isNone with
  | none =>
    have filled := List.findIdx?_eq_none_iff.mp found none (count_pos_iff.mp free)
    exact nomatch filled
  | some i =>
    obtain ⟨inside,empty,-⟩ := List.findIdx?_eq_some_iff_getElem.mp found
    have slot : d.motComponents[i] = none := Option.isNone_iff_eq_none.mp empty
    have set : d.setHandle h transportId = { d with motComponents := d.motComponents.set i (some ⟨transportId,h⟩) } := by
      unfold setHandle
      rw [found]
    rw [set]
    refine ⟨getHandleIff.mpr ⟨_,mem_set inside _,rfl⟩,fun id known => ?_,?_⟩
    · obtain ⟨c,member,same⟩ := getHandleIff.mp known
      refine getHandleIff.mpr ⟨c,?_,same⟩
      obtain ⟨j,here,at_⟩ := getElem_of_mem member
      have apart : i ≠ j := by
        rintro rfl
        rw [slot] at at_
        exact nomatch at_
      exact mem_iff_getElem.mpr ⟨j,by rwa [length_set],by rw [getElem_set_ne apart]; exact at_⟩
    · have counted := count_set (a := some ⟨transportId,h⟩) (b := (none : Option MotComponent)) inside
      have positive := free
      dsimp only
      rw [slot] at counted
      simp at counted
      omega

theorem analysedFinds {count base : Nat} {ids : List Nat} (listed : Listed bytes count base ids) (same : d.dirSegments = bytes)
    (free : count ≤ d.motComponents.count none) : (∀ id ∈ ids, ((analyseObjects count base d).getHandle id).isSome = true) ∧
      ∀ id, (d.getHandle id).isSome = true → ((analyseObjects count base d).getHandle id).isSome = true := by
  induction listed generalizing d with
  | full => exact ⟨fun id member => (nomatch member),fun id known => known⟩
  | ended zero =>
    unfold analyseObjects
    rw [same,if_pos zero]
    exact ⟨fun id member => (nomatch member),fun id known => known⟩
  | @object count base ids headerSize id size header rest ih =>
    unfold analyseObjects
    rw [same,if_neg id]
    dsimp only
    let h := MotObject.newMotObjectWithHeader true false (be16 bytes base) (bytes.drop (base + 2))
    have sized : h.getHeaderSize = headerSize := size
    obtain ⟨new,kept,fewer⟩ := @setHandleFills d h (be16 bytes base) (by omega)
    obtain ⟨components,set⟩ := setHandleFields d h (be16 bytes base)
    obtain ⟨later,stays⟩ := @ih (d.setHandle h (be16 bytes base)) (by rw [set]; exact same) (by omega)
    rw [sized]
    refine ⟨fun id' member => ?_,fun id' known => stays id' (kept id' known)⟩
    rcases mem_cons.mp member with rfl | inside
    · exact stays _ new
    · exact later id' inside

end MotDirectory

namespace MotDirectorySent
variable {D : MotDirectorySent} {g : MotDataGroup}

def segment (D : MotDirectorySent) (k : Nat) : List U8 := (D.bytes.drop (k * D.segmentSize)).take D.segmentSize

def Sends (D : MotDirectorySent) (g : MotDataGroup) : Prop :=
  g.groupType = 6 ∧ g.transportId = D.transportId ∧ g.segmentNumber < D.number ∧
  g.lastFlag = decide (g.segmentNumber + 1 = D.number) ∧
  Mp4Processor.slice g.segment 0 g.segmentSize = D.segment g.segmentNumber

instance (D : MotDirectorySent) (g : MotDataGroup) : Decidable (D.Sends g) := by unfold Sends; infer_instance

def Complete (D : MotDirectorySent) (numbers : List Nat) : Prop := ∀ k < D.number, k ∈ numbers

instance (D : MotDirectorySent) (numbers : List Nat) : Decidable (D.Complete numbers) := by unfold Complete; infer_instance

variable (D : MotDirectorySent)

theorem segmentPositive : 0 < D.segmentSize := by
  have cut := D.cut.2
  have whole := D.whole
  rcases Nat.eq_zero_or_pos D.segmentSize with zero | positive
  · rw [zero,Nat.mul_zero] at cut
    omega
  · exact positive

theorem segmentLength {k : Nat} (small : k < D.number) : (D.segment k).length = min D.segmentSize (D.bytes.length - k * D.segmentSize) ∧
      k * D.segmentSize < D.bytes.length := by
  unfold segment
  refine ⟨by rw [length_take,length_drop],?_⟩
  calc k * D.segmentSize ≤ (D.number - 1) * D.segmentSize := Nat.mul_le_mul_right _ (by omega)
    _ < D.bytes.length := D.cut.1

theorem segmentGetD {k i : Nat} (inside : i < D.segmentSize) : (D.segment k).getD i 0#8 = D.bytes.getD (k * D.segmentSize + i) 0#8 := by
  unfold segment
  rw [getD_eq_getElem?_getD,getD_eq_getElem?_getD,List.getElem?_take_of_lt inside,List.getElem?_drop]

theorem onlyOne : D.bytes.length ≤ D.segmentSize ↔ D.number = 1 := by
  have positive := D.some
  constructor
  · intro short
    by_contra several
    have two : 1 * D.segmentSize ≤ (D.number - 1) * D.segmentSize := Nat.mul_le_mul_right _ (by omega)
    have cut := D.cut.1
    omega
  · intro one
    have cut := D.cut.2
    rw [one] at cut
    omega

theorem segmentWritten {k : Nat} (small : k < D.number) {vec : List U8} (length : vec.length = D.bytes.length) :
    (overwrite vec (k * D.segmentSize) (D.segment k)).length = D.bytes.length ∧
    ∀ i < D.bytes.length, (overwrite vec (k * D.segmentSize) (D.segment k)).getD i 0#8 =
      if i / D.segmentSize = k then D.bytes.getD i 0#8 else vec.getD i 0#8 := by
  obtain ⟨size,inside⟩ := D.segmentLength small
  have fits : k * D.segmentSize + (D.segment k).length ≤ vec.length := by omega
  refine ⟨(overwriteLength fits).trans length,fun i here => ?_⟩
  rw [overwriteGetD fits]
  have stretch : i / D.segmentSize = k ↔ k * D.segmentSize ≤ i ∧ i < k * D.segmentSize + D.segmentSize := by
    rw [Nat.div_eq_iff D.segmentPositive]
    have positive := D.segmentPositive
    omega
  by_cases own : i / D.segmentSize = k
  · obtain ⟨low,high⟩ := stretch.mp own
    rw [if_pos own,if_pos (by omega),D.segmentGetD (by omega),Nat.add_sub_cancel' low]
  · rw [if_neg own,if_neg]
    intro within
    exact own (stretch.mpr (by omega))

end MotDirectorySent

namespace MotDirectory
variable {D : MotDirectorySent} {d : MotDirectory} {g : MotDataGroup} {numbers : List Nat}

structure Assembling (D : MotDirectorySent) (numbers : List Nat) (d : MotDirectory) : Prop where
  id : d.transportId = D.transportId
  size : d.dirSegmentSize = D.segmentSize
  count : d.numObjects = be16 D.bytes 4
  first : 0 ∈ numbers
  marks : d.marked.length = 512 ∧ ∀ k < 512, d.marked.getD k false = true ↔ k ∈ numbers
  last : d.numDirSegments = if 1 < D.number ∧ D.number - 1 ∈ numbers then (D.number : Int) else -1
  length : d.dirSegments.length = D.bytes.length
  filled : ∀ i < D.bytes.length, i / D.segmentSize ∈ numbers → d.dirSegments.getD i 0#8 = D.bytes.getD i 0#8
  waiting : ¬ D.Complete numbers → d.motComponents = replicate (be16 D.bytes 4) none
  found : D.Complete numbers → ∀ id ∈ D.ids, (d.getHandle id).isSome = true

theorem assembledBytes (length : d.dirSegments.length = D.bytes.length)
    (filled : ∀ i < D.bytes.length, i / D.segmentSize ∈ numbers → d.dirSegments.getD i 0#8 = D.bytes.getD i 0#8)
    (complete : D.Complete numbers) : d.dirSegments = D.bytes := by
  refine extGetD length (fun i inside => filled i inside (complete _ ?_))
  rw [Nat.div_lt_iff_lt_mul D.segmentPositive]
  exact inside.trans_le D.cut.2

theorem analysedAll (bytes : d.dirSegments = D.bytes) (count : d.numObjects = be16 D.bytes 4)
    (waiting : d.motComponents = replicate (be16 D.bytes 4) none) : (∀ id ∈ D.ids, (d.analyseTheDirectory.getHandle id).isSome = true) ∧
      ∃ components, d.analyseTheDirectory = { d with motComponents := components } := by
  refine ⟨?_,analysedFields _ _ d⟩
  unfold analyseTheDirectory
  rw [count,Int.toNat_natCast,bytes]
  exact (analysedFinds D.listed bytes (by rw [waiting,count_replicate_self])).1

theorem assemblingSame {numbers' : List Nat} (assembling : Assembling D numbers d) (same : ∀ k, k ∈ numbers' ↔ k ∈ numbers) :
    Assembling D numbers' d := by
  have complete : D.Complete numbers' ↔ D.Complete numbers := forall₂_congr (fun k _ => same k)
  obtain ⟨id,size,count,first,marks,last,length,filled,waiting,found⟩ := assembling
  refine ⟨id,size,count,(same 0).mpr first,⟨marks.1,fun k small => (marks.2 k small).trans (same k).symm⟩,?_,length,
    fun i inside arrived => filled i inside ((same _).mp arrived),fun open_ => waiting (fun done => open_ (complete.mpr done)),
    fun done => found (complete.mp done)⟩
  rw [last]
  simp only [same]

theorem sentFirst (large : 6 ≤ D.segmentSize) (sends : D.Sends g) (zero : g.segmentNumber = 0) :
    g.segmentSize = D.segmentSize ∧ dirSizeOf g.segment = D.bytes.length ∧ be16 g.segment 4 = be16 D.bytes 4 := by
  obtain ⟨-,-,-,-,bytes⟩ := sends
  rw [zero] at bytes
  have size : g.segmentSize = D.segmentSize := by
    have length := congrArg List.length bytes
    rw [(D.segmentLength D.some).1,Nat.zero_mul,Nat.sub_zero,Nat.min_eq_left D.first] at length
    simpa [Mp4Processor.slice] using length
  have same : ∀ i < 6, g.segment.getD i 0#8 = D.bytes.getD i 0#8 := by
    intro i small
    have here : (Mp4Processor.slice g.segment 0 g.segmentSize).getD i 0#8 = (D.segment 0).getD i 0#8 := by rw [bytes]
    rw [D.segmentGetD (by omega),Nat.zero_mul,Nat.zero_add] at here
    rw [← here,sliceGetD (by omega)]
  refine ⟨size,?_,?_⟩
  · rw [← D.announced]
    unfold dirSizeOf
    simp only [same 0 (by decide),same 1 (by decide),same 2 (by decide),same 3 (by decide)]
  · unfold be16
    rw [same 4 (by decide),same 5 (by decide)]

theorem completeOne (D : MotDirectorySent) : D.Complete [0] ↔ D.number = 1 := by
  have positive := D.some
  constructor
  · intro complete
    have last := mem_singleton.mp (complete (D.number - 1) (by omega))
    omega
  · intro one k small
    exact mem_singleton.mpr (by omega)

theorem newAssembling (large : 6 ≤ D.segmentSize) (sends : D.Sends g) (zero : g.segmentNumber = 0) :
    let new := newMotDirectory g.transportId (toI16 g.segmentSize) (dirSizeOf g.segment) (toI16 (be16 g.segment 4)) g.segment
    Assembling D [0] new.1 ∧ new.2 = if D.Complete [0] then [D.bytes] else [] := by
  obtain ⟨size,length,objects⟩ := sentFirst large sends zero
  obtain ⟨-,id,small,-,bytes⟩ := sends
  have short : toI16 g.segmentSize = D.segmentSize := by
    rw [size]
    exact toI16Small (by omega) (by have sized := D.sized; omega)
  have few : toI16 (be16 g.segment 4) = be16 D.bytes 4 := by
    rw [objects]
    exact toI16Small (by omega) (by have objects' := D.objects; omega)
  rw [short,few,length,id]
  obtain ⟨written,filled⟩ := D.segmentWritten (zero ▸ small) (length_replicate (n := D.bytes.length) (a := 0#8))
  rw [size,zero] at bytes
  rw [Nat.zero_mul] at written filled
  unfold newMotDirectory
  dsimp only
  rw [bytes]
  let d : MotDirectory :=
    { transportId := D.transportId, numDirSegments := -1, numObjects := be16 D.bytes 4, dirSegmentSize := D.segmentSize
      dirSegments := overwrite (replicate D.bytes.length 0#8) 0 (D.segment 0)
      motComponents := replicate (be16 D.bytes 4) none, marked := (replicate 512 false).set 0 true }
  have arrived : ∀ i < D.bytes.length, i / D.segmentSize ∈ [0] → d.dirSegments.getD i 0#8 = D.bytes.getD i 0#8 := by
    intro i inside own
    exact (filled i inside).trans (if_pos (mem_singleton.mp own))
  have marks : d.marked.length = 512 ∧ ∀ k < 512, d.marked.getD k false = true ↔ k ∈ [0] := by
    refine ⟨(length_set ..).trans length_replicate,fun k small => ?_⟩
    rw [mem_singleton,markedSet (by rw [length_replicate]; decide),getD_replicate _ small]
    simp only [Bool.false_eq_true,or_false]
  have last : d.numDirSegments = if 1 < D.number ∧ D.number - 1 ∈ [0] then (D.number : Int) else -1 := by
    rw [if_neg]
    rintro ⟨several,only⟩
    have := mem_singleton.mp only
    omega
  have started : ∀ d' : MotDirectory, (∃ components, d' = { d with motComponents := components }) →
      (¬ D.Complete [0] → d'.motComponents = replicate (be16 D.bytes 4) none) →
      (D.Complete [0] → ∀ id ∈ D.ids, (d'.getHandle id).isSome = true) → Assembling D [0] d' := by
    rintro _ ⟨components,rfl⟩ waiting found
    exact ⟨rfl,rfl,rfl,mem_singleton.mpr rfl,marks,last,written,arrived,waiting,found⟩
  by_cases one : D.number = 1
  · have complete := (completeOne D).mpr one
    obtain ⟨found,fields⟩ := @analysedAll D d (assembledBytes written arrived complete) rfl rfl
    rw [if_pos (by exact_mod_cast D.onlyOne.mpr one),if_pos complete]
    exact ⟨started _ fields (absurd complete) (fun _ => found),congrArg (fun vec => [vec]) (assembledBytes written arrived complete)⟩
  · have open_ : ¬ D.Complete [0] := fun complete => one ((completeOne D).mp complete)
    rw [if_neg (fun short => one (D.onlyOne.mp (by exact_mod_cast short))),if_neg open_]
    exact ⟨started d ⟨d.motComponents,rfl⟩ (fun _ => rfl) (fun complete => absurd complete open_),rfl⟩

theorem segmentAgain (assembling : Assembling D numbers d) (sends : D.Sends g) (known : g.segmentNumber ∈ numbers) :
    d.directorySegment g.transportId g.segment g.segmentNumber g.segmentSize g.lastFlag = (d, []) := by
  obtain ⟨-,id,small,-,-⟩ := sends
  unfold directorySegment
  rw [assembling.id,if_neg (fun other => other id.symm),if_pos ((assembling.marks.2 _ (small.trans_le D.few)).mpr known)]

theorem segmentNew (assembling : Assembling D numbers d) (sends : D.Sends g) (new : g.segmentNumber ∉ numbers) :
    let result := d.directorySegment g.transportId g.segment g.segmentNumber g.segmentSize g.lastFlag
    Assembling D (numbers ++ [g.segmentNumber]) result.1 ∧
      result.2 = if D.Complete (numbers ++ [g.segmentNumber]) then [D.bytes] else [] := by
  obtain ⟨-,id,small,last,bytes⟩ := sends
  have several : 1 < D.number := by
    have apart : g.segmentNumber ≠ 0 := fun zero => new (zero ▸ assembling.first)
    omega
  have open_ : ¬ D.Complete numbers := fun complete => new (complete _ small)
  have within := small.trans_le D.few
  obtain ⟨written,filled⟩ := D.segmentWritten small assembling.length
  have place : ((g.segmentNumber : Int) * d.dirSegmentSize).toNat = g.segmentNumber * D.segmentSize := by
    rw [assembling.size]
    exact_mod_cast Int.toNat_natCast _
  have counted : toI16 ((g.segmentNumber : Int) + 1) = g.segmentNumber + 1 := by exact toI16Small (by omega) (by omega)
  unfold directorySegment
  rw [if_neg (fun other => other (assembling.id.trans id.symm)),if_neg (fun marked => new ((assembling.marks.2 _ within).mp marked))]
  dsimp only
  rw [place,bytes,counted]
  let d' : MotDirectory := { d with
    numDirSegments := if g.lastFlag then (g.segmentNumber : Int) + 1 else d.numDirSegments
    marked := d.marked.set g.segmentNumber true
    dirSegments := overwrite d.dirSegments (g.segmentNumber * D.segmentSize) (D.segment g.segmentNumber) }
  have arrived : ∀ i < D.bytes.length, i / D.segmentSize ∈ numbers ++ [g.segmentNumber] →
      d'.dirSegments.getD i 0#8 = D.bytes.getD i 0#8 := by
    intro i inside own
    refine (filled i inside).trans ?_
    by_cases here : i / D.segmentSize = g.segmentNumber
    · rw [if_pos here]
    · rw [if_neg here]
      rcases mem_append.mp own with before | now
      · exact assembling.filled i inside before
      · exact absurd (mem_singleton.mp now) here
  have marks : d'.marked.length = 512 ∧ ∀ k < 512, d'.marked.getD k false = true ↔ k ∈ numbers ++ [g.segmentNumber] := by
    refine ⟨(length_set ..).trans assembling.marks.1,fun k inside => ?_⟩
    rw [mem_append,mem_singleton,← assembling.marks.2 k inside,markedSet (by rw [assembling.marks.1]; exact within)]
    exact or_comm
  have lastCount : d'.numDirSegments = if 1 < D.number ∧ D.number - 1 ∈ numbers ++ [g.segmentNumber] then (D.number : Int) else -1 := by
    show (if g.lastFlag then (g.segmentNumber : Int) + 1 else d.numDirSegments) = _
    rw [last,assembling.last]
    by_cases final : g.segmentNumber + 1 = D.number
    · rw [if_pos (decide_eq_true final),if_pos ⟨several,mem_append_right _ (mem_singleton.mpr (by omega))⟩]
      omega
    · rw [if_neg (by simpa using final)]
      have other : D.number - 1 ≠ g.segmentNumber := by omega
      simp [several,other]
  have grown : ∀ e : MotDirectory, (∃ components, e = { d' with motComponents := components }) →
      (¬ D.Complete (numbers ++ [g.segmentNumber]) → e.motComponents = replicate (be16 D.bytes 4) none) →
      (D.Complete (numbers ++ [g.segmentNumber]) → ∀ id ∈ D.ids, (e.getHandle id).isSome = true) →
      Assembling D (numbers ++ [g.segmentNumber]) e := by
    rintro _ ⟨components,rfl⟩ waiting found
    exact ⟨assembling.id,assembling.size,assembling.count,mem_append_left _ assembling.first,marks,lastCount,written,
      arrived,waiting,found⟩
  have full : (d'.numDirSegments ≠ -1 ∧ (range d'.numDirSegments.toNat).all (fun i => d'.marked.getD i false) = true) ↔
      D.Complete (numbers ++ [g.segmentNumber]) := by
    rw [lastCount]
    by_cases final : D.number - 1 ∈ numbers ++ [g.segmentNumber]
    · rw [if_pos ⟨several,final⟩,Int.toNat_natCast,all_eq_true]
      constructor
      · rintro ⟨-,all⟩ k inside
        exact (marks.2 k (inside.trans_le D.few)).mp (all k (mem_range.mpr inside))
      · intro complete
        refine ⟨by omega,fun k inside => ?_⟩
        have inside := mem_range.mp inside
        exact (marks.2 k (inside.trans_le D.few)).mpr (complete k inside)
    · rw [if_neg (fun both => final both.2)]
      exact ⟨fun wrong => absurd rfl wrong.1,fun complete => absurd (complete _ (by omega)) final⟩
  have waiting := assembling.waiting open_
  by_cases complete : D.Complete (numbers ++ [g.segmentNumber])
  · obtain ⟨found,fields⟩ := @analysedAll D d' (assembledBytes written arrived complete) assembling.count waiting
    rw [if_pos (full.mpr complete),if_pos complete]
    exact ⟨grown _ fields (absurd complete) (fun _ => found),congrArg (fun vec => [vec]) (assembledBytes written arrived complete)⟩
  · rw [if_neg (fun done => complete (full.mp done)),if_neg complete]
    exact ⟨grown d' ⟨d'.motComponents,rfl⟩ (fun _ => waiting) (fun done => absurd done complete),rfl⟩

end MotDirectory

namespace MotHandler
open MotTransfer MotDirectory
variable {D : MotDirectorySent} {s : MotHandler} {g : MotDataGroup} {numbers : List Nat}

def runGroups (s : MotHandler) (mscs : List (List Bool)) : MotHandler := mscs.foldl (fun s msc => (s.addMscDataGroup msc).next) s

def analyses : MotHandler → List (List Bool) → List (List U8)
  | _, [] => []
  | s, msc :: rest => (s.addMscDataGroup msc).analysed ++ analyses (s.addMscDataGroup msc).next rest

def numbersIn (mscs : List (List Bool)) : List Nat := (groupsIn mscs).map MotDataGroup.segmentNumber

def Holds (D : MotDirectorySent) (numbers : List Nat) (s : MotHandler) : Prop := ∃ d, s.mpDirectory = some d ∧ Assembling D numbers d

theorem handleFound (holds : Holds D numbers s) (complete : D.Complete numbers) {id : Nat} (listed : id ∈ D.ids) :
    (s.getHandle id).isSome = true := by
  obtain ⟨d,here,assembling⟩ := holds
  have found := assembling.found complete id listed
  unfold getHandle
  rw [here]
  split
  · rfl
  · dsimp only
    rwa [Option.isSome_map]

theorem handleDirectory (type : g.groupType = 6) : s.handleGroup g = s.directoryGroup g := by
  unfold handleGroup
  rw [type]
  rfl

theorem directoryFirst {new : MotDirectory × List (List U8)} (zero : g.segmentNumber = 0)
    (unknown : ¬ s.mpDirectory.any (fun d => d.transportId = g.transportId) = true)
    (made : newMotDirectory g.transportId (toI16 g.segmentSize) (dirSizeOf g.segment) (toI16 (be16 g.segment 4)) g.segment = new) :
    s.directoryGroup g = { next := { s with mpDirectory := some new.1 }, analysed := new.2 } := by
  unfold directoryGroup
  rw [if_pos zero,if_neg unknown]
  obtain ⟨d,analysed⟩ := new
  extract_lets segment b dirSize numObjects
  have same : newMotDirectory g.transportId (toI16 g.segmentSize) dirSize (toI16 numObjects) segment = (d, analysed) := made
  rw [same]

theorem firstHeld (large : 6 ≤ D.segmentSize) (other : s.mpDirectory.any (fun d => d.transportId = D.transportId) = false)
    (sends : D.Sends g) (zero : g.segmentNumber = 0) :
    Holds D [0] (s.handleGroup g).next ∧ (s.handleGroup g).analysed = if D.Complete [0] then [D.bytes] else [] := by
  have type : g.groupType = 6 := sends.1
  have unknown : ¬ s.mpDirectory.any (fun d => d.transportId = g.transportId) = true := by
    rw [sends.2.1,other]
    exact Bool.false_ne_true
  have started := newAssembling large sends zero
  obtain ⟨new,made⟩ : ∃ new, newMotDirectory g.transportId (toI16 g.segmentSize) (dirSizeOf g.segment)
    (toI16 (be16 g.segment 4)) g.segment = new := ⟨_,rfl⟩
  rw [made] at started
  rw [handleDirectory type,directoryFirst zero unknown made]
  exact ⟨⟨new.1,rfl,started.1⟩,started.2⟩

theorem segmentHeld (holds : Holds D numbers s) (sends : D.Sends g) :
    Holds D (numbers ++ [g.segmentNumber]) (s.handleGroup g).next ∧ (s.handleGroup g).analysed =
      if ¬ D.Complete numbers ∧ D.Complete (numbers ++ [g.segmentNumber]) then [D.bytes] else [] := by
  obtain ⟨d,here,assembling⟩ := holds
  have type : g.groupType = 6 := sends.1
  have own : d.transportId = g.transportId := assembling.id.trans sends.2.1.symm
  by_cases known : g.segmentNumber ∈ numbers
  · have same : ∀ k, k ∈ numbers ++ [g.segmentNumber] ↔ k ∈ numbers := by
      intro k
      rw [mem_append,mem_singleton]
      exact ⟨fun member => member.elim (fun before => before) (fun now => now ▸ known),.inl⟩
    have kept : s.handleGroup g = { next := s } := by
      rw [handleDirectory type]
      unfold directoryGroup
      by_cases zero : g.segmentNumber = 0
      · rw [if_pos zero,if_pos (by rw [here]; exact decide_eq_true own)]
      · rw [if_neg zero,here]
        dsimp only
        rw [if_neg (fun apart => apart own),segmentAgain assembling sends known,← here]
    rw [kept,if_neg (fun both => both.1 (fun k small => (same k).mp (both.2 k small)))]
    exact ⟨⟨d,here,assemblingSame assembling same⟩,rfl⟩
  · have later : g.segmentNumber ≠ 0 := fun zero => known (zero ▸ assembling.first)
    have open_ : ¬ D.Complete numbers := fun complete => known (complete _ sends.2.2.1)
    obtain ⟨grown,analysed⟩ := segmentNew assembling sends known
    have step : s.directoryGroup g =
        { next := { s with
            mpDirectory := some (d.directorySegment g.transportId g.segment g.segmentNumber g.segmentSize g.lastFlag).1 },
          analysed := (d.directorySegment g.transportId g.segment g.segmentNumber g.segmentSize g.lastFlag).2 } := by
      unfold directoryGroup
      rw [if_neg later,here]
      dsimp only
      rw [if_neg (fun apart => apart own)]
    rw [handleDirectory type,step]
    refine ⟨⟨_,rfl,grown⟩,analysed.trans ?_⟩
    exact if_congr ⟨fun complete => ⟨open_,complete⟩,And.right⟩ rfl rfl

theorem numbersCons {msc : List Bool} (decoded : decodeGroup msc = some g) (rest : List (List Bool)) :
    numbersIn (msc :: rest) = g.segmentNumber :: numbersIn rest := by
  unfold numbersIn groupsIn
  rw [filterMap_cons_some decoded,map_cons]

theorem addDecoded {msc : List Bool} (decoded : decodeGroup msc = some g) : s.addMscDataGroup msc = s.handleGroup g := by
  unfold addMscDataGroup
  rw [decoded]

theorem segmentsHeld (mscs : List (List Bool)) (sent : ∀ msc ∈ mscs, ∃ g, decodeGroup msc = some g ∧ D.Sends g)
    (holds : Holds D numbers s) : Holds D (numbers ++ numbersIn mscs) (s.runGroups mscs) ∧ analyses s mscs =
      if ¬ D.Complete numbers ∧ D.Complete (numbers ++ numbersIn mscs) then [D.bytes] else [] := by
  induction mscs generalizing s numbers with
  | nil =>
    have none : numbersIn [] = [] := rfl
    rw [none,append_nil,if_neg (fun both => both.1 both.2)]
    exact ⟨holds,rfl⟩
  | cons msc rest ih =>
    rw [forall_mem_cons] at sent
    obtain ⟨⟨g,decoded,sends⟩,later⟩ := sent
    obtain ⟨next,analysed⟩ := segmentHeld holds sends
    obtain ⟨final,analysedLater⟩ := ih later next
    have all : numbers ++ numbersIn (msc :: rest) = numbers ++ [g.segmentNumber] ++ numbersIn rest := by
      rw [numbersCons decoded,append_assoc]
      rfl
    have more : ∀ {a b : List Nat}, D.Complete a → D.Complete (a ++ b) := fun complete k small =>
      mem_append_left _ (complete k small)
    unfold runGroups analyses
    rw [foldl_cons,addDecoded decoded,all]
    refine ⟨final,?_⟩
    rw [analysed,analysedLater]
    by_cases before : D.Complete numbers
    · rw [if_neg (fun both => both.1 before),if_neg (fun both => both.1 (more before)),if_neg (fun both => both.1 before)]
      rfl
    · by_cases now : D.Complete (numbers ++ [g.segmentNumber])
      · rw [if_pos ⟨before,now⟩,if_neg (fun both => both.1 now),if_pos ⟨before,more now⟩]
        rfl
      · rw [if_neg (fun both => now both.2),nil_append]
        exact if_congr (and_congr_left fun _ => ⟨fun _ => before,fun _ => now⟩) rfl rfl

theorem directoryAssembled (D : MotDirectorySent) (large : 6 ≤ D.segmentSize) (s : MotHandler)
    (other : s.mpDirectory.any (fun d => d.transportId = D.transportId) = false) (first : List Bool) (rest : List (List Bool))
    (sent : ∀ msc ∈ first :: rest, ∃ g, decodeGroup msc = some g ∧ D.Sends g) (zero : numbersIn [first] = [0])
    (received : List (List Bool)) (part : received <+: first :: rest) :
    analyses s received = (if D.Complete (numbersIn received) then [D.bytes] else []) ∧
    (D.Complete (numbersIn received) → ∀ id ∈ D.ids, ((s.runGroups received).getHandle id).isSome = true ∧
      ∃ d, (s.runGroups received).mpDirectory = some d ∧ (d.getHandle id).isSome = true) := by
  rcases prefix_cons_iff.mp part with rfl | ⟨later,rfl,front⟩
  · have open_ : ¬ D.Complete (numbersIn []) := fun complete => nomatch complete 0 D.some
    rw [if_neg open_]
    exact ⟨rfl,fun complete => absurd complete open_⟩
  · rw [forall_mem_cons] at sent
    obtain ⟨⟨g,decoded,sends⟩,sentLater⟩ := sent
    have start : g.segmentNumber = 0 := by
      rw [numbersCons decoded] at zero
      exact head_eq_of_cons_eq zero
    obtain ⟨held,analysed⟩ := firstHeld large other sends start
    obtain ⟨holds,analysedLater⟩ := segmentsHeld later (fun msc member => sentLater msc (front.subset member)) held
    have all : numbersIn (first :: later) = [0] ++ numbersIn later := by rw [numbersCons decoded,start]; rfl
    unfold runGroups analyses
    rw [foldl_cons,addDecoded decoded,all]
    refine ⟨?_,fun complete id listed => ⟨handleFound holds complete listed,?_⟩⟩
    · have more : D.Complete [0] → D.Complete ([0] ++ numbersIn later) := fun complete k small =>
        mem_append_left _ (complete k small)
      rw [analysed,analysedLater]
      by_cases before : D.Complete [0]
      · rw [if_pos before,if_neg (fun both => both.1 before),if_pos (more before)]
        rfl
      · rw [if_neg before,nil_append]
        exact if_congr ⟨And.right,fun complete => ⟨before,complete⟩⟩ rfl rfl
    · obtain ⟨d,here,assembling⟩ := holds
      exact ⟨d,here,assembling.found complete id listed⟩

def smallDirectory : List U8 :=
  [0x00#8,0x00#8,0x00#8,0x16#8,0x00#8,0x01#8,0x00#8,0x00#8,0x00#8,0x00#8,0x00#8,0x00#8,0x00#8,0x00#8,0x05#8,
    0x00#8,0x00#8,0x00#8,0x00#8,0x03#8,0x80#8,0x00#8]

def cutDirectory (segmentSize number : Nat) (cut : (number - 1) * segmentSize < 22 ∧ 22 ≤ number * segmentSize)
    (few : number ≤ 512) (sized : segmentSize ≤ 22) : MotDirectorySent where
  transportId := 9
  bytes := smallDirectory
  segmentSize := segmentSize
  number := number
  ids := [5]
  some := by
    by_contra none
    have zero : number = 0 := by omega
    rw [zero,Nat.zero_mul] at cut
    omega
  few := few
  whole := by decide
  sized := by omega
  first := sized
  cut := cut
  announced := by decide
  objects := by decide
  listed := @Listed.object smallDirectory 0 13 [] 7 (by decide) (by decide) (by decide) .full

def directoryPart (D : MotDirectorySent) (k : Nat) : List Bool := groupBits 6 k (k + 1 = D.number) D.transportId (D.segment k)

def twoSegments : MotDirectorySent := cutDirectory 11 2 (by decide) (by decide) (by decide)

def sixSegments : MotDirectorySent := cutDirectory 4 6 (by decide) (by decide) (by decide)

theorem sentDecided {D : MotDirectorySent} {mscs : List (List Bool)}
    (decided : ∀ msc ∈ mscs, (decodeGroup msc).any (fun g => D.Sends g) = true) :
    ∀ msc ∈ mscs, ∃ g, decodeGroup msc = some g ∧ D.Sends g := by
  intro msc member
  obtain ⟨g,same,sends⟩ := (Option.any_eq_true ..).mp (decided msc member)
  exact ⟨g,same,of_decide_eq_true sends⟩

theorem smallDirectoryAssembled :
    analyses {} [directoryPart twoSegments 0,directoryPart twoSegments 1,directoryPart twoSegments 1] = [smallDirectory] := by
  have assembled := directoryAssembled twoSegments (by decide) {} rfl (directoryPart twoSegments 0)
    [directoryPart twoSegments 1,directoryPart twoSegments 1] (sentDecided (by decide +kernel)) (by decide +kernel) _
    (prefix_refl _)
  exact assembled.1.trans (if_pos (by decide +kernel))

theorem shortFirstSegment : (∀ msc ∈ (directoryPart sixSegments 0 ++ bitsOf 16 0) :: [1,2,3,4,5].map (directoryPart sixSegments),
      (decodeGroup msc).any (fun g => sixSegments.Sends g) = true) ∧ 5 ∈ sixSegments.ids ∧
    analyses {} ((directoryPart sixSegments 0 ++ bitsOf 16 0) :: [1,2,3,4,5].map (directoryPart sixSegments)) = [smallDirectory] ∧
    (runGroups {} ((directoryPart sixSegments 0 ++ bitsOf 16 0) :: [1,2,3,4,5].map (directoryPart sixSegments))).getHandle 5 = none := by
  decide +kernel

end MotHandler
end DabStar
