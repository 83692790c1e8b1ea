import DabStar.Galois
import DabStar.RingBuffer

/-! The reader of an rtl_tcp connection: the header once and then blocks of 4096 samples. A
sample is always made of the same two bytes of the stream, however it arrived. -/
namespace DabStar.RtlTcpClient
open List RingBuffer

def headerBytes : Nat := 12

def blockBytes : Nat := 2 * 4096

structure Client (F : Type) where
  socket : List U8 := []
  connections : Nat := 0
  dongleInfoReceived : Bool := false
  buffer : RingBuffer (F × F)
  totalSampleCnt : BitVec 64 := 0
  droppedSampleCnt : BitVec 64 := 0
  droppedSampleCntLastBurst : BitVec 64 := 0
  overflowActive : Bool := false
  offered : List (F × F) := []
  accepted : Nat := 0

variable {F : Type} [Inhabited F] (mapTable : U8 → F)

def samples (bytes : List U8) : List (F × F) :=
  (range (bytes.length / 2)).map fun i => (mapTable (bytes.getD (2 * i) 0#8), mapTable (bytes.getD (2 * i + 1) 0#8))

def readBlock (c : Client F) : Client F :=
  let complexBuffer := samples mapTable (c.socket.take blockBytes)
  let sampleCnt := complexBuffer.length
  let put := c.buffer.putDataIntoRingBuffer complexBuffer
  let storedCnt := put.2
  let c := { c with socket := c.socket.drop blockBytes, buffer := put.1, totalSampleCnt := c.totalSampleCnt + BitVec.ofNat 64 sampleCnt,
                    offered := c.offered ++ complexBuffer,
                    accepted := c.accepted + (put.1.contents.length - c.buffer.contents.length) }
  if storedCnt < sampleCnt then
    { c with droppedSampleCnt := c.droppedSampleCnt + BitVec.ofNat 64 (sampleCnt - storedCnt),
             droppedSampleCntLastBurst := c.droppedSampleCntLastBurst + BitVec.ofNat 64 (sampleCnt - storedCnt), overflowActive := true }
  else if c.overflowActive then { c with overflowActive := false, droppedSampleCntLastBurst := 0 }
  else c

theorem blockSocket (c : Client F) : (readBlock mapTable c).socket = c.socket.drop blockBytes := by
  unfold readBlock
  dsimp only
  split_ifs <;> rfl

def readBlocks (c : Client F) : Client F :=
  if blockBytes ≤ c.socket.length then readBlocks (readBlock mapTable c) else c
termination_by c.socket.length
decreasing_by
  rw [blockSocket,length_drop]
  unfold blockBytes at *
  omega

def slotReadData (c : Client F) : Client F :=
  let c := if c.dongleInfoReceived = false ∧ headerBytes ≤ c.socket.length then
    { c with socket := c.socket.drop headerBytes, dongleInfoReceived := true } else c
  if c.dongleInfoReceived then readBlocks mapTable c else c

inductive Event where
  | arrive (bytes : List U8)
  | readyRead
  | restartReader
  | stopReader
  | getSamples (size : Int)

def step (c : Client F) : Event → Client F
  | .arrive bytes => { c with socket := c.socket ++ bytes }
  | .readyRead => (slotReadData mapTable)^[c.connections] c
  | .restartReader => { c with connections := c.connections + 1 }
  | .stopReader => { c with connections := 0, buffer := c.buffer.flushRingBuffer }
  | .getSamples size => { c with buffer := (c.buffer.getDataFromRingBuffer size).1 }

def run (events : List Event) : Client F := events.foldl (step mapTable) { buffer := newRingBuffer (32 * 32768) }

def stream (events : List Event) : List U8 := events.flatMap fun
  | .arrive bytes => bytes
  | _ => []

/- Where the reader stands in the stream: before the header, or behind samples it has offered. -/
structure Aligned (bytes : List U8) (c : Client F) : Prop where
  waiting : c.dongleInfoReceived = false → c.socket = bytes ∧ c.offered = []
  taken : c.dongleInfoReceived = true → ∃ front, headerBytes ≤ bytes.length ∧ bytes.drop headerBytes = front ++ c.socket ∧
    2 ∣ front.length ∧ c.offered = samples mapTable front
  queue : ∃ q, Holds c.buffer q
  counted : c.totalSampleCnt - c.droppedSampleCnt = BitVec.ofNat 64 c.accepted

variable {bytes : List U8} {c : Client F}

omit [Inhabited F] in
theorem samplesAppend {front : List U8} (even : 2 ∣ front.length) (behind : List U8) :
    samples mapTable (front ++ behind) = samples mapTable front ++ samples mapTable behind := by
  obtain ⟨n,long⟩ := even
  have count : (front ++ behind).length / 2 = front.length / 2 + behind.length / 2 := by
    rw [length_append]
    omega
  unfold samples
  rw [count,range_add,map_append,map_map]
  congr 1
  · refine map_congr_left fun i inside => ?_
    rw [mem_range] at inside
    rw [getD_append _ _ _ _ (by omega),getD_append _ _ _ _ (by omega)]
  · refine map_congr_left fun i inside => ?_
    have places : 2 * (front.length / 2 + i) - front.length = 2 * i ∧ 2 * (front.length / 2 + i) + 1 - front.length = 2 * i + 1 := by omega
    simp only [Function.comp_apply]
    rw [getD_append_right _ _ _ _ (by omega),getD_append_right _ _ _ _ (by omega),places.1,places.2]

theorem flushHolds {β : Type} [Inhabited β] {rb : RingBuffer β} {q : List β} (holds : Holds rb q) : Holds rb.flushRingBuffer [] where
  sized := holds.sized
  small := holds.small
  big := holds.big
  cells := holds.cells
  reading := Nat.mul_pos two_pos holds.bounds.1
  writing := (Nat.zero_mod _).symm
  short := Nat.zero_le _
  contents := rfl

theorem countRest (total dropped : BitVec 64) {n m : Nat} (few : n ≤ m) :
    total + BitVec.ofNat 64 m - (dropped + BitVec.ofNat 64 (m - n)) = total - dropped + BitVec.ofNat 64 n := by
  obtain ⟨rest,rfl⟩ := Nat.exists_eq_add_of_le few
  rw [Nat.add_sub_cancel_left,BitVec.ofNat_add]
  grind

theorem blockCounts (aligned : Aligned mapTable bytes c) : (∃ q, Holds (readBlock mapTable c).buffer q) ∧
    (readBlock mapTable c).totalSampleCnt - (readBlock mapTable c).droppedSampleCnt = BitVec.ofNat 64 (readBlock mapTable c).accepted := by
  obtain ⟨q,holds⟩ := aligned.queue
  have counted := aligned.counted
  unfold readBlock
  dsimp only
  generalize samples mapTable (c.socket.take blockBytes) = block
  obtain ⟨stored,next⟩ := holds.put block
  rw [next.contentsHeld,holds.contentsHeld,stored,length_append,length_take,Nat.add_sub_cancel_left,Nat.min_comm block.length]
  generalize c.buffer.bufferSize - q.length = room at *
  have rest := countRest c.totalSampleCnt c.droppedSampleCnt (show min room block.length ≤ block.length by omega)
  rw [counted,← BitVec.ofNat_add] at rest
  split
  · exact ⟨⟨_,next⟩,rest⟩
  · next all =>
    rw [show block.length - min room block.length = 0 by omega,BitVec.add_zero] at rest
    split <;> exact ⟨⟨_,next⟩,rest⟩

theorem blockAligned (received : c.dongleInfoReceived = true) (aligned : Aligned mapTable bytes c) (full : blockBytes ≤ c.socket.length) :
    (readBlock mapTable c).dongleInfoReceived = true ∧ Aligned mapTable bytes (readBlock mapTable c) := by
  have flag : (readBlock mapTable c).dongleInfoReceived = true ∧
      (readBlock mapTable c).offered = c.offered ++ samples mapTable (c.socket.take blockBytes) := by
    unfold readBlock
    dsimp only
    split_ifs <;> exact ⟨received,rfl⟩
  obtain ⟨front,header,place,even,offered⟩ := aligned.taken received
  have block : (c.socket.take blockBytes).length = blockBytes := length_take_of_le full
  refine ⟨flag.1,fun waiting => absurd flag.1 (by simp [waiting]),fun _ => ⟨front ++ c.socket.take blockBytes,header,?_,?_,?_⟩,
    (blockCounts mapTable aligned).1,(blockCounts mapTable aligned).2⟩
  · rw [blockSocket,append_assoc,take_append_drop,place]
  · rw [length_append,block]
    exact even.add ⟨4096,rfl⟩
  · rw [flag.2,offered,samplesAppend mapTable even]

theorem blocksAligned (received : c.dongleInfoReceived = true) (aligned : Aligned mapTable bytes c) :
    Aligned mapTable bytes (readBlocks mapTable c) := by
  fun_induction readBlocks mapTable c with
  | case1 c full ih =>
    obtain ⟨received,aligned⟩ := blockAligned mapTable received aligned full
    exact ih received aligned
  | case2 c short => exact aligned

theorem slotAligned (aligned : Aligned mapTable bytes c) : Aligned mapTable bytes (slotReadData mapTable c) := by
  unfold slotReadData
  dsimp only
  by_cases header : c.dongleInfoReceived = false ∧ headerBytes ≤ c.socket.length
  · obtain ⟨waiting,none⟩ := aligned.waiting header.1
    rw [if_pos header,if_pos rfl]
    refine blocksAligned mapTable rfl ⟨nofun,fun _ => ⟨[],?_,?_,⟨0,rfl⟩,none⟩,aligned.queue,aligned.counted⟩
    · rw [← waiting]
      exact header.2
    · rw [waiting,nil_append]
  · rw [if_neg header]
    split
    · next received => exact blocksAligned mapTable received aligned
    · exact aligned

theorem stepAligned (aligned : Aligned mapTable bytes c) (event : Event) :
    Aligned mapTable (bytes ++ stream [event]) (step mapTable c event) := by
  obtain ⟨q,holds⟩ := aligned.queue
  simp only [stream,flatMap_cons,flatMap_nil,append_nil]
  cases event with
  | arrive more =>
    refine ⟨fun waiting => ?_,fun received => ?_,⟨q,holds⟩,aligned.counted⟩
    · obtain ⟨socket,none⟩ := aligned.waiting waiting
      exact ⟨by rw [step,socket],none⟩
    · obtain ⟨front,header,place,even,offered⟩ := aligned.taken received
      refine ⟨front,by rw [length_append]; omega,?_,even,offered⟩
      rw [drop_append_of_le_length header,place,append_assoc,step]
  | readyRead =>
    rw [append_nil,step]
    clear holds
    generalize c.connections = n
    induction n generalizing c with
    | zero => exact aligned
    | succ n ih => exact ih (slotAligned mapTable aligned)
  | restartReader =>
    rw [append_nil]
    exact ⟨aligned.waiting,aligned.taken,aligned.queue,aligned.counted⟩
  | stopReader =>
    rw [append_nil]
    exact ⟨aligned.waiting,aligned.taken,⟨[],flushHolds holds⟩,aligned.counted⟩
  | getSamples size =>
    rw [append_nil]
    exact ⟨aligned.waiting,aligned.taken,⟨_,(holds.get size).2⟩,aligned.counted⟩

theorem runAligned (events : List Event) : Aligned mapTable (stream events) (run mapTable events) := by
  induction events using List.reverseRecOn with
  | nil => exact ⟨fun _ => ⟨rfl,rfl⟩,nofun,⟨[],newHolds (by decide) (by decide)⟩,BitVec.sub_self 0⟩
  | append_singleton events event ih =>
    rw [stream,flatMap_append,run,foldl_append]
    exact stepAligned mapTable ih event

theorem samplesFromStream (events : List Event) : (run mapTable events).offered = (range (run mapTable events).offered.length).map (fun k =>
      (mapTable ((stream events).getD (12 + 2 * k) 0#8), mapTable ((stream events).getD (13 + 2 * k) 0#8))) ∧
    (0 < (run mapTable events).offered.length → 12 + 2 * (run mapTable events).offered.length ≤ (stream events).length) ∧
    (run mapTable events).totalSampleCnt - (run mapTable events).droppedSampleCnt = BitVec.ofNat 64 (run mapTable events).accepted := by
  have aligned := runAligned mapTable events
  generalize run mapTable events = c at aligned
  generalize stream events = bytes at aligned
  cases received : c.dongleInfoReceived with
  | false =>
    rw [(aligned.waiting received).2]
    exact ⟨rfl,nofun,aligned.counted⟩
  | true =>
    obtain ⟨front,header,place,even,offered⟩ := aligned.taken received
    have count : c.offered.length = front.length / 2 := by rw [offered,samples,length_map,length_range]
    have byte : ∀ i < front.length, front.getD i 0#8 = bytes.getD (12 + i) 0#8 := by
      intro i inside
      rw [← getD_append front c.socket _ _ inside,← place,getD_eq_getElem?_getD,getElem?_drop,← getD_eq_getElem?_getD]
      rfl
    refine ⟨?_,fun _ => ?_,aligned.counted⟩
    · rw [count,offered,samples]
      refine map_congr_left fun k inside => ?_
      rw [mem_range] at inside
      rw [byte _ (by omega),byte _ (by omega),← Nat.add_assoc,Nat.add_right_comm]
    · have long := congrArg List.length place
      rw [length_drop,length_append] at long
      unfold headerBytes at *
      omega

end DabStar.RtlTcpClient
