import DabStar.Galois
import DabStar.RingBuffer

/-! The thread that receives from a SpyServer. A negative result of recvfrom becomes a large
count for the ring buffer, so an error appends what stands in the static buffer. -/
namespace DabStar.SpyServerTcpClient
open List RingBuffer Lib.Ring

def tempBytes : Nat := 1000000

/- One round of the loop: what select, the query and recvfrom give back, none for -1. -/
structure Round where
  receivingStatus : Int
  bytesAvailable : Nat
  received : Option (List U8)
  fits : ∀ bytes, received = some bytes → bytes.length ≤ bytesAvailable

inductive Event where
  | round (r : Round)
  | sendData (data : List U8)
  | getData (elementCount : Int)

structure Client where
  tempBuffer8 : List U8 := replicate tempBytes 0
  inBuffer : RingBuffer U8 := newRingBuffer (64 * 32768)
  outBuffer : RingBuffer U8 := newRingBuffer 32768
  received : List U8 := []
  appended : List U8 := []
  touched : List Nat := []

def putDataIntoRingBuffer (rb : RingBuffer U8) (cell : Nat → U8) (elementCount : Int) : RingBuffer U8 × Nat :=
  let r := rb.getRingBufferWriteRegions (elementCount % 2 ^ 32).toNat
  let data := (range r.elementCount).map cell
  let buffer :=
    if r.size2 > 0 then copy (copy rb.buffer r.index (data.take r.size1)) 0 ((data.drop r.size1).take r.size2)
    else copy rb.buffer r.index (data.take r.size1)
  (({ rb with buffer }).advanceRingBufferWriteIndex r.elementCount, r.elementCount)

def overwrite (bytes temp : List U8) : List U8 := bytes ++ temp.drop bytes.length

def send (c : Client) : Client :=
  let amount := c.outBuffer.getRingBufferReadAvailable
  if amount > 0 then
    let get := c.outBuffer.getDataFromRingBuffer amount
    { c with outBuffer := get.1, tempBuffer8 := overwrite get.2.1 c.tempBuffer8, touched := c.touched ++ [get.2.2,amount] }
  else c

def receive (c : Client) (result : Option (List U8)) : Client :=
  let bytes := result.getD []
  let received : Int := match result with
    | some bytes => (bytes.length : Int).bmod (2 ^ 32)
    | none => -1
  let tempBuffer8 := overwrite bytes c.tempBuffer8
  let put := putDataIntoRingBuffer c.inBuffer (tempBuffer8.getD · 0) received
  { c with tempBuffer8, inBuffer := put.1, received := c.received ++ bytes,
           appended := c.appended ++ put.1.contents.drop c.inBuffer.contents.length, touched := c.touched ++ [bytes.length,put.2] }

def step (c : Client) : Event → Client
  | .round r => if r.receivingStatus = 0 then send c else receive c r.received
  | .sendData data => { c with outBuffer := (c.outBuffer.putDataIntoRingBuffer data).1 }
  | .getData elementCount => { c with inBuffer := (c.inBuffer.getDataFromRingBuffer elementCount).1 }

def run (events : List Event) : Client := events.foldl step {}

def Faithful (c : Client) : Prop := c.appended = c.received ∧ ∀ reach ∈ c.touched, reach ≤ tempBytes

def Acceptable (c : Client) : Event → Prop
  | .round r => r.receivingStatus ≠ 0 → match r.received with
    | some bytes => bytes.length ≤ tempBytes ∧ bytes.length ≤ c.inBuffer.getRingBufferWriteAvailable
    | none => c.inBuffer.getRingBufferWriteAvailable = 0
  | _ => True

structure Sound (c : Client) : Prop where
  incoming : ∃ q, Holds c.inBuffer q
  outgoing : ∃ q, Holds c.outBuffer q
  small : c.outBuffer.bufferSize ≤ tempBytes

variable {c : Client}

theorem putSame {rb : RingBuffer U8} {q : List U8} (holds : Holds rb q) (cell : Nat → U8) (elementCount : Int) :
    putDataIntoRingBuffer rb cell elementCount = rb.putDataIntoRingBuffer
      ((range (min (elementCount % 2 ^ 32).toNat (rb.bufferSize - q.length))).map cell) := by
  have again := Nat.min_eq_left (Nat.min_le_right (elementCount % 2 ^ 32).toNat (rb.bufferSize - q.length))
  unfold putDataIntoRingBuffer RingBuffer.putDataIntoRingBuffer
  simp only [holds.writeRegions,length_map,length_range,again]
  split <;> rfl

theorem sendSound (sound : Sound c) : Sound (send c) ∧ (Faithful c → Faithful (send c)) := by
  obtain ⟨incoming,⟨q,holds⟩,small⟩ := sound
  unfold send
  dsimp only
  split
  · obtain ⟨data,rest⟩ := holds.get c.outBuffer.getRingBufferReadAvailable
    have short := holds.short
    rw [holds.readAvailable] at data rest ⊢
    refine ⟨⟨incoming,⟨_,rest⟩,small⟩,fun faithful => ⟨faithful.1,?_⟩⟩
    simp only [data,mem_append,mem_cons,not_mem_nil,or_false]
    rintro reach (earlier | rfl | rfl)
    · exact faithful.2 reach earlier
    · omega
    · omega
  · exact ⟨⟨incoming,⟨q,holds⟩,small⟩,id⟩

def count (c : Client) (result : Option (List U8)) : Nat :=
  min ((match result with
    | some bytes => (bytes.length : Int).bmod (2 ^ 32)
    | none => -1) % 2 ^ 32).toNat c.inBuffer.getRingBufferWriteAvailable

theorem receiveTakes (sound : Sound c) (result : Option (List U8)) : Sound (receive c result) ∧
    (receive c result).received = c.received ++ result.getD [] ∧
    (receive c result).appended = c.appended ++ (range (count c result)).map ((overwrite (result.getD []) c.tempBuffer8).getD · 0) ∧
    (receive c result).touched = c.touched ++ [(result.getD []).length,count c result] := by
  obtain ⟨⟨q,holds⟩,outgoing,small⟩ := sound
  unfold receive count
  dsimp only
  rw [holds.writeAvailable,putSame holds]
  generalize ((match result with
    | some bytes => (bytes.length : Int).bmod (2 ^ 32)
    | none => -1) % 2 ^ 32).toNat = n
  obtain ⟨stored,next⟩ := holds.put ((range (min n (c.inBuffer.bufferSize - q.length))).map
    ((overwrite (result.getD []) c.tempBuffer8).getD · 0))
  rw [length_map,length_range,Nat.min_assoc,Nat.min_self] at stored
  rw [take_of_length_le (by simp)] at next
  refine ⟨⟨⟨_,next⟩,outgoing,small⟩,rfl,?_,?_⟩
  · rw [next.contentsHeld,holds.contentsHeld,drop_left]
  · rw [stored]

theorem overwritten (bytes temp : List U8) : (range bytes.length).map ((overwrite bytes temp).getD · 0) = bytes := by
  refine ext_getElem (by simp) fun i short _ => ?_
  simp only [length_map,length_range] at short
  simp [overwrite,getElem?_append_left short,List.getElem?_eq_getElem short]

theorem receiveFaithful (sound : Sound c) (faithful : Faithful c) (result : Option (List U8)) : Faithful (receive c result) ↔
    match result with
    | some bytes => bytes.length ≤ tempBytes ∧ bytes.length ≤ c.inBuffer.getRingBufferWriteAvailable
    | none => c.inBuffer.getRingBufferWriteAvailable = 0 := by
  obtain ⟨-,received,appended,touched⟩ := receiveTakes sound result
  obtain ⟨q,holds⟩ := sound.incoming
  have room : c.inBuffer.getRingBufferWriteAvailable ≤ 2 ^ 30 := by
    rw [holds.writeAvailable]
    have := holds.bounds
    omega
  have earlier : (∀ reach ∈ (receive c result).touched, reach ≤ tempBytes) ↔ (result.getD []).length ≤ tempBytes ∧ count c result ≤ tempBytes := by
    simp only [touched,mem_append,mem_cons,not_mem_nil,or_false,or_imp,forall_and,forall_eq]
    exact and_iff_right faithful.2
  unfold Faithful
  rw [earlier,appended,received,faithful.1,append_right_inj]
  cases result with
  | some bytes =>
    have number : count c (some bytes) = min (bytes.length % 2 ^ 32) c.inBuffer.getRingBufferWriteAvailable := by
      have word : (bytes.length : Int).bmod (2 ^ 32) % 2 ^ 32 = (bytes.length : Int) % 2 ^ 32 := Int.bmod_emod
      have small : ((bytes.length : Int).bmod (2 ^ 32) % 2 ^ 32).toNat = bytes.length % 2 ^ 32 := by
        rw [word]
        omega
      rw [count,small]
    dsimp only [Option.getD_some]
    constructor
    · rintro ⟨same,few,-⟩
      have long := congrArg List.length same
      rw [length_map,length_range] at long
      omega
    · rintro ⟨few,fits⟩
      have all : count c (some bytes) = bytes.length := by unfold tempBytes at few; omega
      rw [all]
      exact ⟨overwritten bytes _,few,few⟩
  | none =>
    have number : count c none = c.inBuffer.getRingBufferWriteAvailable := by
      simp only [count]
      omega
    rw [number]
    dsimp only [Option.getD_none]
    constructor
    · rintro ⟨same,-,-⟩
      simpa using congrArg List.length same
    · intro full
      rw [full]
      exact ⟨rfl,Nat.zero_le _,Nat.zero_le _⟩

theorem stepSound (sound : Sound c) (event : Event) : Sound (step c event) := by
  cases event with
  | round r =>
    rw [step]
    split
    · exact (sendSound sound).1
    · exact (receiveTakes sound r.received).1
  | sendData data =>
    obtain ⟨incoming,⟨q,holds⟩,small⟩ := sound
    exact ⟨incoming,⟨_,(holds.put data).2⟩,small⟩
  | getData elementCount =>
    obtain ⟨⟨q,holds⟩,outgoing,small⟩ := sound
    exact ⟨⟨_,(holds.get elementCount).2⟩,outgoing,small⟩

theorem stepFaithful (sound : Sound c) (faithful : Faithful c) (event : Event) : Faithful (step c event) ↔ Acceptable c event := by
  cases event with
  | round r =>
    rw [step,Acceptable]
    split
    · next timeout => exact iff_of_true ((sendSound sound).2 faithful) fun ready => absurd timeout ready
    · next ready => exact (receiveFaithful sound faithful r.received).trans ⟨fun holds _ => holds,fun holds => holds ready⟩
  | sendData data | getData elementCount => exact iff_of_true faithful trivial

theorem runSound (events : List Event) : Sound (run events) := by
  induction events using List.reverseRecOn with
  | nil => exact ⟨⟨[],newHolds (by decide) (by decide)⟩,⟨[],newHolds (by decide) (by decide)⟩,by decide⟩
  | append_singleton events event ih =>
    rw [run,foldl_append]
    exact stepSound ih event

def RunFaithful (events : List Event) : Prop := ∀ before, before <+: events → Faithful (run before)

theorem runStep (events : List Event) (event : Event) (faithful : RunFaithful events) :
    RunFaithful (events ++ [event]) ↔ Acceptable (run events) event := by
  rw [← stepFaithful (runSound events) (faithful events (prefix_refl _))]
  have last : step (run events) event = run (events ++ [event]) := by rw [run,run,foldl_append,foldl_cons,foldl_nil]
  rw [last]
  refine ⟨fun all => all _ (prefix_refl _),fun next before front => ?_⟩
  rcases prefix_concat_iff.mp front with rfl | earlier
  · exact next
  · exact faithful before earlier

theorem receivedExactly (events : List Event) : RunFaithful events ↔
    ∀ before event, before ++ [event] <+: events → Acceptable (run before) event := by
  induction events using List.reverseRecOn with
  | nil =>
    refine iff_of_true (fun before front => ?_) fun before event front => absurd (prefix_nil.mp front) (by simp)
    rw [prefix_nil.mp front]
    exact ⟨rfl,nofun⟩
  | append_singleton events event ih =>
    constructor
    · intro faithful before other front
      have start : RunFaithful before := fun earlier inner => faithful earlier (inner.trans ((prefix_append _ _).trans front))
      exact (runStep before other start).mp fun earlier inner => faithful earlier (inner.trans front)
    · intro acceptable
      have start := ih.mpr fun before other front => acceptable before other (front.trans (prefix_append _ _))
      exact (runStep events event start).mpr (acceptable events event (prefix_refl _))

theorem errorAppends : ¬ RunFaithful [.round ⟨1,0,none,nofun⟩] := by
  intro faithful
  have start : RunFaithful [] := fun before front => by
    rw [prefix_nil.mp front]
    exact ⟨rfl,nofun⟩
  have holds : Holds (run []).inBuffer [] := newHolds (by decide) (by decide)
  have full : (run []).inBuffer.getRingBufferWriteAvailable = 0 := (runStep [] _ start).mp faithful (by decide)
  rw [holds.writeAvailable] at full
  exact holds.bounds.1.ne' full

end DabStar.SpyServerTcpClient
