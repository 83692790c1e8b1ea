import DabStar.MotHandler
import DabStar.RingBuffer
import DabStar.Lib.Accesses
import DabStar.Lib.OnesComplement

/-! IP over DAB (backend/data/ip_datahandler.cpp): the datagram of a data group is copied and,
when it is UDP and its checksum is correct, the payload is put into the data buffer. -/
namespace DabStar.IpDataHandler
open List
open Fib (Bits getBits getBits1 getBits4 getBitsLt)
open MotHandler (checkCrcBits)
open Lib.Accesses

inductive IpMemory where
  | group
  | ipVector
  | dataBuffer
  deriving DecidableEq, Repr

abbrev IpAccess := Access IpMemory

def groupReads (msc : List Bool) (first count : Nat) : List IpAccess := stretch IpMemory.group msc.length first count

def vectorReads (size first count : Nat) : List IpAccess := stretch IpMemory.ipVector size first count

section Header
variable (msc : List Bool)

def bits : Bits := fun i => msc.getD i false

def extensionFlag : Prop := getBits1 (bits msc) 0 ≠ 0
  deriving Decidable
def crcFlag : Prop := getBits1 (bits msc) 1 ≠ 0
  deriving Decidable
def segmentFlag : Prop := getBits1 (bits msc) 2 ≠ 0
  deriving Decidable
def userAccessFlag : Prop := getBits1 (bits msc) 3 ≠ 0
  deriving Decidable

def Damaged : Prop := crcFlag msc ∧ ¬ checkCrcBits msc
  deriving Decidable

def segmentField : Nat := 16 + if extensionFlag msc then 16 else 0
def userField : Nat := segmentField msc + if segmentFlag msc then 16 else 0

def transportIdFlag : Prop := userAccessFlag msc ∧ getBits1 (bits msc) (userField msc + 3) ≠ 0
  deriving Decidable

def next : Nat := userField msc + if userAccessFlag msc then 8 + getBits4 (bits msc) (userField msc + 4) * 8 else 0

def crcBits : Nat := if crcFlag msc then 16 else 0

def ipLength : Nat := getBits (bits msc) (next msc + 16) 16

def groupByte (i : Nat) : U8 := BitVec.ofNat 8 (getBits (bits msc) (next msc + 8 * i) 8)

def ipVector : List U8 := (range (ipLength msc)).map (groupByte msc)

end Header

structure IpState where
  dataBuffer : RingBuffer U8
  datagrams : List Int

section Datagram
variable (v : List U8)

def byte (i : Nat) : Nat := (v.getD i 0#8).toNat

def word (i : Nat) : Nat := (byte v i <<< 8) ||| byte v (i + 1)

def version : Nat := byte v 0 >>> 4
def headerSize : Nat := byte v 0 &&& 0x0F
def ipSize : Int := toI16 (word v 2)
def protocol : Nat := byte v 9

def headerWords : List Nat := (range (2 * headerSize v)).map (fun i => word v (2 * i))

def checkSum : Nat := Lib.OnesComplement.fold (headerWords v).sum

def ChecksumFails : Prop := 0xFFFF - checkSum v % 65536 ≠ 0
  deriving Decidable

def processUdpVector (s : IpState) (data : List U8) (length : Int) : IpState :=
  let room := min ((length - 8) % 2 ^ 32).toNat s.dataBuffer.getRingBufferWriteAvailable
  { dataBuffer := (s.dataBuffer.putDataIntoRingBuffer ((range room).map (fun i => data.getD (8 + i) 0#8))).1,
    datagrams := s.datagrams ++ [length - 8] }

def udpLength : Int := toI16 (ipSize v - 4 * headerSize v)

def processIpVector (s : IpState) : IpState :=
  if ChecksumFails v then s
  else if protocol v = 17 then processUdpVector s (v.drop (4 * headerSize v)) (udpLength v)
  else s

def udpAccesses : List IpAccess :=
  .resize .dataBuffer (udpLength v - 8) :: vectorReads v.length (4 * headerSize v + 8) (udpLength v - 8).toNat

def processIpVectorAccesses : List IpAccess :=
  vectorReads v.length 0 4 ++ vectorReads v.length 9 1 ++ vectorReads v.length 0 (4 * headerSize v) ++
    if ¬ ChecksumFails v ∧ protocol v = 17 then udpAccesses v else []

end Datagram

section Code
variable (msc : List Bool)

def addMscDataGroup (s : IpState) : IpState :=
  if Damaged msc then s
  else if ipLength msc < msc.length / 8 then
    if version (ipVector msc) ≠ 4 then s else processIpVector (ipVector msc) s
  else s

/- The loop counter is an i16, which becomes negative behind its largest value. -/
def copyAccesses : List IpAccess :=
  groupReads msc (next msc) (8 * min (ipLength msc) (2 ^ 15)) ++ vectorReads (ipLength msc) 0 (min (ipLength msc) (2 ^ 15)) ++
    if 2 ^ 15 ≤ ipLength msc then [Access.touch IpMemory.ipVector (-2 ^ 15) (ipLength msc)] else []

def headerAccesses : List IpAccess :=
  (if segmentFlag msc then groupReads msc (segmentField msc) 16 else []) ++
  (if userAccessFlag msc then groupReads msc (userField msc + 3) 5 else []) ++
  (if transportIdFlag msc then groupReads msc (userField msc + 8) 16 else []) ++ groupReads msc (next msc + 16) 16

def datagramAccesses : List IpAccess :=
  copyAccesses msc ++ vectorReads (ipLength msc) 0 1 ++
    if version (ipVector msc) ≠ 4 then [] else processIpVectorAccesses (ipVector msc)

def accesses : List IpAccess :=
  groupReads msc 0 4 ++ (if crcFlag msc then groupReads msc 0 msc.length else []) ++
    if Damaged msc then []
    else headerAccesses msc ++ if ipLength msc < msc.length / 8 then datagramAccesses msc else []

end Code

section Meaning
variable (msc : List Bool)

structure HoldsUdp : Prop where
  intact : ¬ Damaged msc
  complete : next msc + 8 * ipLength msc + crcBits msc ≤ msc.length
  four : version (ipVector msc) = 4
  header : 5 ≤ headerSize (ipVector msc)
  checksum : Lib.OnesComplement.sum (headerWords (ipVector msc)) = 0xFFFF
  udp : protocol (ipVector msc) = 17
  covers : 4 * headerSize (ipVector msc) + 8 ≤ ipLength msc

def payload : List U8 :=
  (range (ipLength msc - (4 * headerSize (ipVector msc) + 8))).map (fun i => groupByte msc (4 * headerSize (ipVector msc) + 8 + i))

def Delivers (s : IpState) : Prop :=
  (HoldsUdp msc → (addMscDataGroup msc s).dataBuffer.contents = s.dataBuffer.contents ++ payload msc ∧
    (addMscDataGroup msc s).datagrams = s.datagrams ++ [((payload msc).length : Int)]) ∧
  (¬ HoldsUdp msc → (addMscDataGroup msc s).dataBuffer.contents = s.dataBuffer.contents ∧ (addMscDataGroup msc s).datagrams = s.datagrams)

structure HeaderFits : Prop where
  segment : segmentFlag msc → segmentField msc + 16 ≤ msc.length
  access : userAccessFlag msc → userField msc + 8 ≤ msc.length
  transport : transportIdFlag msc → userField msc + 24 ≤ msc.length
  length : next msc + 32 ≤ msc.length

/- So does the datagram, as long as it is copied; it covers its header, and when it is taken
for UDP, it also covers the UDP header, is not followed by less than the checksum of the
group and finds room in the buffer. -/
structure DatagramFits (room : Nat) : Prop where
  copied : 1 ≤ ipLength msc ∧ ipLength msc < 2 ^ 15 ∧ next msc + 8 * ipLength msc ≤ msc.length
  header : version (ipVector msc) = 4 → 10 ≤ ipLength msc ∧ 4 * headerSize (ipVector msc) ≤ ipLength msc
  udp : version (ipVector msc) = 4 → ¬ ChecksumFails (ipVector msc) → protocol (ipVector msc) = 17 →
    5 ≤ headerSize (ipVector msc) ∧ 4 * headerSize (ipVector msc) + 8 ≤ ipLength msc ∧
    next msc + 8 * ipLength msc + crcBits msc ≤ msc.length ∧ ipLength msc ≤ 4 * headerSize (ipVector msc) + 8 + room

def Fits (room : Nat) : Prop := 4 ≤ msc.length ∧ (¬ Damaged msc → HeaderFits msc ∧ (ipLength msc < msc.length / 8 → DatagramFits msc room))

end Meaning

theorem getBitsSplit (d : Bits) (offset first : Nat) : ∀ second : Nat,
    getBits d offset (first + second) = getBits d offset first * 2 ^ second + getBits d (offset + first) second
  | 0 => by simp [getBits]
  | second + 1 => by
    show 2 * getBits d offset (first + second) + (d (offset + (first + second))).toNat = _
    rw [getBitsSplit d offset first second]
    simp only [getBits,Nat.pow_succ,Nat.add_assoc]
    ring

section Fields
variable {msc : List Bool} {v : List U8}

theorem groupReadsInside {first count : Nat} : Inside (groupReads msc first count) ↔ count = 0 ∨ first + count ≤ msc.length := by
  unfold groupReads
  rw [stretchInside]
  omega

theorem vectorReadsInside {size first count : Nat} : Inside (vectorReads size first count) ↔ count = 0 ∨ first + count ≤ size := by
  unfold vectorReads
  rw [stretchInside]
  omega

@[simp] theorem ipVectorLength : (ipVector msc).length = ipLength msc := by simp [ipVector]

theorem ipVectorGet {i : Nat} (within : i < ipLength msc) : (ipVector msc).getD i 0#8 = groupByte msc i := by simp [ipVector,within]

theorem vectorByte {i : Nat} (within : i < ipLength msc) : byte (ipVector msc) i = getBits (bits msc) (next msc + 8 * i) 8 := by
  unfold byte
  rw [ipVectorGet within]
  exact Nat.mod_eq_of_lt (getBitsLt ..)

theorem wordValue (i : Nat) : word v i = byte v i * 2 ^ 8 + byte v (i + 1) := by
  have low : byte v (i + 1) < 2 ^ 8 := BitVec.isLt _
  unfold word
  rw [← Nat.shiftLeft_add_eq_or_of_lt low,Nat.shiftLeft_eq]

theorem wordSmall (i : Nat) : word v i < 65536 := by
  have high : byte v i < 2 ^ 8 := BitVec.isLt _
  have low : byte v (i + 1) < 2 ^ 8 := BitVec.isLt _
  rw [wordValue]
  omega

theorem ipSizeExact (long : 4 ≤ ipLength msc) (short : ipLength msc < 2 ^ 15) : ipSize (ipVector msc) = ipLength msc := by
  have whole : word (ipVector msc) 2 = ipLength msc := by
    rw [wordValue,vectorByte (by omega),vectorByte (by omega)]
    exact (getBitsSplit (bits msc) (next msc + 16) 8 8).symm
  unfold ipSize toI16
  rw [whole,Int.bmod_eq_of_le] <;> omega

theorem udpLengthExact (long : 4 ≤ ipLength msc) (short : ipLength msc < 2 ^ 15) (header : 4 * headerSize (ipVector msc) ≤ ipLength msc) :
    udpLength (ipVector msc) = ipLength msc - 4 * headerSize (ipVector msc) := by
  unfold udpLength toI16
  rw [ipSizeExact long short,Int.bmod_eq_of_le] <;> omega

theorem checksumExact : ¬ ChecksumFails v ↔ Lib.OnesComplement.sum (headerWords v) = 0xFFFF := by
  have small : ∀ w ∈ headerWords v, w < 65536 := forall_mem_map.mpr fun i _ => wordSmall (2 * i)
  have most : (headerWords v).sum ≤ (headerWords v).length * 65535 :=
    sum_le_card_nsmul _ _ fun w member => Nat.le_of_lt_succ (small w member)
  have few : (headerWords v).length ≤ 30 := by
    have header : headerSize v ≤ 15 := Nat.and_le_right
    simp only [headerWords,length_map,length_range]
    omega
  have exact := Lib.OnesComplement.foldExact small (by omega)
  unfold ChecksumFails checkSum
  rw [← exact]
  omega

theorem nextBeyond : 16 ≤ next msc := by
  unfold next userField segmentField
  omega

end Fields

section Trace
variable {msc : List Bool}

structure DatagramInside (msc : List Bool) : Prop where
  copied : 1 ≤ ipLength msc ∧ ipLength msc < 2 ^ 15 ∧ next msc + 8 * ipLength msc ≤ msc.length
  header : version (ipVector msc) = 4 → 10 ≤ ipLength msc ∧ 4 * headerSize (ipVector msc) ≤ ipLength msc
  udp : version (ipVector msc) = 4 → ¬ ChecksumFails (ipVector msc) → protocol (ipVector msc) = 17 →
    4 * headerSize (ipVector msc) + 8 ≤ ipLength msc

theorem headerInside : Inside (headerAccesses msc) ↔ HeaderFits msc := by
  unfold headerAccesses
  simp only [insideAppend,insideWhen,groupReadsInside]
  constructor
  · rintro ⟨⟨⟨segment,access⟩,transport⟩,length⟩
    refine ⟨fun flag => ?_,fun flag => ?_,fun flag => ?_,by omega⟩
    · have := segment flag
      omega
    · have := access flag
      omega
    · have := transport flag
      omega
  · rintro ⟨segment,access,transport,length⟩
    refine ⟨⟨⟨fun flag => ?_,fun flag => ?_⟩,fun flag => ?_⟩,by omega⟩
    · have := segment flag
      omega
    · have := access flag
      omega
    · have := transport flag
      omega

theorem copyInside : Inside (copyAccesses msc) ∧ Inside (vectorReads (ipLength msc) 0 1) ↔
    1 ≤ ipLength msc ∧ ipLength msc < 2 ^ 15 ∧ next msc + 8 * ipLength msc ≤ msc.length := by
  unfold copyAccesses
  simp only [insideAppend,insideWhen,insideCons,insideNil,touchInside,groupReadsInside,vectorReadsInside]
  omega

theorem udpInside (long : 4 ≤ ipLength msc) (short : ipLength msc < 2 ^ 15) (header : 4 * headerSize (ipVector msc) ≤ ipLength msc) :
    Inside (udpAccesses (ipVector msc)) ↔ 4 * headerSize (ipVector msc) + 8 ≤ ipLength msc := by
  unfold udpAccesses
  rw [insideCons,resizeInside,vectorReadsInside,udpLengthExact long short header,ipVectorLength]
  omega

theorem ipVectorInside (short : ipLength msc < 2 ^ 15) : Inside (processIpVectorAccesses (ipVector msc)) ↔
    (10 ≤ ipLength msc ∧ 4 * headerSize (ipVector msc) ≤ ipLength msc) ∧
      (¬ ChecksumFails (ipVector msc) → protocol (ipVector msc) = 17 → 4 * headerSize (ipVector msc) + 8 ≤ ipLength msc) := by
  unfold processIpVectorAccesses
  simp only [insideAppend,insideWhen,vectorReadsInside,ipVectorLength]
  constructor
  · rintro ⟨⟨⟨-,far⟩,header⟩,udp⟩
    have long : 10 ≤ ipLength msc := by omega
    have covered : 4 * headerSize (ipVector msc) ≤ ipLength msc := by omega
    exact ⟨⟨long,covered⟩,fun sum seventeen => (udpInside (by omega) short covered).mp (udp ⟨sum,seventeen⟩)⟩
  · rintro ⟨⟨long,covered⟩,udp⟩
    exact ⟨⟨⟨by omega,by omega⟩,by omega⟩,fun both => (udpInside (by omega) short covered).mpr (udp both.1 both.2)⟩

theorem datagramInside : Inside (datagramAccesses msc) ↔ DatagramInside msc := by
  unfold datagramAccesses
  rw [insideAppend,insideAppend,copyInside,insideIf]
  constructor
  · rintro ⟨copied,-,four⟩
    have process := fun version => (ipVectorInside copied.2.1).mp (four (not_not_intro version))
    exact ⟨copied,fun version => (process version).1,fun version => (process version).2⟩
  · rintro ⟨copied,header,udp⟩
    refine ⟨copied,fun _ => insideNil.mpr trivial,fun four => ?_⟩
    have version := not_not.mp four
    exact (ipVectorInside copied.2.1).mpr ⟨header version,udp version⟩

theorem accessesInside : Inside (accesses msc) ↔
    4 ≤ msc.length ∧ (¬ Damaged msc → HeaderFits msc ∧ (ipLength msc < msc.length / 8 → DatagramInside msc)) := by
  unfold accesses
  simp only [insideAppend,insideIf,insideNil,implies_true,and_true,true_and,groupReadsInside,headerInside,datagramInside]
  constructor
  · rintro ⟨⟨flags,-⟩,intact⟩
    exact ⟨by omega,intact⟩
  · rintro ⟨flags,intact⟩
    exact ⟨⟨by omega,fun _ => by omega⟩,intact⟩

end Trace

section Delivery
variable {msc : List Bool} {s : IpState} {q : List U8}

structure Taken (msc : List Bool) : Prop where
  intact : ¬ Damaged msc
  shorter : ipLength msc < msc.length / 8
  four : version (ipVector msc) = 4
  checksum : ¬ ChecksumFails (ipVector msc)
  udp : protocol (ipVector msc) = 17

theorem takenOfUdp (holds : HoldsUdp msc) : Taken msc := by
  have complete := holds.complete
  have beyond := @nextBeyond msc
  exact ⟨holds.intact,by omega,holds.four,checksumExact.mpr holds.checksum,holds.udp⟩

theorem takenResult (taken : Taken msc) :
    addMscDataGroup msc s = processUdpVector s ((ipVector msc).drop (4 * headerSize (ipVector msc))) (udpLength (ipVector msc)) := by
  unfold addMscDataGroup processIpVector
  rw [if_neg taken.intact,if_pos taken.shorter,if_neg (not_not_intro taken.four),if_neg taken.checksum,if_pos taken.udp]

theorem otherResult (other : ¬ Taken msc) : addMscDataGroup msc s = s := by
  unfold addMscDataGroup processIpVector
  split
  · rfl
  split
  · split
    · rfl
    · split
      · rfl
      · split
        · rename_i intact shorter four checksum udp
          exact absurd ⟨intact,shorter,not_not.mp four,checksum,udp⟩ other
        · rfl
  · rfl

theorem payloadLength : (payload msc).length = ipLength msc - (4 * headerSize (ipVector msc) + 8) := by simp [payload]

theorem takenDelivers (holds : s.dataBuffer.Holds q) (taken : Taken msc) (inside : DatagramInside msc) :
    (addMscDataGroup msc s).dataBuffer.contents = s.dataBuffer.contents ++ (payload msc).take s.dataBuffer.getRingBufferWriteAvailable ∧
      (addMscDataGroup msc s).datagrams = s.datagrams ++ [((payload msc).length : Int)] := by
  have covers := inside.udp taken.four taken.checksum taken.udp
  have long := (inside.header taken.four).1
  have short := inside.copied.2.1
  have length : udpLength (ipVector msc) - 8 = ((payload msc).length : Int) := by
    rw [udpLengthExact (by omega) short (by omega),payloadLength]
    omega
  have counted : (((payload msc).length : Int) % 2 ^ 32).toNat = (payload msc).length := by
    rw [payloadLength]
    omega
  have copied : (range (min (payload msc).length s.dataBuffer.getRingBufferWriteAvailable)).map
      (fun i => ((ipVector msc).drop (4 * headerSize (ipVector msc))).getD (8 + i) 0#8) =
        (payload msc).take s.dataBuffer.getRingBufferWriteAvailable := by
    conv_rhs => rw [payload,← map_take,take_range,← payloadLength,Nat.min_comm]
    refine map_congr_left fun i member => ?_
    have within := mem_range.mp member
    rw [payloadLength] at within
    rw [← ipVectorGet (by omega)]
    simp [getD_eq_getElem?_getD,Nat.add_assoc]
  rw [takenResult taken]
  unfold processUdpVector
  simp only [length,counted,copied]
  refine ⟨?_,trivial⟩
  obtain ⟨-,next⟩ := holds.put ((payload msc).take s.dataBuffer.getRingBufferWriteAvailable)
  rw [next.contentsHeld,holds.contentsHeld,holds.writeAvailable,take_take,Nat.min_self]

theorem ipDelivery (msc : List Bool) (s : IpState) (q : List U8) (holds : s.dataBuffer.Holds q) :
    Inside (accesses msc) ∧ Delivers msc s ↔ Fits msc s.dataBuffer.getRingBufferWriteAvailable := by
  rw [accessesInside]
  constructor
  · rintro ⟨⟨flags,intact⟩,delivered,nothing⟩
    refine ⟨flags,fun undamaged => ⟨(intact undamaged).1,fun shorter => ?_⟩⟩
    have inside := (intact undamaged).2 shorter
    refine ⟨inside.copied,inside.header,fun four checksum udp => ?_⟩
    obtain ⟨contents,datagrams⟩ := takenDelivers holds ⟨undamaged,shorter,four,checksum,udp⟩ inside
    by_cases meant : HoldsUdp msc
    · have whole : (payload msc).take s.dataBuffer.getRingBufferWriteAvailable = payload msc :=
        append_cancel_left (contents.symm.trans (delivered meant).1)
      have room := (take_eq_self_iff _).mp whole
      rw [payloadLength] at room
      exact ⟨meant.header,meant.covers,meant.complete,by omega⟩
    · have same := datagrams.symm.trans (nothing meant).2
      simp at same
  · rintro ⟨flags,intact⟩
    have inside : ¬ Damaged msc → HeaderFits msc ∧ (ipLength msc < msc.length / 8 → DatagramInside msc) := fun undamaged =>
      ⟨(intact undamaged).1,fun shorter =>
        have fits := (intact undamaged).2 shorter
        ⟨fits.copied,fits.header,fun four checksum udp => (fits.udp four checksum udp).2.1⟩⟩
    refine ⟨⟨flags,inside⟩,?_⟩
    by_cases taken : Taken msc
    · have fits := ((intact taken.intact).2 taken.shorter).udp taken.four taken.checksum taken.udp
      have meant : HoldsUdp msc := ⟨taken.intact,fits.2.2.1,taken.four,fits.1,checksumExact.mp taken.checksum,taken.udp,fits.2.1⟩
      obtain ⟨contents,datagrams⟩ := takenDelivers holds taken ((inside taken.intact).2 taken.shorter)
      rw [take_of_length_le (by rw [payloadLength]; omega)] at contents
      exact ⟨fun _ => ⟨contents,datagrams⟩,fun other => absurd meant other⟩
    · rw [Delivers,otherResult taken]
      exact ⟨fun meant => absurd (takenOfUdp meant) taken,fun _ => ⟨rfl,rfl⟩⟩

end Delivery

def cutDatagram : List Bool :=
  [0x00,0x00,0x45,0x00,0x00,0x1D,0x00,0x00,0x00,0x00,0x40,0x11,0x66,0xCE,0x0A,0x00,0x00,0x01,0x0A,0x00,0x00,0x02,
    0x1F,0x90,0x1F,0x90,0x00,0x09,0x00,0x00].flatMap Lib.Crc.byteBits

def emptyState : IpState := ⟨RingBuffer.newRingBuffer 16,[]⟩

theorem completeDatagramPut : let whole := cutDatagram ++ Lib.Crc.byteBits 0x07
    HoldsUdp whole ∧ payload whole = [7#8] ∧ Inside (accesses whole) ∧ Delivers whole emptyState := by
  refine ⟨⟨?_,?_,?_,?_,?_,?_,?_⟩,by decide,
    (ipDelivery (cutDatagram ++ Lib.Crc.byteBits 0x07) emptyState [] (RingBuffer.newHolds (by decide) (by decide))).mpr
      ⟨?_,fun _ => ⟨⟨?_,?_,?_,?_⟩,fun _ => ⟨?_,?_,?_⟩⟩⟩⟩ <;> decide +kernel

theorem cutDatagramPut : cutDatagram.length = 240 ∧ ¬ Inside (accesses cutDatagram) ∧
    next cutDatagram + 8 * ipLength cutDatagram = 248 ∧ (addMscDataGroup cutDatagram emptyState).datagrams = [1] := by decide +kernel

end DabStar.IpDataHandler
