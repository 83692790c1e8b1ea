import DabStar.Mp4Processor
import DabStar.FibRecords
import DabStar.Lib.Accesses

/-! The transparent data channel (backend/data/tdc_datahandler.cpp). The length of a frame is
compared with what is left of the group, but without the seven bytes of the header, which is
read before anything is compared. -/
namespace DabStar.TdcDataHandler
open Fib (Bits getBits)
open Lib.Accesses
open Mp4Processor (checkCrcBytes)

inductive TdcMemory where
  | group
  | checkVector
  | buffer
  deriving DecidableEq, Repr

abbrev TdcAccess := Access TdcMemory

structure TdcFrame where
  frameType : Nat
  bytes : List U8
  deriving DecidableEq, Repr

section Fields
variable (m : List Bool) (offset : Nat)

def bits : Bits := fun i => m.getD i false

def bytesAt (count : Nat) : List U8 := (List.range count).map (fun i => BitVec.ofNat 8 (getBits (bits m) (offset + 8 * i) 8))

def Synced : Prop := getBits (bits m) offset 16 = 0xFF0F
  deriving Decidable

def lengthField : Nat := getBits (bits m) (offset + 16) 16

def frametypeIndicator : Nat := getBits (bits m) (offset + 48) 8

def checkVector : List U8 :=
  bytesAt m offset 4 ++ bytesAt m (offset + 48) 1 ++ bytesAt m (offset + 56) (min (lengthField m offset) 11) ++ bytesAt m (offset + 32) 2

def headerCorrect : Bool := checkCrcBytes (checkVector m offset) (5 + min (lengthField m offset) 11)

def frameAt : TdcFrame := ⟨frametypeIndicator m offset,bytesAt m (offset + 56) (lengthField m offset)⟩

end Fields

section Code
variable (m : List Bool)

def seek : Nat → Nat → Option (Nat × List TdcAccess)
  | 0, _ => none
  | fuel + 1, offset =>
    if offset + 16 < m.length then
      if Synced m offset then some (offset, stretch .group m.length offset 16)
      else (seek fuel (offset + 8)).map (fun (p, reads) => (p, stretch .group m.length offset 16 ++ reads))
    else some (offset, [])

def components : Nat → Nat → Int → Option (List TdcAccess)
  | 0, _, _ => none
  | fuel + 1, lOffset, llengths =>
    let flength := getBits (bits m) (lOffset + 8) 16
    let reads := stretch .group m.length (lOffset + 8 : Nat) 16
    if llengths - (flength + 5) > 10 then
      (components fuel (lOffset + (flength + 5) * 8) (llengths - (flength + 5))).map (reads ++ ·)
    else some reads

def copyAccesses (offset length : Nat) : List TdcAccess := stretch .group m.length offset (8 * length) ++ stretch .buffer length 0 length

def handleFrameType0 (offset length : Nat) : List TdcAccess := copyAccesses m offset length ++ stretch .buffer length ((length : Int) - 2) 2

def handleFrameType1 (offset length : Nat) : Option (List TdcAccess) :=
  let reads := copyAccesses m offset length ++ stretch .group m.length (offset + 24 : Nat) 8
  if getBits (bits m) (offset + 24) 8 = 0 then (components m (length + 1) (offset + 32) ((length : Int) - 4)).map (reads ++ ·)
  else some reads

def frameRound (offset : Nat) : Option (List TdcAccess × Bool) :=
  let header := stretch TdcMemory.group m.length (offset + 16 : Nat) 40
  let length := toI16 (lengthField m offset)
  if length < 0 ∨ length ≥ ((m.length : Int) - offset) / 8 then some (header, false)
  else
    let check := header ++ stretch .group m.length offset (56 + 8 * min (lengthField m offset) 11) ++
      stretch .checkVector 18 0 (7 + min (lengthField m offset) 11)
    if ¬ headerCorrect m offset then some (check, false)
    else if frametypeIndicator m offset = 0 then some (check ++ handleFrameType0 m (offset + 56) (lengthField m offset), true)
    else if frametypeIndicator m offset = 1 then
      (handleFrameType1 m (offset + 56) (lengthField m offset)).map (fun reads => (check ++ reads, true))
    else some (check, false)

def frames : Nat → Nat → Option (List TdcAccess × List TdcFrame)
  | 0, _ => none
  | fuel + 1, offset =>
    if offset < m.length then do
      let (p, reads) ← seek m m.length offset
      if p + 16 ≥ m.length then some (reads, [])
      else
        let (more, taken) ← frameRound m p
        if taken then
          let later ← frames fuel (p + 56 + 8 * lengthField m p)
          some (reads ++ more ++ later.1, frameAt m p :: later.2)
        else some (reads ++ more, [])
    else some ([], [])

def addMscDataGroup : Option (List TdcAccess × List TdcFrame) := frames m (m.length + 1) 0

end Code

section Meaning
variable (m : List Bool)

structure Framed (p : Nat) : Prop where
  synced : Synced m p
  inside : p + 56 + 8 * lengthField m p ≤ m.length
  correct : headerCorrect m p = true

inductive Frames : Nat → List TdcFrame → Prop where
  | behind {offset : Nat} (ended : m.length ≤ offset) : Frames offset []
  | frame {offset : Nat} {later : List TdcFrame} (framed : Framed m offset) (rest : Frames (offset + 56 + 8 * lengthField m offset) later) :
      Frames offset (frameAt m offset :: later)
  | skipped {offset : Nat} {later : List TdcFrame} (inside : offset < m.length) (other : ¬ Framed m offset) (rest : Frames (offset + 8) later) :
      Frames offset later

inductive Seeks : Nat → Nat → Prop where
  | found {p : Nat} (inside : p + 16 < m.length) (synced : Synced m p) : Seeks p p
  | ended {p : Nat} (behind : m.length ≤ p + 16) : Seeks p p
  | later {offset p : Nat} (inside : offset + 16 < m.length) (other : ¬ Synced m offset) (rest : Seeks (offset + 8) p) : Seeks offset p

def Accepted (p : Nat) : Prop := lengthField m p < 2 ^ 15 ∧ lengthField m p < (m.length - p) / 8

structure Takes (p : Nat) : Prop where
  small : lengthField m p < 2 ^ 15
  framed : Framed m p
  handled : (frametypeIndicator m p = 0 ∧ 2 ≤ lengthField m p) ∨
    (frametypeIndicator m p = 1 ∧ p + 88 ≤ m.length ∧ (getBits (bits m) (p + 80) 8 = 0 → p + 112 ≤ m.length))

inductive Orderly : Nat → Prop where
  | ended {offset p : Nat} (seeks : Seeks m offset p) (behind : m.length ≤ p + 16) : Orderly offset
  | taken {offset p : Nat} (seeks : Seeks m offset p) (inside : p + 16 < m.length) (takes : Takes m p)
      (rest : Orderly (p + 56 + 8 * lengthField m p)) : Orderly offset
  | stopped {offset p : Nat} (seeks : Seeks m offset p) (inside : p + 56 ≤ m.length)
      (stops : Accepted m p → headerCorrect m p = true → 2 ≤ frametypeIndicator m p)
      (check : Accepted m p → p + 56 + 8 * min (lengthField m p) 11 ≤ m.length) (nothing : Frames m p []) : Orderly offset

end Meaning

variable {m : List Bool} {offset p : Nat} {found : List TdcFrame}

theorem groupStretch {first count : Nat} :
    Inside (stretch TdcMemory.group m.length (first : Nat) count) ↔ count = 0 ∨ first + count ≤ m.length := by
  rw [stretchInside]
  omega

theorem copyInside {offset length : Nat} : Inside (copyAccesses m offset length) ↔ length = 0 ∨ offset + 8 * length ≤ m.length := by
  unfold copyAccesses
  rw [insideAppend,groupStretch,stretchInside]
  omega

end DabStar.TdcDataHandler
