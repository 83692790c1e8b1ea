import DabStar.MotObject
import DabStar.FibRecords

/-! MOT over packet mode (backend/data/mot/mot_handler.cpp, mot_dir.cpp): data groups are
routed to the object of their transport id, in a table of the last fifteen or in a directory. A
vector that the source would resize to a negative size is empty. -/
namespace DabStar
open List
open Fib (Bits getBits getBits1 getBits4)

structure MotComponent where
  transportId : Nat
  motSlide : MotObject
  deriving DecidableEq, Repr

structure MotDirectory where
  transportId : Nat
  dirSegments : List U8
  marked : List Bool
  dirSegmentSize : Int
  numDirSegments : Int
  numObjects : Int
  motComponents : List (Option MotComponent)
  deriving DecidableEq, Repr

def overwrite (vec : List U8) (start : Nat) (bytes : List U8) : List U8 :=
  vec.take start ++ bytes.take (vec.length - start) ++ vec.drop (start + bytes.length)

def be16 (vec : List U8) (index : Nat) : Nat := ((vec.getD index 0#8).toNat <<< 8) ||| (vec.getD (index + 1) 0#8).toNat

namespace MotDirectory

def getHandle (d : MotDirectory) (transportId : Nat) : Option Nat :=
  d.motComponents.findIdx? (fun c => c.any (fun c => c.transportId = transportId))

def setHandle (d : MotDirectory) (h : MotObject) (transportId : Nat) : MotDirectory :=
  match d.motComponents.findIdx? Option.isNone with
  | some i => { d with motComponents := d.motComponents.set i (some ⟨transportId,h⟩) }
  | none => d

def analyseObjects : Nat → Nat → MotDirectory → MotDirectory
  | 0, _, d => d
  | count + 1, currentBase, d =>
    let transportId := be16 d.dirSegments currentBase
    if transportId = 0 then d
    else
      let handle := MotObject.newMotObjectWithHeader true false transportId (d.dirSegments.drop (currentBase + 2))
      analyseObjects count (currentBase + (2 + handle.getHeaderSize)) (d.setHandle handle transportId)

def analyseTheDirectory (d : MotDirectory) : MotDirectory := analyseObjects d.numObjects.toNat (11 + (2 + be16 d.dirSegments 11)) d

def newMotDirectory (transportId : Nat) (segmentSize : Int) (dirSize : Nat) (objects : Int) (segment : List U8) :
    MotDirectory × List (List U8) :=
  let d : MotDirectory :=
    { transportId := transportId, numDirSegments := -1, numObjects := objects, dirSegmentSize := segmentSize
      dirSegments := overwrite (replicate dirSize 0#8) 0 (Mp4Processor.slice segment 0 segmentSize)
      motComponents := replicate objects.toNat none, marked := (replicate 512 false).set 0 true }
  if segmentSize ≥ dirSize then (d.analyseTheDirectory, [d.dirSegments]) else (d, [])

def directorySegment (d : MotDirectory) (transportId : Nat) (segment : List U8) (segmentNumber : Nat) (segmentSize : Int)
    (lastSegment : Bool) : MotDirectory × List (List U8) :=
  if d.transportId ≠ transportId then (d, [])
  else if d.marked.getD segmentNumber false then (d, [])
  else
    let d := { d with
      numDirSegments := if lastSegment then toI16 (segmentNumber + 1) else d.numDirSegments
      marked := d.marked.set segmentNumber true
      dirSegments := overwrite d.dirSegments (segmentNumber * d.dirSegmentSize).toNat (Mp4Processor.slice segment 0 segmentSize) }
    if d.numDirSegments ≠ -1 ∧ (range d.numDirSegments.toNat).all (fun i => d.marked.getD i false) then
      (d.analyseTheDirectory, [d.dirSegments])
    else (d, [])

end MotDirectory

structure SMotTable where
  transportId : Nat
  orderNumber : Nat
  motSlide : MotObject
  deriving DecidableEq, Repr

structure MotHandler where
  mpDirectory : Option MotDirectory := none
  mOrderNumber : Nat := 0
  mMotTable : List (Option SMotTable) := replicate 15 none
  deriving DecidableEq, Repr

inductive MotHandle where
  | table (index : Nat)
  | directory (index : Nat)
  deriving DecidableEq, Repr

structure MotDataGroup where
  groupType : Nat
  segmentNumber : Nat
  lastFlag : Bool
  transportId : Nat
  motVector : List U8
  deriving DecidableEq, Repr

namespace MotDataGroup

def segmentSize (g : MotDataGroup) : Nat := (((g.motVector.getD 0 0#8).toNat &&& 0x1F) <<< 8) ||| (g.motVector.getD 1 0#8).toNat

def segment (g : MotDataGroup) : List U8 := g.motVector.drop 2

end MotDataGroup

namespace MotHandler

def crcPolynome : List Bool := [false,false,false,true,false,false,false,false,false,false,true,false,false,false,false]

/- The register of check_CRC_bits; the last sixteen bits come inverted. -/
def checkCrcBits (bits : List Bool) : Bool :=
  let last := bits.zipIdx.foldl (fun b (x : Bool × Nat) =>
    let invBit := decide ((x.2 : Int) ≥ bits.length - 16)
    if b.getD 0 false ^^ (x.1 ^^ invBit) then zipWith xor crcPolynome (b.drop 1) ++ [true] else b.drop 1 ++ [false])
    (replicate 16 true)
  last.all (! ·)

def decodeGroup (msc : List Bool) : Option MotDataGroup :=
  let data : Bits := fun i => msc.getD i false
  let extensionFlag := getBits1 data 0 ≠ 0
  let crcFlag := getBits1 data 1 ≠ 0
  let segmentFlag := getBits1 data 2 ≠ 0
  let userAccessFlag := getBits1 data 3 ≠ 0
  if msc.length ≤ 0 then none
  else if crcFlag ∧ ¬ checkCrcBits msc then none
  else
    let next := 16 + if extensionFlag then 16 else 0
    let lastFlag := decide (segmentFlag ∧ getBits1 data next ≠ 0)
    let segmentNumber := if segmentFlag then getBits data (next + 1) 15 else 0
    let next := next + if segmentFlag then 16 else 0
    let transportIdFlag := userAccessFlag ∧ getBits1 data (next + 3) ≠ 0
    let transportId := getBits data (next + 8) 16
    let next := next + if userAccessFlag then 8 + getBits4 data (next + 4) * 8 else 0
    let sizeInBits : Int := msc.length - next - if crcFlag then 16 else 0
    if ¬ transportIdFlag then none
    else
      let motVector := (range (sizeInBits.tdiv 8).toNat).map (fun i => BitVec.ofNat 8 (getBits data (next + 8 * i) 8))
      some ⟨getBits4 data 4,segmentNumber,lastFlag,transportId,motVector⟩

section Handles
variable (s : MotHandler)

def getHandle (transportId : Nat) : Option MotHandle :=
  match s.mMotTable.findIdx? (fun mt => mt.any (fun mt => mt.transportId = transportId)) with
  | some i => some (.table i)
  | none => match s.mpDirectory with
    | some d => (d.getHandle transportId).map .directory
    | none => none

def oldestSlot : Nat :=
  ((range s.mMotTable.length).foldl (fun (acc : Nat × Nat) i =>
    match s.mMotTable.getD i none with
    | some mt => if mt.orderNumber < acc.1 then (mt.orderNumber, i) else acc
    | none => acc) (s.mOrderNumber, 0)).2

def setHandle (h : MotObject) (transportId : Nat) : MotHandler :=
  let i := (s.mMotTable.findIdx? Option.isNone).getD s.oldestSlot
  { s with
    mOrderNumber := s.mOrderNumber + 1
    mMotTable := s.mMotTable.set i (some ⟨transportId,s.mOrderNumber,h⟩) }

def addAt (handle : MotHandle) (add : MotObject → MotObject × List MotSignal) : MotHandler × List MotSignal :=
  match handle with
  | .table i => match s.mMotTable.getD i none with
    | some mt => ({ s with mMotTable := s.mMotTable.set i (some { mt with motSlide := (add mt.motSlide).1 }) }, (add mt.motSlide).2)
    | none => (s, [])
  | .directory i => match s.mpDirectory with
    | none => (s, [])
    | some d => match d.motComponents.getD i none with
      | some c =>
        ({ s with mpDirectory := some { d with
            motComponents := d.motComponents.set i (some { c with motSlide := (add c.motSlide).1 }) } }, (add c.motSlide).2)
      | none => (s, [])

end Handles

structure Step where
  next : MotHandler
  signals : List MotSignal := []
  analysed : List (List U8) := []

def headerGroup (s : MotHandler) (g : MotDataGroup) : Step :=
  if g.segmentNumber = 0 then
    match s.getHandle g.transportId with
    | some _ => { next := s }
    | none => { next := s.setHandle (MotObject.newMotObjectWithHeader false false g.transportId g.segment) g.transportId }
  else { next := s }

/- An object that is not known yet is created with the body segment as its header. -/
def bodyGroup (s : MotHandler) (g : MotDataGroup) : Step :=
  let add := fun (h : MotObject) => h.addBodySegment g.segment g.segmentNumber g.segmentSize g.lastFlag g.transportId
  match s.getHandle g.transportId with
  | some handle => { next := (s.addAt handle add).1, signals := (s.addAt handle add).2 }
  | none =>
    let h := add (MotObject.newMotObjectWithHeader false false g.transportId g.segment)
    { next := s.setHandle h.1 g.transportId, signals := h.2 }

def directoryGroup (s : MotHandler) (g : MotDataGroup) : Step :=
  if g.segmentNumber = 0 then
    if s.mpDirectory.any (fun d => d.transportId = g.transportId) then { next := s }
    else
      let segment := g.segment
      let b := fun i => (segment.getD i 0#8).toNat
      let dirSize := ((b 0 &&& 0x3F) <<< 24) ||| (b 1 <<< 16) ||| (b 2 <<< 8) ||| b 3
      let numObjects := (b 4 <<< 8) ||| b 5
      let (d, analysed) := MotDirectory.newMotDirectory g.transportId (toI16 g.segmentSize) dirSize (toI16 numObjects) segment
      { next := { s with mpDirectory := some d }, analysed := analysed }
  else match s.mpDirectory with
    | none => { next := s }
    | some d =>
      if d.transportId ≠ g.transportId then { next := s }
      else
        let (d, analysed) := d.directorySegment g.transportId g.segment g.segmentNumber g.segmentSize g.lastFlag
        { next := { s with mpDirectory := some d }, analysed := analysed }

def handleGroup (s : MotHandler) (g : MotDataGroup) : Step :=
  match g.groupType with
  | 3 => s.headerGroup g
  | 4 => s.bodyGroup g
  | 6 => s.directoryGroup g
  | _ => { next := s }

def addMscDataGroup (s : MotHandler) (msc : List Bool) : Step :=
  match decodeGroup msc with
  | none => { next := s }
  | some g => s.handleGroup g

end MotHandler
end DabStar
