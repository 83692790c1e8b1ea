import DabStar.Mp4Processor
import DabStar.Lib.SortedMap

/-! A MOT object (backend/data/mot/mot_object.cpp): a header and numbered body segments,
emitted when they are all there. A call is given the bytes from a pointer on, of which those
outside the vector read 0. -/
namespace DabStar
open Lib.SortedMap

structure SHeaderCore where
  initialized : Bool := false
  bodySize : Nat := 0
  headerSize : Nat := 0
  contentType : Nat := 0
  contentSubType : Nat := 0
  deriving DecidableEq, Repr

namespace SHeaderCore

def getContentType (h : SHeaderCore) : Nat := ((h.contentType <<< 8) &&& 0x3f00) ||| (h.contentSubType &&& 0x00ff)

end SHeaderCore

def getContentBaseType (contentType : Nat) : Nat := (contentType &&& 0x3f00) >>> 8

def motBaseTypeImage : Nat := 0x02

inductive MotSignal where
  | newMotObject (data name : List U8) (contentType : Nat) (dirElement : Bool)
  | padMotProgress (percent : Int)
  deriving DecidableEq, Repr

structure MotObject where
  mIsDirElement : Bool
  mIsPadElement : Bool
  mMotMap : List (Nat × List U8) := []
  mHeaderCore : SHeaderCore := {}
  mName : List U8 := []
  mTransportId : Int := -1
  mNumOfSegments : Int := -1
  mSumSegmentSize : Int := 0
  deriving DecidableEq, Repr

namespace MotObject

def extractBitsFromByteStream (data : List U8) (bitOffset numBits : Nat) : Nat :=
  let firstByte := bitOffset / 8
  let lastByte := (bitOffset + numBits - 1) / 8
  let accum := (List.range (lastByte + 1 - firstByte)).foldl
    (fun accum i => (accum <<< 8) ||| (data.getD (firstByte + i) 0#8).toNat) 0
  (accum >>> ((lastByte + 1) * 8 - (bitOffset + numBits))) &&& (1 <<< numBits - 1)

def reset (s : MotObject) : MotObject :=
  { s with mNumOfSegments := -1, mSumSegmentSize := 0, mHeaderCore := {}, mName := [], mMotMap := [] }

def readHeaderCore (segment : List U8) : SHeaderCore :=
  { initialized := true
    bodySize := extractBitsFromByteStream segment (55 - 55) 28
    headerSize := extractBitsFromByteStream segment (55 - 27) 13
    contentType := extractBitsFromByteStream segment (55 - 14) 6
    contentSubType := extractBitsFromByteStream segment (55 - 8) 9 }

/- The name and the pointer behind a parameter; for the parameters that are not evaluated
the pointer stays where their data begins. -/
def processParameterId (segment : List U8) (name : List U8) (pointer paramId length : Nat) : List U8 × Nat :=
  if paramId = 0x0C then
    ((List.range (length - 1)).map (fun i => segment.getD (pointer + i + 1) 0#8), pointer + length)
  else if paramId ∈ [0x02,0x03,0x04,0x05,0x06,0x07,0x08,0x0A,0x0B,0x0F] then (name, pointer)
  else (name, pointer + length)

def processHeaderExtension (segment : List U8) (name : List U8) (pointer : Nat) : List U8 × Nat :=
  let byte := (segment.getD pointer 0#8).toNat
  let next := (segment.getD (pointer + 1) 0#8).toNat
  match (byte &&& 0xC0) >>> 6 with
  | 0 => (name, pointer + 1)
  | 1 => (name, pointer + 2)
  | 2 => (name, pointer + 5)
  | _ =>
    if next &&& 0x80 ≠ 0 then
      let length := ((next &&& 0x7F) <<< 8) ||| (segment.getD (pointer + 2) 0#8).toNat
      processParameterId segment name (pointer + 3) (byte &&& 0x3F) length
    else processParameterId segment name (pointer + 2) (byte &&& 0x3F) (next &&& 0x7F)

def headerExtensions (segment : List U8) (headerSize : Nat) : Nat → List U8 × Nat → List U8 × Nat
  | 0, acc => acc
  | fuel + 1, acc =>
    if acc.2 < headerSize then headerExtensions segment headerSize fuel (processHeaderExtension segment acc.1 acc.2)
    else acc

def readName (segment : List U8) (before : List U8) : List U8 :=
  let headerSize := (readHeaderCore segment).headerSize
  (headerExtensions segment headerSize headerSize (before, 7)).1

def checkIfComplete (s : MotObject) : Bool :=
  s.mHeaderCore.initialized && !(s.mNumOfSegments < 0) && !(toI16 s.mMotMap.length < s.mNumOfSegments) &&
    (List.range s.mNumOfSegments.toNat).all (fun i => contains s.mMotMap i)

def tridName (transportId : Int) : List U8 :=
  [0x74#8,0x72#8,0x69#8,0x64#8,0x5F#8] ++ (Nat.toDigits 10 transportId.toNat).map (fun c => BitVec.ofNat 8 c.toNat)

def handleComplete (s : MotObject) : MotObject × List MotSignal :=
  let result := (s.mMotMap.map Prod.snd).flatten
  let s := if s.mName.isEmpty then { s with mName := tridName s.mTransportId } else s
  (s, [.newMotObject result s.mName s.mHeaderCore.getContentType s.mIsDirElement])

def finish (s : MotObject) : MotObject × List MotSignal := if s.checkIfComplete then s.handleComplete else (s, [])

def setHeader (s : MotObject) (segment : List U8) (transportId : Int) : MotObject × List MotSignal :=
  let s := if s.mTransportId ≠ transportId then s.reset else s
  finish { s with mTransportId := transportId, mHeaderCore := readHeaderCore segment, mName := readName segment s.mName }

def loadedPart (s : MotObject) : List MotSignal :=
  if s.mIsPadElement ∧ s.mHeaderCore.bodySize > 0 ∧ getContentBaseType s.mHeaderCore.getContentType = motBaseTypeImage then
    let loadedPart := ((100 * s.mSumSegmentSize).bmod (2 ^ 32)).tdiv s.mHeaderCore.bodySize
    [.padMotProgress (if loadedPart > 100 then 100 else loadedPart)]
  else []

def addBodySegment (s : MotObject) (bodySegment : List U8) (segmentNumber : Int) (segmentSize : Nat) (lastFlag : Bool)
    (transportId : Int) : MotObject × List MotSignal :=
  if segmentNumber < 0 ∨ segmentNumber ≥ 8192 then (s, [])
  else
    let s := if s.mTransportId ≠ transportId then { s.reset with mTransportId := transportId } else s
    if contains s.mMotMap segmentNumber.toNat then (s, [])
    else
      let segment := Mp4Processor.slice bodySegment 0 segmentSize
      let s := { s with
        mMotMap := emplace s.mMotMap segmentNumber.toNat segment
        mSumSegmentSize := s.mSumSegmentSize + segmentSize
        mNumOfSegments := if lastFlag then segmentNumber + 1 else s.mNumOfSegments }
      let (t, signals) := s.finish
      (t, s.loadedPart ++ signals)

def newMotObject (isDirElement isPadElement : Bool) : MotObject := { mIsDirElement := isDirElement, mIsPadElement := isPadElement }

def newMotObjectWithHeader (isDirElement isPadElement : Bool) (transportId : Int) (segment : List U8) : MotObject :=
  ((newMotObject isDirElement isPadElement).setHeader segment transportId).1

def getHeaderSize (s : MotObject) : Nat := if s.mHeaderCore.initialized then s.mHeaderCore.headerSize else 0

end MotObject
end DabStar
