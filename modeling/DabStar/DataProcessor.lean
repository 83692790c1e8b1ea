import DabStar.MotHandler

/-! Packet mode (backend/data/data_processor.cpp): the packets of a frame are taken one after
the other, those of the own address are assembled to MSC data groups. Bits come one per
element. -/
namespace DabStar
open Fib (Bits getBits getBits1 getBits2)

structure DataProcessor where
  mBitRate : Nat
  mDSCTy : Nat
  mDGflag : Bool
  mPacketAddress : Int
  mExpectedIndex : Nat := 0
  mFirstPacket : Bool := true
  mSeriesVec : List Bool := []
  mPacketState : Nat := 0
  deriving DecidableEq, Repr

namespace DataProcessor

def newDataProcessor (bitRate dscTy : Nat) (dgFlag : Bool) (packetAddress : Int) : DataProcessor :=
  { mBitRate := bitRate, mDSCTy := dscTy, mDGflag := dgFlag, mPacketAddress := packetAddress }

section Packet
variable (data : Bits)

def packetLengthBytes : Nat := (getBits2 data 0 + 1) * 24
def continuityIndex : Nat := getBits2 data 2
def firstLast : Nat := getBits2 data 4
def address : Nat := getBits data 6 10
def usefulLength : Nat := getBits data 17 7

def useful : List Bool := (List.range (8 * usefulLength data)).map (fun i => data (24 + i))

def crcCorrect : Bool := MotHandler.checkCrcBits ((List.range (packetLengthBytes data * 8)).map data)

end Packet

def assemble (s : DataProcessor) (data : Bits) : DataProcessor × List (List Bool) :=
  if s.mPacketState = 0 then
    if firstLast data = 2 then ({ s with mPacketState := 1, mSeriesVec := useful data }, [])
    else if firstLast data = 3 then ({ s with mSeriesVec := useful data }, [useful data])
    else ({ s with mSeriesVec := [] }, [])
  else if s.mPacketState = 1 then
    if firstLast data = 0 then ({ s with mSeriesVec := s.mSeriesVec ++ useful data }, [])
    else if firstLast data = 1 then
      ({ s with mSeriesVec := s.mSeriesVec ++ useful data, mPacketState := 0 }, [s.mSeriesVec ++ useful data])
    else if firstLast data = 2 then ({ s with mPacketState := 1, mSeriesVec := useful data }, [])
    else ({ s with mPacketState := 0, mSeriesVec := [] }, [])
  else (s, [])

def handlePacket (s : DataProcessor) (data : Bits) : DataProcessor × List (List Bool) :=
  if s.mPacketAddress ≠ address data then (s, [])
  else if continuityIndex data ≠ s.mExpectedIndex then ({ s with mExpectedIndex := 0 }, [])
  else
    let s := { s with mFirstPacket := false, mExpectedIndex := (s.mExpectedIndex + 1) % 4 }
    if ¬ crcCorrect data then (s, []) else s.assemble data

def handlePackets : Nat → DataProcessor → Bits → Nat → Option (DataProcessor × List (List Bool))
  | 0, _, _, _ => none
  | fuel + 1, s, data, lengthBits =>
    let pLengthBits := (getBits2 data 0 + 1) * 24 * 8
    if lengthBits < pLengthBits then some (s, [])
    else
      let (s, groups) := s.handlePacket data
      if lengthBits - pLengthBits < 2 then some (s, groups)
      else (handlePackets fuel s (fun i => data (pLengthBits + i)) (lengthBits - pLengthBits)).map
        (fun later => (later.1, groups ++ later.2))

def addToFrame (fuel : Nat) (s : DataProcessor) (outV : Bits) : Option (DataProcessor × List (List Bool)) :=
  if s.mDSCTy = 5 ∧ s.mDGflag then some (s, []) else handlePackets fuel s outV (24 * s.mBitRate)

end DataProcessor
end DabStar
