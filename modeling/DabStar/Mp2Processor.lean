import DabStar.Mp4Processor

/-! The MP2 path (backend/audio/mp2processor.cpp): the twelve ones of a header are searched,
the header gives the sample rate, and that the length of the frame. An index outside a vector
reads 0. -/
namespace DabStar

inductive ESyncState where
  | searchingForSync
  | getSampleRate
  | getData
  deriving DecidableEq, Repr

structure Mp2Processor where
  sampleRate : Nat
  mp2FrameSize : Int
  mp2Frame : List U8
  mp2SyncState : ESyncState
  mp2HeaderCount : Int
  mp2BitCount : Int
  deriving DecidableEq, Repr

structure DecodedFrame where
  bit : Nat
  mp2Frame : List U8
  deriving DecidableEq, Repr

namespace Mp2Processor

def sampleRates : List Nat := [44100,48000,32000,0,22050,24000,16000,0]

def bitrates : List Nat :=
  [32,48,56,64,80,96,112,128,160,192,224,256,320,384,
   8,16,24,32,40,48,56,64,80,96,112,128,144,160]

def new (bitRate : Int) : Mp2Processor :=
  { sampleRate := 48000, mp2FrameSize := toI16 (24 * bitRate)
    mp2Frame := List.replicate (2 * toI16 (24 * bitRate)).toNat 0#8
    mp2SyncState := .searchingForSync, mp2HeaderCount := 0, mp2BitCount := 0 }

def setSampleRate (s : Mp2Processor) (iSampleRate : Nat) : Mp2Processor :=
  if s.sampleRate = iSampleRate then s
  else if iSampleRate ≠ 48000 ∧ iSampleRate ≠ 24000 then s
  else { s with sampleRate := iSampleRate }

def getMp2SampleRate (iFrame : List U8) : Nat :=
  if iFrame = [] then 0
  else if iFrame.getD 0 0#8 ≠ 0xFF#8 ∨ iFrame.getD 1 0#8 &&& 0xF6#8 ≠ 0xF4#8 ∨
      ((iFrame.getD 2 0#8).toNat : Int) - 0x10 ≥ 0xE0 then 0
  else
    sampleRates.getD ((((iFrame.getD 1 0#8).toNat &&& 0x08) >>> 1 ^^^ 4) + ((iFrame.getD 2 0#8).toNat >>> 2 &&& 3)) 0

def addBitToMp2 (ioV : List U8) (ib : Bool) (iNm : Int) : List U8 :=
  let outByte := ioV.getD (iNm.toNat / 8) 0#8
  let newByte : U8 := 1#8 <<< (7 - iNm.toNat % 8)
  ioV.set (iNm.toNat / 8) (if ib then outByte ||| newByte else outByte &&& ~~~newByte)

def frameLength (s : Mp2Processor) : Int := if s.sampleRate = 48000 then s.mp2FrameSize else toI16 (2 * s.mp2FrameSize)

def addBit (iBits : List Bool) (loop : Mp2Processor × Int × List DecodedFrame) (i : Nat) :
    Mp2Processor × Int × List DecodedFrame :=
  let (s, lf, decoded) := loop
  let bit := iBits.getD i false
  match s.mp2SyncState with
  | .getData =>
    let mp2Frame := addBitToMp2 s.mp2Frame bit s.mp2BitCount
    let mp2BitCount := toI16 (s.mp2BitCount + 1)
    if mp2BitCount ≥ lf then
      ({ s with mp2Frame := mp2Frame, mp2SyncState := .searchingForSync, mp2HeaderCount := 0, mp2BitCount := 0 }, lf,
        decoded ++ [⟨i,mp2Frame⟩])
    else ({ s with mp2Frame := mp2Frame, mp2BitCount := mp2BitCount }, lf, decoded)
  | .searchingForSync =>
    if bit then
      let mp2HeaderCount := toI16 (s.mp2HeaderCount + 1)
      if mp2HeaderCount = 12 then
        ({ s with mp2Frame := (List.range 12).foldl (fun mp2Frame (n : Nat) => addBitToMp2 mp2Frame true n) s.mp2Frame
                  mp2SyncState := .getSampleRate, mp2HeaderCount := mp2HeaderCount, mp2BitCount := 12 }, lf, decoded)
      else ({ s with mp2HeaderCount := mp2HeaderCount }, lf, decoded)
    else ({ s with mp2HeaderCount := 0 }, lf, decoded)
  | .getSampleRate =>
    let mp2Frame := addBitToMp2 s.mp2Frame bit s.mp2BitCount
    let mp2BitCount := toI16 (s.mp2BitCount + 1)
    let s := { s with mp2Frame := mp2Frame, mp2BitCount := mp2BitCount }
    if mp2BitCount = 24 then
      let s := s.setSampleRate (getMp2SampleRate mp2Frame)
      ({ s with mp2SyncState := .getData }, s.frameLength, decoded)
    else (s, lf, decoded)

def addToFrame (s : Mp2Processor) (iBits : List Bool) : Mp2Processor × List DecodedFrame :=
  let (s, _, decoded) := (List.range s.mp2FrameSize.toNat).foldl (addBit iBits) (s, s.frameLength, [])
  (s, decoded)

def run (s : Mp2Processor) : List (List Bool) → List (List DecodedFrame)
  | [] => []
  | iBits :: rest => (s.addToFrame iBits).2 :: (s.addToFrame iBits).1.run rest

end Mp2Processor

end DabStar
