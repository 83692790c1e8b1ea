import DabStar.ReedSolomon
import DabStar.Crc
import DabStar.FirecodeChecker

/-! The DAB+ path (backend/audio/mp4processor.cpp): five frames make a superframe, which is
corrected and cut into access units. What the AAC decoder returns is given with the call; an
index outside a vector reads 0. -/
namespace DabStar
open List

def toI16 (n : Int) : Int := n.bmod 65536

structure SStreamParms where
  dacRate : Nat
  sbrFlag : Nat
  aacChannelMode : Nat
  psFlag : Nat
  mpegSurround : Nat
  coreSrIndex : Nat
  coreChConfig : Nat
  extensionSrIndex : Nat
  deriving DecidableEq, Repr

inductive Mp4Signal where
  | showFrameErrors (mFrameErrors : Int)
  | showRsErrors (mRsErrors : Int)
  | showRsCorrections (mTotalCorrections mCrcErrors : Int)
  | showAacErrors (mAacErrors : Int)
  | isStereo (stereo : Bool)
  | newAacFrame (sp : SStreamParms) (data : List U8)
  | processPad (buffer : List U8) (last : Int) (l1 l0 : U8)
  | convertMp4ToPcm (sp : SStreamParms) (data : List U8)
  | concealLostFrame (numSamples : Nat)
  deriving DecidableEq, Repr

inductive Mp4Read where
  | mOutVec (first count : Int)
  | padData (taken aacFrameLen : Int)
  | padCopy (index count : Int)
  deriving DecidableEq, Repr

structure AacBackend where
  concealDropouts : Bool
  aacErr : Nat → Int

structure Mp4Processor where
  mBitRate : Int
  mRsDims : Int
  mBlockFillIndex : Nat := 0
  mBlocksInBuffer : Nat := 0
  mSuperFrameSync : Int := 0
  mFrameCount : Nat := 0
  mFrameErrors : Int := 0
  mRsErrors : Int := 0
  mCrcErrors : Int := 0
  mAacErrors : Int := 0
  mAacFrames : Nat := 0
  mSuccessFrames : Nat := 0
  mGoodFrames : Nat := 0
  mTotalCorrections : Int := 0
  mFrameByteVec : List U8
  mOutVec : List U8
  deriving DecidableEq, Repr

namespace Mp4Processor

def byteOf (vec : List U8) (index : Int) : U8 := if index < 0 then 0#8 else vec.getD index.toNat 0#8

def slice (vec : List U8) (first count : Int) : List U8 := (range count.toNat).map (fun k : Nat => byteOf vec (first + k))

def newMp4Processor (iBitRate : Int) : Mp4Processor :=
  let mBitRate := toI16 iBitRate
  let mRsDims := mBitRate.tdiv 8
  { mBitRate := mBitRate, mRsDims := mRsDims, mFrameByteVec := replicate (mRsDims * 120).toNat 0#8
    mOutVec := replicate (mRsDims * 110).toNat 0#8 }

def rsIn (s : Mp4Processor) (frameBytes : List U8) (iBase : Int) (j : Nat) : List U8 :=
  (range 120).map (fun k : Nat => byteOf frameBytes ((iBase + j + k * s.mRsDims).tmod (s.mRsDims * 120)))

def rsColumn (s : Mp4Processor) (frameBytes : List U8) (iBase : Int) (j : Nat) : Mp4Processor × List Mp4Signal :=
  let (ler, rsOut) := mRsDecoder.dec (s.rsIn frameBytes iBase j) 135
  let (s, signals) :=
    if ler < 0 then ({ s with mRsErrors := toI16 (s.mRsErrors + 1) }, [])
    else
      let total := s.mTotalCorrections + ler
      if s.mGoodFrames + 1 ≥ 100 then
        ({ s with mTotalCorrections := 0, mGoodFrames := 0, mCrcErrors := 0 },
          [Mp4Signal.showRsCorrections total s.mCrcErrors])
      else ({ s with mTotalCorrections := total, mGoodFrames := s.mGoodFrames + 1 }, [])
  let out := (range 110).foldl (fun out k => out.set (j + k * s.mRsDims.toNat) (rsOut.getD k 0#8)) s.mOutVec
  ({ s with mOutVec := out }, signals)

def rsColumns (frameBytes : List U8) (iBase : Int) : List Nat → Mp4Processor → Mp4Processor × List Mp4Signal
  | [], s => (s, [])
  | j :: js, s =>
    let (s, signals) := s.rsColumn frameBytes iBase j
    let (s, more) := rsColumns frameBytes iBase js s
    (s, signals ++ more)

def processReedSolomonFrame (s : Mp4Processor) (frameBytes : List U8) (iBase : Int) :
    Bool × Mp4Processor × List Mp4Signal :=
  let (s, signals) := rsColumns frameBytes iBase (range s.mRsDims.toNat) s
  let (ok, out) := FirecodeChecker.checkAndCorrect6bits s.mOutVec
  (ok, { s with mOutVec := out }, signals)

structure Step where
  next : Mp4Processor
  signals : List Mp4Signal := []
  reads : List Mp4Read := []

def streamParameters (out : List U8) : SStreamParms :=
  let b := (out.getD 2 0#8).toNat
  let dacRate := (b >>> 6) &&& 1
  let sbrFlag := (b >>> 5) &&& 1
  let aacChannelMode := (b >>> 4) &&& 1
  { dacRate := dacRate, sbrFlag := sbrFlag, aacChannelMode := aacChannelMode, psFlag := (b >>> 3) &&& 1
    mpegSurround := b &&& 7
    coreSrIndex := if dacRate ≠ 0 then (if sbrFlag ≠ 0 then 6 else 3) else (if sbrFlag ≠ 0 then 8 else 5)
    coreChConfig := if aacChannelMode ≠ 0 then 2 else 1
    extensionSrIndex := if dacRate ≠ 0 then 3 else 5 }

def auStartArr (out : List U8) (mBitRate : Int) (sp : SStreamParms) : List Int × Mp4Read :=
  let b := fun i => (out.getD i 0#8).toNat
  let high := fun i => ((b i * 16 + (b (i + 1) >>> 4) : Nat) : Int)
  let low := fun i => (((b i &&& 0xf) * 256 + b (i + 1) : Nat) : Int)
  let last := toI16 (110 * mBitRate.tdiv 8)
  match 2 * sp.dacRate + sp.sbrFlag with
  | 0 => ([8,high 3,low 4,high 6,last], .mOutVec 2 6)
  | 1 => ([5,high 3,last], .mOutVec 2 3)
  | 2 => ([11,high 3,low 4,high 6,low 7,high 9,last], .mOutVec 2 9)
  | _ => ([6,high 3,low 4,last], .mOutVec 2 4)

def checkCrcBytes (msg : List U8) (len : Nat) : Bool :=
  let crc := ((msg.getD len 0#8).toNat <<< 8) ||| (msg.getD (len + 1) 0#8).toNat
  crc ^^^ calcCrc ((msg.take len).map BitVec.toNat) == 0

def padOf (out : List U8) (auStart aacFrameLen : Int) : List Mp4Signal × List Mp4Read :=
  if ((byteOf out auStart).toNat >>> 5) &&& 7 = 4 then
    let count : Int := (byteOf out (auStart + 1)).toNat
    let buffer := slice out (auStart + 2) count
    let l0 := byteOf buffer (count - 1)
    let l1 := byteOf buffer (count - 2)
    ([.processPad buffer (count - 3) l1 l0],
      [.mOutVec auStart 2,.mOutVec (auStart + 2) count,.padData (count + 2) aacFrameLen,.padCopy (count - 1) count,
        .padCopy (count - 2) count])
  else ([], [.mOutVec auStart 1])

def conceal (backend : AacBackend) (sp : SStreamParms) : List Mp4Signal :=
  if backend.concealDropouts then [.concealLostFrame (960 * (if sp.sbrFlag ≠ 0 then 2 else 1) * 2)] else []

def countAacFrame (step : Step) : Step :=
  if step.next.mAacFrames + 1 > 25 then
    { step with
      next := { step.next with mAacErrors := 0, mAacFrames := 0 }
      signals := step.signals ++ [.showAacErrors step.next.mAacErrors] }
  else { step with next := { step.next with mAacFrames := step.next.mAacFrames + 1 } }

def processUnit (s : Mp4Processor) (backend : AacBackend) (sp : SStreamParms) (auIdx : Nat) (auStart auNext : Int) : Step :=
  let aacFrameLen := auNext - auStart - 2
  if aacFrameLen > 960 ∨ aacFrameLen < 0 then
    { next := { s with mAacErrors := toI16 (s.mAacErrors + 1) }, signals := conceal backend sp }
  else if checkCrcBytes (slice s.mOutVec auStart (aacFrameLen + 2)) aacFrameLen.toNat then
    let data := slice s.mOutVec auStart aacFrameLen
    let (pad, padReads) := padOf s.mOutVec auStart aacFrameLen
    let failed := backend.aacErr auIdx ≤ 0
    { next := if failed then { s with mAacErrors := toI16 (s.mAacErrors + 1) } else s
      signals := [.newAacFrame sp data] ++ pad ++ [.convertMp4ToPcm sp data,
        .isStereo (sp.aacChannelMode == 1 || sp.psFlag == 1)] ++ (if failed then conceal backend sp else [])
      reads := [.mOutVec auStart (aacFrameLen + 2),.mOutVec auStart aacFrameLen] ++ padReads }
  else
    { next := { s with mCrcErrors := toI16 (s.mCrcErrors + 1) }, signals := conceal backend sp
      reads := [.mOutVec auStart (aacFrameLen + 2)] }

def processUnits (backend : AacBackend) (sp : SStreamParms) : List Int → Nat → Mp4Processor → Step
  | auStart :: auNext :: rest, auIdx, s =>
    let unit := countAacFrame (s.processUnit backend sp auIdx auStart auNext)
    let more := processUnits backend sp (auNext :: rest) (auIdx + 1) unit.next
    ⟨more.next,unit.signals ++ more.signals,unit.reads ++ more.reads⟩
  | _, _, s => { next := s }

def processOutVec (s : Mp4Processor) (backend : AacBackend) : Step :=
  let sp := streamParameters s.mOutVec
  let (starts, header) := auStartArr s.mOutVec s.mBitRate sp
  let units := processUnits backend sp starts 0 s
  { units with reads := header :: units.reads }

def processSuperFrame (s : Mp4Processor) (backend : AacBackend) (frameBytes : List U8) (iBase : Int) : Bool × Step :=
  let (ok, s, signals) := s.processReedSolomonFrame frameBytes iBase
  if ok then
    let units := s.processOutVec backend
    (true, { units with signals := signals ++ units.signals })
  else (false, { next := s, signals := signals })

structure SuperFrame where
  frameBytes : List U8
  iBase : Int
  ok : Bool
  deriving DecidableEq, Repr

structure Outcome where
  next : Mp4Processor
  attempted : Bool := false
  handed : Option SuperFrame := none
  signals : List Mp4Signal := []
  reads : List Mp4Read := []

def numBytes (s : Mp4Processor) : Int := (toI16 (24 * s.mBitRate)).tdiv 8

def frameByte (iV : List Bool) (i : Nat) : U8 :=
  (range 8).foldl (fun temp j => (temp <<< 1) ||| BitVec.ofNat 8 (iV.getD (i * 8 + j) false).toNat) 0#8

def storeFrame (s : Mp4Processor) (iV : List Bool) : Mp4Processor :=
  { s with
    mFrameByteVec := (range s.numBytes.toNat).foldl (fun vec i =>
      vec.set (s.mBlockFillIndex * s.numBytes.toNat + i) (frameByte iV i)) s.mFrameByteVec
    mBlocksInBuffer := s.mBlocksInBuffer + 1
    mBlockFillIndex := (s.mBlockFillIndex + 1) % 5 }

def countFrame (s : Mp4Processor) : Mp4Processor × List Mp4Signal :=
  if s.mFrameCount + 1 ≥ 25 then
    ({ s with mFrameCount := 0, mFrameErrors := 0 }, [.showFrameErrors s.mFrameErrors])
  else ({ s with mFrameCount := s.mFrameCount + 1 }, [])

def iBase (s : Mp4Processor) : Int := s.mBlockFillIndex * s.numBytes

def search (s : Mp4Processor) : Mp4Processor :=
  if s.mSuperFrameSync = 0 then
    if FirecodeChecker.check (slice s.mFrameByteVec s.iBase 11) then { s with mSuperFrameSync := 4 }
    else { s with mBlocksInBuffer := 4 }
  else s

def accepted (s : Mp4Processor) : Mp4Processor × List Mp4Signal :=
  let s := { s with mSuperFrameSync := 4 }
  if s.mSuccessFrames + 1 > 25 then
    ({ s with mSuccessFrames := 0, mRsErrors := 0 }, [.showRsErrors s.mRsErrors])
  else ({ s with mSuccessFrames := s.mSuccessFrames + 1 }, [])

def rejected (s : Mp4Processor) : Mp4Processor :=
  let s := { s with mSuperFrameSync := s.mSuperFrameSync - 1 }
  if s.mSuperFrameSync = 0 then { s with mBlocksInBuffer := 4, mFrameErrors := toI16 (s.mFrameErrors + 1) } else s

def handOver (s : Mp4Processor) (backend : AacBackend) : Outcome :=
  let s := { s with mBlocksInBuffer := 0 }
  let (ok, step) := s.processSuperFrame backend s.mFrameByteVec s.iBase
  let (next, signals) := if ok then step.next.accepted else (step.next.rejected, [])
  { next := next, attempted := true, handed := some ⟨s.mFrameByteVec,s.iBase,ok⟩, signals := step.signals ++ signals
    reads := step.reads }

def addToFrame (s : Mp4Processor) (backend : AacBackend) (iV : List Bool) : Outcome :=
  let s := s.storeFrame iV
  if s.mBlocksInBuffer ≥ 5 then
    let (s, signals) := s.countFrame
    let s := s.search
    if s.mSuperFrameSync ≠ 0 then
      let out := s.handOver backend
      { out with signals := signals ++ out.signals }
    else { next := s, attempted := true, signals := signals }
  else { next := s }

end Mp4Processor

end DabStar
