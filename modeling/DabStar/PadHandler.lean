import DabStar.MotHandler

/-! Programme associated data (backend/data/pad_handler.cpp): dynamic labels, MOT data groups
and Journaline in the X-PAD of an audio frame. The bytes stand in reverse order, so a buffer
and its last index are handed in; a byte outside reads 0. -/
namespace DabStar
open Mp4Processor (byteOf)

inductive PadSignal where
  | showLabel (text : List U8) (charSet : Nat)
  | showMotHandling
  | journalineDataGroup (data : List U8)
  | mot (signal : MotSignal)
  | buildMscSegment (data : List U8)
  deriving DecidableEq, Repr

structure PadHandler where
  mDynamicLabelTextUnConverted : List U8 := []
  mCharSet : Nat := 0
  mMotObject : MotObject := MotObject.newMotObject false true
  mLastAppType : Nat := 0
  mMscGroupElement : Bool := false
  mXPadLength : Int := -1
  mStillToGo : Nat := 0
  mShortPadData : List U8 := []
  mLastSegment : Bool := false
  mFirstSegment : Bool := false
  mDataGroupLength : Nat := 0
  mMscDataGroupBuffer : List U8 := []
  mSegmentNo : Int := -1
  mRemainDataLength : Nat := 0
  mIsLastSegment : Bool := false
  mMoreXPad : Bool := false
  mJournalineXPadAppTy : Int := -1
  mJournalineDataGroupBuffer : List U8 := []
  mJournalineDataGroupLength : Nat := 0
  deriving DecidableEq, Repr

namespace PadHandler

def getLength (val : U8) : Nat := [4,6,8,12,16,24,32,48].getD (val.toNat >>> 5) 0

def getApplType (val : U8) : Nat := val.toNat &&& 0x1F

def setXpadJournalineAppType (s : PadHandler) (xPadAppTy : Int) : PadHandler := { s with mJournalineXPadAppTy := xPadAppTy }

section DynamicLabel
variable (s : PadHandler) (data : List U8)

/- Behind the segment number: a command, or text, of which the field may hold only a part. -/
def labelStart : PadHandler × List PadSignal :=
  let prefixBits := be16 data 0
  let field1 := (prefixBits >>> 8) &&& 0x0F
  let last := (prefixBits >>> 13) &&& 1 ≠ 0
  if (prefixBits >>> 12) &&& 1 ≠ 0 then
    if field1 = 1 then ({ s with mDynamicLabelTextUnConverted := [], mSegmentNo := -1 }, []) else (s, [])
  else
    let totalDataLength := field1 + 1
    let more := decide (data.length - 2 < totalDataLength)
    let dataLength := if more then data.length - 2 else totalDataLength
    let text := s.mDynamicLabelTextUnConverted ++ (data.drop 2).take dataLength
    let t := { s with
      mMoreXPad := more
      mDynamicLabelTextUnConverted := text
      mRemainDataLength := totalDataLength - dataLength }
    if last then
      if !more then ({ t with mSegmentNo := -1 }, [.showLabel text s.mCharSet]) else ({ t with mIsLastSegment := true }, [])
    else ({ t with mIsLastSegment := false }, [])

def labelContinuation : PadHandler × List PadSignal :=
  let more := decide (s.mRemainDataLength > data.length)
  let dataLength := if more then data.length else s.mRemainDataLength
  let text := s.mDynamicLabelTextUnConverted ++ data.take dataLength
  let t := { s with
    mMoreXPad := more
    mRemainDataLength := if more then s.mRemainDataLength - data.length else s.mRemainDataLength
    mDynamicLabelTextUnConverted := text }
  (t, if !more && s.mIsLastSegment then [.showLabel text s.mCharSet] else [])

def dynamicLabel (applType : Nat) : PadHandler × List PadSignal :=
  if applType = 2 then
    let prefixBits := be16 data 0
    if (prefixBits >>> 14) &&& 1 ≠ 0 then
      { s with mSegmentNo := 1, mCharSet := (prefixBits >>> 4) &&& 0x0F, mDynamicLabelTextUnConverted := [] }.labelStart data
    else
      let test : Int := ((prefixBits >>> 4) &&& 7 : Nat) + 1
      if test ≠ s.mSegmentNo + 1 then ({ s with mSegmentNo := -1 }, [])
      else { s with mSegmentNo := test }.labelStart data
  else if applType = 3 ∧ s.mMoreXPad then s.labelContinuation data
  else (s, [])

end DynamicLabel

structure MscSegment where
  groupType : Nat
  segmentNumber : Int
  lastFlag : Bool
  transportId : Nat
  segmentSize : Nat
  start : Nat
  deriving DecidableEq, Repr

section MscDataGroups
variable (s : PadHandler) (data : List U8)

def parseMscSegment (dataGroupLength : Nat) : Option MscSegment :=
  let size := min data.length dataGroupLength
  let header := (data.getD 0 0#8).toNat
  let groupType := header &&& 0x0F
  if size < 2 then none
  else if header &&& 0x40 ≠ 0 ∧ ¬ Mp4Processor.checkCrcBytes data (size - 2) then none
  else if groupType ≠ 3 ∧ groupType ≠ 4 then none
  else
    let index := if header &&& 0x80 ≠ 0 then 4 else 2
    let segmentFlag := header &&& 0x20 ≠ 0
    let lastFlag := decide (segmentFlag ∧ (data.getD index 0#8).toNat &&& 0x80 ≠ 0)
    let segmentNumber : Int :=
      if segmentFlag then ((((data.getD index 0#8).toNat &&& 0x7F) <<< 8) ||| (data.getD (index + 1) 0#8).toNat : Nat) else -1
    let index := index + if segmentFlag then 2 else 0
    let userAccessFlag := header &&& 0x10 ≠ 0
    let access := (data.getD index 0#8).toNat
    let transportIdFlag := userAccessFlag ∧ access &&& 0x10 ≠ 0
    let transportId := be16 data (index + 1)
    let index := index + if userAccessFlag then 1 + (access &&& 0x0F) else 0
    if ¬ transportIdFlag then none
    else
      let segmentSize := (((data.getD index 0#8).toNat &&& 0x1F) <<< 8) ||| (data.getD (index + 1) 0#8).toNat
      some ⟨groupType,segmentNumber,lastFlag,transportId,segmentSize,index + 2⟩

def buildMscSegment : PadHandler × List PadSignal :=
  match parseMscSegment data s.mDataGroupLength with
  | none => (s, [.buildMscSegment data])
  | some g =>
    let result :=
      if g.groupType = 3 then s.mMotObject.setHeader (data.drop g.start) g.transportId
      else s.mMotObject.addBodySegment (data.drop g.start) g.segmentNumber g.segmentSize g.lastFlag g.transportId
    ({ s with mMotObject := result.1 }, .buildMscSegment data :: result.2.map .mot)

def newMscElement : PadHandler × List PadSignal :=
  let s := { s with mMscDataGroupBuffer := [] }
  if data.length ≥ s.mDataGroupLength % 65536 then
    let (t, signals) := s.buildMscSegment data
    ({ t with mMscGroupElement := false }, signals ++ [.showMotHandling])
  else ({ s with mMscGroupElement := true, mMscDataGroupBuffer := data }, [.showMotHandling])

def addMscElement : PadHandler × List PadSignal :=
  if s.mMscDataGroupBuffer = [] then (s, [])
  else
    let s := { s with mMscDataGroupBuffer := s.mMscDataGroupBuffer ++ data }
    if s.mMscDataGroupBuffer.length ≥ s.mDataGroupLength then
      let (t, signals) := s.buildMscSegment s.mMscDataGroupBuffer
      ({ t with mMscDataGroupBuffer := [] }, signals)
    else (s, [])

end MscDataGroups

section Journaline
variable (s : PadHandler) (data : List U8)

def emitJournalineDataGroupIfComplete : PadHandler × List PadSignal :=
  if s.mJournalineDataGroupBuffer.length ≥ s.mJournalineDataGroupLength then
    ({ s with mJournalineDataGroupBuffer := [] }, [.journalineDataGroup (s.mJournalineDataGroupBuffer.take s.mJournalineDataGroupLength)])
  else (s, [])

def newJournalineElement : PadHandler × List PadSignal :=
  let s := { s with mJournalineDataGroupBuffer := [], mJournalineDataGroupLength := s.mDataGroupLength }
  if s.mJournalineDataGroupLength ≤ 0 then (s, [])
  else { s with mJournalineDataGroupBuffer := data }.emitJournalineDataGroupIfComplete

def addJournalineElement : PadHandler × List PadSignal :=
  if s.mJournalineDataGroupBuffer = [] then (s, [])
  else { s with mJournalineDataGroupBuffer := s.mJournalineDataGroupBuffer ++ data }.emitJournalineDataGroupIfComplete

def handleXpadJournaline (appType : Nat) : PadHandler × List PadSignal :=
  if s.mJournalineXPadAppTy < 0 then (s, [])
  else if (appType : Int) = s.mJournalineXPadAppTy then s.newJournalineElement data
  else if (appType : Int) = s.mJournalineXPadAppTy + 1 then s.addJournalineElement data
  else (s, [])

end Journaline

section VariablePad
variable (s : PadHandler)

def collect (buffer : List U8) (base : Int) (length : Nat) : List U8 := (List.range length).map (fun j : Nat => byteOf buffer (base - j))

def handlePlain (data : List U8) : PadHandler × List PadSignal :=
  match s.mLastAppType with
  | 2 | 3 => s.dynamicLabel data 3
  | 12 | 13 => if s.mMscGroupElement then s.addMscElement data else (s, [])
  | appType =>
    if s.mJournalineXPadAppTy ≥ 0 ∧ ((appType : Int) = s.mJournalineXPadAppTy ∨ (appType : Int) = s.mJournalineXPadAppTy + 1) then
      s.addJournalineElement data
    else (s, [])

def handleApplication (appType : Nat) (data : List U8) : PadHandler × List PadSignal :=
  match appType with
  | 1 =>
    if data.length = 4 ∧ Mp4Processor.checkCrcBytes data 2 then
      ({ s with mDataGroupLength := (((data.getD 0 0#8).toNat &&& 0x3F) <<< 8) ||| (data.getD 1 0#8).toNat }, [])
    else (s, [])
  | 2 => s.dynamicLabel data 2
  | 3 => s.dynamicLabel data 3
  | 12 => s.newMscElement data
  | 13 => s.addMscElement data
  | _ => s.handleXpadJournaline data appType

def handleContent (appType : Nat) (data : List U8) : PadHandler × List PadSignal :=
  let (t, signals) := s.handleApplication appType data
  ({ t with mLastAppType := appType }, signals)

def readIndicators (buffer : List U8) : Nat → Int → List U8 × Int
  | 0, base => ([], base)
  | count + 1, base =>
    if getApplType (byteOf buffer base) = 0 then ([], base - 1)
    else
      let (table, next) := readIndicators buffer count (base - 1)
      (byteOf buffer base :: table, next)

def handleContents (buffer : List U8) : List U8 → Int → PadHandler → PadHandler × List PadSignal
  | [], _, s => (s, [])
  | ci :: rest, base, s =>
    let (s, signals) := s.handleContent (getApplType ci) (collect buffer base (getLength ci))
    let base := base - getLength ci
    if base < -1 then (s, signals)
    else
      let (t, more) := handleContents buffer rest base s
      (t, signals ++ more)

def xPadLengthOf (table : List U8) : Nat := (table.map getLength).sum + if table.length = 4 then 4 else table.length + 1

def handleVariablePad (buffer : List U8) (last : Int) (ciFlag : Bool) : PadHandler × List PadSignal :=
  if !ciFlag then
    if s.mXPadLength > 0 then
      if last < s.mXPadLength - 1 then (s, []) else s.handlePlain (collect buffer last s.mXPadLength.toNat)
    else (s, [])
  else
    let (table, base) := readIndicators buffer 4 last
    handleContents buffer table base { s with mXPadLength := xPadLengthOf table }

end VariablePad

section ShortPad
variable (s : PadHandler)

def shortStart (flags first : U8) : PadHandler × List PadSignal :=
  let opening := s.mFirstSegment && !s.mLastSegment
  let signals := if opening && !s.mDynamicLabelTextUnConverted.isEmpty then
    [.showLabel s.mDynamicLabelTextUnConverted s.mCharSet] else []
  let text := if opening then [] else s.mDynamicLabelTextUnConverted
  ({ s with mDynamicLabelTextUnConverted := text, mStillToGo := flags.toNat &&& 0x0F, mShortPadData := [first] }, signals)

def shortContinuation (bytes : List U8) : PadHandler × List PadSignal :=
  let t := { s with
    mStillToGo := s.mStillToGo - min 3 s.mStillToGo
    mShortPadData := s.mShortPadData ++ bytes.take (min 3 s.mStillToGo) }
  if t.mStillToGo ≤ 0 ∧ t.mShortPadData.length > 1 then
    ({ t with mDynamicLabelTextUnConverted := t.mDynamicLabelTextUnConverted ++ t.mShortPadData, mShortPadData := [] }, [])
  else (t, [])

def shortPlain (bytes : List U8) : PadHandler × List PadSignal :=
  let t := { s with
    mStillToGo := s.mStillToGo - min 4 s.mStillToGo
    mShortPadData := s.mShortPadData ++ bytes.take (min 4 s.mStillToGo) }
  if t.mStillToGo ≤ 0 ∧ t.mShortPadData.length > 0 then
    let text := t.mDynamicLabelTextUnConverted ++ t.mShortPadData
    if !t.mFirstSegment && t.mLastSegment then
      ({ t with mDynamicLabelTextUnConverted := [], mShortPadData := [] }, if text.isEmpty then [] else [.showLabel text t.mCharSet])
    else ({ t with mDynamicLabelTextUnConverted := text, mShortPadData := [] }, [])
  else (t, [])

def handleShortPad (buffer : List U8) (last : Int) (ciFlag : Bool) : PadHandler × List PadSignal :=
  if ciFlag then
    let flags := byteOf buffer (last - 1)
    let first := decide (flags.toNat &&& 0x40 ≠ 0)
    let s := { s with
      mFirstSegment := first
      mLastSegment := decide (flags.toNat &&& 0x20 ≠ 0)
      mCharSet := (byteOf buffer (last - 2)).toNat &&& 0x0F
      mDynamicLabelTextUnConverted := if first then [] else s.mDynamicLabelTextUnConverted }
    match getApplType (byteOf buffer last) with
    | 2 => s.shortStart flags (byteOf buffer (last - 3))
    | 3 => s.shortContinuation (collect buffer (last - 1) 3)
    | _ => (s, [])
  else s.shortPlain (collect buffer last 4)

end ShortPad

def processPad (s : PadHandler) (buffer : List U8) (last : Int) (l1 l0 : U8) : PadHandler × List PadSignal :=
  if (l1.toNat >>> 6) &&& 0x3 ≠ 0 then (s, [])
  else
    let ciFlag := decide (l0.toNat &&& 0x2 ≠ 0)
    match (l1.toNat >>> 4) &&& 0x3 with
    | 1 => s.handleShortPad buffer last ciFlag
    | 2 => s.handleVariablePad buffer last ciFlag
    | _ => (s, [])

end PadHandler
end DabStar
