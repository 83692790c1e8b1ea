import DabStar.Fig0

/-! FIG type 1, the walk through a FIB, the two timer slots and the queries other
components make (decoder/fib_decoder_fig1.cpp, fib_decoder.cpp). The conversion of a
label to Unicode is Qt's; it is a parameter. -/
namespace DabStar.Fib
namespace FibDecoder

section Fig1

variable (toQString : Nat → List Nat → List Nat)

def isCharsetValid (charset : Nat) : Bool := charset = 0 ∨ charset = 6 ∨ charset = 15

def resizeText (size : Nat) (text : List Nat) : List Nat := (text ++ List.replicate size 32).take size

def extractCharacterSetLabel (d : Bits) (labelOffs : Nat) : Option Label :=
  let charset := getBits4 d 8
  if isCharsetValid charset then
    let label := (List.range 16).map (fun i => getBits8 d (labelOffs + 8 * i))
    let charFlagField := getBits d (labelOffs + 128) 16
    let name := resizeText 16 (toQString charset label)
    let short := ((List.range 16).filter (fun i => d (labelOffs + 128 + i))).map (fun i => name.getD i 32)
    some ⟨charset,name,resizeText 8 short,charFlagField⟩
  else none

def processFig1s0 (s : FibDecoder) (d : Bits) : FibDecoder :=
  match extractCharacterSetLabel toQString d 32 with
  | none => s
  | some label => match s.fig1.fig1s0Vec with
    | _ :: _ => s
    | [] =>
      let eId := getBits d 16 16
      { s with fig1 := { s.fig1 with fig1s0Vec := [⟨label,eId⟩] } }.emit
        (.nameOfEnsemble eId label.name label.nameShort)

def processFig1s1 (s : FibDecoder) (d : Bits) : FibDecoder :=
  let sId := getBits d 16 16
  match extractCharacterSetLabel toQString d 32 with
  | none => s
  | some label => match s.fig1.getFig1s1OfSId sId with
    | some _ => s
    | none =>
      let c : FibConfigFig1 := { s.fig1 with fig1s1Vec := s.fig1.fig1s1Vec ++ [⟨label,sId⟩] }
      { s with fig1 := c.tryEmplace label.name sId (-1) }.retriggerTimerDataLoaded

def processFig1s4 (s : FibDecoder) (d : Bits) : FibDecoder :=
  let pdFlag := getBits1 d 16
  let scIdS := getBits4 d 20
  let sId := if pdFlag ≠ 0 then getLBits d 24 32 else getLBits d 24 16
  match s.fig1.getFig1s4OfSIdSCIdS sId scIdS with
  | some _ => s
  | none => match extractCharacterSetLabel toQString d (if pdFlag ≠ 0 then 56 else 40) with
    | none => s
    | some label =>
      let c : FibConfigFig1 := { s.fig1 with fig1s4Vec := s.fig1.fig1s4Vec ++ [⟨label,pdFlag,scIdS,sId⟩] }
      { s with fig1 := c.tryEmplace label.name sId scIdS }.retriggerTimerDataLoaded

def processFig1s5 (s : FibDecoder) (d : Bits) : FibDecoder :=
  let sId := getLBits d 16 32
  match s.fig1.getFig1s5OfSId sId with
  | some _ => s
  | none => match extractCharacterSetLabel toQString d 48 with
    | none => s
    | some label =>
      let c : FibConfigFig1 := { s.fig1 with fig1s5Vec := s.fig1.fig1s5Vec ++ [⟨label,sId⟩] }
      { s with fig1 := c.tryEmplace label.name sId (-5) }.retriggerTimerDataLoaded

def processFig1 (s : FibDecoder) (d : Bits) : FibDecoder :=
  match getBits3 d 13 with
  | 0 => processFig1s0 toQString s d
  | 1 => processFig1s1 toQString s d
  | 4 => processFig1s4 toQString s d
  | 5 => processFig1s5 toQString s d
  | _ => s

end Fig1

section Fib

variable (toQString : Nat → List Nat → List Nat)

def figAt (fib : Bits) (processedBytes : Nat) : Bits := fun i => fib (8 * processedBytes + i)

def isEndMarker (d : Bits) : Bool := getBits3 d 0 = 7 ∧ getBits5 d 3 = 31

def processFig (s : FibDecoder) (d : Bits) : FibDecoder :=
  match getBits3 d 0 with
  | 0 => processFig0 s d
  | 1 => processFig1 toQString s d
  | _ => s

def fibRounds (fib : Bits) : Nat → FibDecoder → Nat → FibDecoder
  | 0, s, _ => s
  | fuel + 1, s, processedBytes =>
    if processedBytes < 30 then
      let d := figAt fib processedBytes
      if isEndMarker d then s
      else
        let s := processFig toQString s d
        if s.restartFibDecoding then s else fibRounds fib fuel s (processedBytes + getBits5 d 3 + 1)
    else s

def processFib (s : FibDecoder) (fib : Bits) : FibDecoder := fibRounds toQString fib 30 { s with restartFibDecoding := false } 0

end Fib

/- The two service queries, as far as the completeness checks use them: called without
an output record, they only tell whether the data is there. -/
def getDataForAudioService (s : FibDecoder) (fig0s2 : Fig0s2) : Bool :=
  fig0s2.pdFlag = 0 && (s.fig0Curr.getFig0s1OfSubChId fig0s2.serviceCompC.subChId).isSome &&
    (s.fig1.getFig1s1OfSId (fig0s2.sId % 65536)).isSome

def getDataForPacketService (s : FibDecoder) (fig0s2 : Fig0s2) (compIdx : Nat) : Bool :=
  if compIdx ≥ 12 then false
  else match s.fig0Curr.getFig0s3OfSCId fig0s2.serviceCompC.scId with
    | none => false
    | some fig0s3 => match s.fig0Curr.getFig0s1OfSubChId fig0s3.subChId with
      | none => false
      | some _ => match s.fig0Curr.getFig0s8OfSIdWithSCId fig0s2.sId with
        | none => false
        | some fig0s8 => match s.fig0Curr.getFig0s13OfSIdSCIdS fig0s2.sId fig0s8.scIdS with
          | none => false
          | some fig0s13 =>
            if fig0s13.numUserApps < 1 then false
            else if fig0s2.serviceCompC.psFlag = 0 then
              (s.fig1.getFig1s4OfSIdSCIdS fig0s2.sId fig0s8.scIdS).isSome
            else (s.fig1.getFig1s5OfSId fig0s2.sId).isSome

def checkAudioDataCompleteness (s : FibDecoder) : Bool :=
  let audio := s.fig0Curr.fig0s2Vec.filter (fun e => e.serviceCompC.tmId = 0)
  s.fibLoadingState = .s2PrimaryBaseDataLoaded && !audio.isEmpty && audio.all (fun e => s.getDataForAudioService e)

def checkPacketDataCompleteness (s : FibDecoder) : Bool :=
  let packet := s.fig0Curr.fig0s2Vec.filter (fun e => e.serviceCompC.tmId = 3)
  s.fibLoadingState = .s3FullyAudioDataLoaded && packet.all (fun e =>
    (List.range e.numServiceComp.toNat).all (fun compIdx => s.getDataForPacketService e compIdx))

def enterState (s : FibDecoder) (state : FibLoadingState) : FibDecoder := { s with fibLoadingState := state }.emit (.fibLoadedState state)

def slotTimerDataConsistencyCheck (s : FibDecoder) : FibDecoder :=
  let s := if s.fibLoadingState.rank ≤ 2 then
      let s := { s with fibLoadingState := .s2PrimaryBaseDataLoaded }
      if s.checkAudioDataCompleteness then s.enterState .s3FullyAudioDataLoaded else s
    else s
  if s.fibLoadingState = .s3FullyAudioDataLoaded ∧ s.checkPacketDataCompleteness then
    s.enterState .s4FullyPacketDataLoaded
  else s

def slotTimerCheckStateAndPrintFigs (s : FibDecoder) : FibDecoder :=
  let s := if s.fibLoadingState.rank < 3 then s.enterState .s3FullyAudioDataLoaded else s
  if s.fibLoadingState.rank < 4 then s.enterState .s4FullyPacketDataLoaded else s

structure ChannelData where
  inUse : Bool
  id : Int
  startCu : Int
  protlev : Int
  size : Int
  bitrate : Int
  uepFlag : Bool
  deriving DecidableEq, Repr

def channelData (inUse : Bool) (e : Fig0s1) : ChannelData :=
  ⟨inUse,e.subChId,e.startAddr,e.protectionLevel,e.subChannelSize,e.bitRate,e.shortForm⟩

def getSubChannelInfo (s : FibDecoder) (subChId : Int) : ChannelData :=
  match s.fig0Curr.getFig0s1OfSubChId subChId with
  | some e => channelData true e
  | none => channelData false {}

def getSubChannelIdList (s : FibDecoder) : List Int := s.fig0Curr.fig0s1Vec.map Fig0s1.subChId

inductive Event where
  | fib (bits : Bits)
  | connectChannel
  | disconnectChannel
  | setSIdForFastAudioSelection (sId : Nat)
  | timerDataConsistencyCheck
  | timerCheckStateAndPrintFigs

variable (toQString : Nat → List Nat → List Nat)

def step (s : FibDecoder) : Event → FibDecoder
  | .fib bits => processFib toQString s bits
  | .connectChannel => s.connectChannel
  | .disconnectChannel => s.disconnectChannel
  | .setSIdForFastAudioSelection sId => s.setSIdForFastAudioSelection sId
  | .timerDataConsistencyCheck => s.slotTimerDataConsistencyCheck
  | .timerCheckStateAndPrintFigs => s.slotTimerCheckStateAndPrintFigs

def run (s : FibDecoder) (events : List Event) : FibDecoder := events.foldl (step toQString) s

end FibDecoder
end DabStar.Fib
