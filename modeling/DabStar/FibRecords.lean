import Mathlib

/-! The stores of the FIB decoder (decoder/fib_config_fig0.h, fib_config_fig1.h, fib_decoder.h)
and the bit extractors. Time stamps, print sets and timers are left out, so a timer may fire at
any time. -/
namespace DabStar.Fib

/- A bit per element, as process_FIB gets them, continued by whatever lies behind the
array: a FIG at its end can announce more than the array holds. -/
abbrev Bits := Nat → Bool

def getBits (d : Bits) (offset : Nat) : Nat → Nat
  | 0 => 0
  | size + 1 => 2 * getBits d offset size + (d (offset + size)).toNat

def getLBits (d : Bits) (offset size : Nat) : Nat := getBits d offset size
def getBits1 (d : Bits) (offset : Nat) : Nat := getBits d offset 1
def getBits2 (d : Bits) (offset : Nat) : Nat := getBits d offset 2
def getBits3 (d : Bits) (offset : Nat) : Nat := getBits d offset 3
def getBits4 (d : Bits) (offset : Nat) : Nat := getBits d offset 4
def getBits5 (d : Bits) (offset : Nat) : Nat := getBits d offset 5
def getBits6 (d : Bits) (offset : Nat) : Nat := getBits d offset 6
def getBits8 (d : Bits) (offset : Nat) : Nat := getBits d offset 8

theorem getBitsLt (d : Bits) (offset size : Nat) : getBits d offset size < 2 ^ size := by
  induction size with
  | zero => simp [getBits]
  | succ size ih =>
    have bit := Bool.toNat_le (d (offset + size))
    simp only [getBits,Nat.pow_succ]
    omega

structure FigHeader where
  length : Nat
  cnFlag : Nat
  oeFlag : Nat
  pdFlag : Nat
  deriving DecidableEq, Repr

def getFigHeader (d : Bits) : FigHeader := ⟨getBits5 d 3,getBits1 d 8,getBits1 d 9,getBits1 d 10⟩

structure Fig0s1 where
  subChId : Int := -1
  startAddr : Int := -1
  tableSwitch : Int := -1
  tableIndex : Int := -1
  option : Int := -1
  protectionLevel : Int := -1
  subChannelSize : Int := -1
  bitRate : Int := -1
  shortForm : Bool := false
  deriving DecidableEq, Repr

/- The union of the three transport mechanisms is one 16 bit word: SubChId below the
type field for the two stream modes, SCId for the packet mode. -/
structure Fig0s2Component where
  tmId : Int := -1
  word : Nat := 65535
  psFlag : Int := -1
  caFlag : Int := -1
  deriving DecidableEq, Repr

def Fig0s2Component.subChId (c : Fig0s2Component) : Nat := c.word % 256
def Fig0s2Component.scId (c : Fig0s2Component) : Nat := c.word

structure Fig0s2 where
  pdFlag : Int := -1
  sId : Nat := 0
  numServiceComp : Int := -1
  serviceCompCIndex : Int := -1
  serviceCompC : Fig0s2Component := {}
  deriving DecidableEq, Repr

structure Fig0s3 where
  scId : Int := -1
  caOrgFlag : Int := -1
  dgFlag : Int := -1
  dscTy : Int := -1
  subChId : Int := -1
  packetAddress : Int := -1
  caOrg : Nat := 65535
  deriving DecidableEq, Repr

structure Fig0s5 where
  lsFlag : Int := -1
  language : Nat := 255
  subChId : Int := -1
  scId : Int := -1
  deriving DecidableEq, Repr

structure Fig0s7 where
  numServices : Nat
  count : Nat
  deriving DecidableEq, Repr

structure Fig0s8 where
  pdFlag : Int := -1
  sId : Nat := 4294967295
  extFlag : Int := -1
  scIdS : Int := -1
  lsFlag : Int := -1
  subChId : Int := -1
  scId : Int := -1
  deriving DecidableEq, Repr

structure Fig0s9 where
  extFlag : Int := -1
  ensembleLto : Int := -1
  ensembleEcc : Nat := 255
  interTableId : Nat := 255
  ltoMinutes : Int := 0
  deriving DecidableEq, Repr

structure XPadData where
  caFlag : Int
  caOrgFlag : Int
  xPadAppTy : Int
  dgFlag : Int
  dscTy : Int
  deriving DecidableEq, Repr

structure UserApp where
  userAppType : Int := -1
  userAppDataLength : Nat := 0
  xPadData : Option XPadData := none
  deriving DecidableEq, Repr

structure Fig0s13 where
  pdFlag : Int := -1
  sId : Nat := 4294967295
  scIdS : Int := -1
  numUserApps : Nat := 0
  userAppVec : List UserApp := []
  sizeBits : Nat := 0
  deriving DecidableEq, Repr

structure Fig0s14 where
  subChId : Int := -1
  fecScheme : Int := -1
  deriving DecidableEq, Repr

structure Fig0s17 where
  sId : Nat := 0
  sdFlag : Int := -1
  intCode : Int := -1
  deriving DecidableEq, Repr

structure Cluster where
  flags : Nat := 0
  inUse : Bool := false
  announcing : Nat := 0
  clusterId : Int := -1
  servicesSIDs : List Nat := []
  deriving DecidableEq, Repr

structure FibConfigFig0 where
  fig0s1Vec : List Fig0s1 := []
  fig0s2Vec : List Fig0s2 := []
  fig0s3Vec : List Fig0s3 := []
  fig0s5Vec : List Fig0s5 := []
  fig0s7Vec : List Fig0s7 := []
  fig0s8Vec : List Fig0s8 := []
  fig0s9Vec : List Fig0s9 := []
  fig0s13Vec : List Fig0s13 := []
  fig0s14Vec : List Fig0s14 := []
  fig0s17Vec : List Fig0s17 := []
  clusterTable : List Cluster := List.replicate 128 {}
  deriving DecidableEq, Repr

namespace FibConfigFig0
variable (c : FibConfigFig0)

/- The cluster table is not among the stores that reset clears. -/
def reset : FibConfigFig0 := { clusterTable := c.clusterTable }

def getFig0s1OfSubChId (subChId : Int) : Option Fig0s1 := c.fig0s1Vec.find? (fun e => e.subChId = subChId)

def getFig0s2OfSIdTMId (sId : Nat) (tmId : Int) : Option Fig0s2 := c.fig0s2Vec.find? (fun e => e.sId = sId ∧ e.serviceCompC.tmId = tmId)

def getFig0s2OfSIdScIdx (sId : Nat) (scIdx : Int) : Option Fig0s2 := c.fig0s2Vec.find? (fun e => e.sId = sId ∧ e.serviceCompCIndex = scIdx)

def getFig0s3OfSCId (scId : Int) : Option Fig0s3 := c.fig0s3Vec.find? (fun e => e.scId = scId)

def getFig0s5OfSubChId (subChId : Nat) : Option Fig0s5 := c.fig0s5Vec.find? (fun e => e.lsFlag = 0 ∧ e.subChId = subChId)

/- The parameter is an unsigned byte, so only eight of the twelve bits are looked for. -/
def getFig0s5OfSCId (scId : Nat) : Option Fig0s5 := c.fig0s5Vec.find? (fun e => e.lsFlag = 1 ∧ e.scId = (scId % 256 : Nat))

def getFig0s8OfSIdSCIdS (sId : Nat) (scIdS : Int) : Option Fig0s8 := c.fig0s8Vec.find? (fun e => e.sId = sId ∧ e.scIdS = scIdS)

def getFig0s8OfSIdWithSCId (sId : Nat) : Option Fig0s8 := c.fig0s8Vec.find? (fun e => e.lsFlag = 1 ∧ e.sId = sId)

def getFig0s13OfSIdSCIdS (sId : Nat) (scIdS : Int) : Option Fig0s13 := c.fig0s13Vec.find? (fun e => e.sId = sId ∧ e.scIdS = scIdS)

def getFig0s14OfSubChId (subChId : Int) : Option Fig0s14 := c.fig0s14Vec.find? (fun e => e.subChId = subChId)

def getFig0s17OfSId (sId : Nat) : Option Fig0s17 := c.fig0s17Vec.find? (fun e => e.sId = sId)

end FibConfigFig0

structure Label where
  charset : Nat
  name : List Nat
  nameShort : List Nat
  charFlagField : Nat
  deriving DecidableEq, Repr

structure Fig1s0 where
  label : Label
  eId : Nat
  deriving DecidableEq, Repr

structure Fig1s1 where
  label : Label
  sId : Nat
  deriving DecidableEq, Repr

structure Fig1s4 where
  label : Label
  pdFlag : Nat
  scIdS : Int
  sId : Nat
  deriving DecidableEq, Repr

structure Fig1s5 where
  label : Label
  sId : Nat
  deriving DecidableEq, Repr

structure FibConfigFig1 where
  fig1s0Vec : List Fig1s0 := []
  fig1s1Vec : List Fig1s1 := []
  fig1s4Vec : List Fig1s4 := []
  fig1s5Vec : List Fig1s5 := []
  serviceLabelMap : List (List Nat × Nat × Int) := []
  deriving DecidableEq, Repr

namespace FibConfigFig1
variable (c : FibConfigFig1)

def reset (_ : FibConfigFig1) : FibConfigFig1 := {}

def getFig1s1OfSId (sId : Nat) : Option Fig1s1 := c.fig1s1Vec.find? (fun e => e.sId = sId)

def getFig1s4OfSIdSCIdS (sId : Nat) (scIdS : Int) : Option Fig1s4 := c.fig1s4Vec.find? (fun e => e.sId = sId ∧ e.scIdS = scIdS)

def getFig1s5OfSId (sId : Nat) : Option Fig1s5 := c.fig1s5Vec.find? (fun e => e.sId = sId)

def getServiceLabelOfSId (sId : Nat) : List Nat :=
  match c.getFig1s1OfSId sId with
  | some e => e.label.name
  | none => match c.getFig1s5OfSId sId with
    | some e => e.label.name
    | none => []

def tryEmplace (name : List Nat) (sId : Nat) (scIdS : Int) : FibConfigFig1 :=
  if c.serviceLabelMap.any (fun e => e.1 = name) then c
  else { c with serviceLabelMap := c.serviceLabelMap ++ [(name, sId, scIdS)] }

end FibConfigFig1

inductive FibLoadingState where
  | s0Init | s1FastAudioDataLoaded | s2PrimaryBaseDataLoaded | s3FullyAudioDataLoaded
  | s4FullyPacketDataLoaded | s5DeferredDataLoaded
  deriving DecidableEq, Repr

namespace FibLoadingState

def rank : FibLoadingState → Nat
  | s0Init => 0
  | s1FastAudioDataLoaded => 1
  | s2PrimaryBaseDataLoaded => 2
  | s3FullyAudioDataLoaded => 3
  | s4FullyPacketDataLoaded => 4
  | s5DeferredDataLoaded => 5

end FibLoadingState

structure UtcTimeSet where
  modJulianDate : Nat := 0
  hour : Nat := 0
  minute : Nat := 0
  second : Int := 0
  ltoMinutes : Int := 0
  deriving DecidableEq, Repr

inductive Signal where
  | nameOfEnsemble (eId : Nat) (name nameShort : List Nat)
  | changeInConfiguration
  | startAnnouncement (name : List Nat) (subChId : Nat)
  | stopAnnouncement (name : List Nat) (subChId : Nat)
  | ewsAvailable
  | fibTimeInfo (time : UtcTimeSet)
  | fibLoadedState (state : FibLoadingState)
  deriving DecidableEq, Repr

structure FibDecoder where
  fig1 : FibConfigFig1 := {}
  fig0Curr : FibConfigFig0 := {}
  fig0Next : FibConfigFig0 := {}
  cifCount : Nat := 0
  cifCountHi : Nat := 0
  cifCountLo : Nat := 0
  modJulianDate : Nat := 0
  sIdForFastAudioSelection : Nat := 0
  prevChangeFlag : Nat := 0
  fibLoadingState : FibLoadingState := .s0Init
  utcTimeSet : UtcTimeSet := {}
  ewsAvailable : Bool := false
  restartFibDecoding : Bool := false
  signals : List Signal := []
  deriving DecidableEq, Repr

namespace FibDecoder
variable (s : FibDecoder)

def emit (signal : Signal) : FibDecoder := { s with signals := s.signals ++ [signal] }

def getConfig (cnFlag : Nat) : FibConfigFig0 := if cnFlag = 0 then s.fig0Curr else s.fig0Next

def setConfig (cnFlag : Nat) (c : FibConfigFig0) : FibDecoder := if cnFlag = 0 then { s with fig0Curr := c } else { s with fig0Next := c }

def resetStores : FibDecoder := { s with fig0Curr := s.fig0Curr.reset, fig0Next := s.fig0Next.reset, fig1 := s.fig1.reset }

def reset : FibDecoder :=
  { s with
    fibLoadingState := .s0Init, cifCount := 0, cifCountHi := 0, cifCountLo := 0, modJulianDate := 0
    prevChangeFlag := 0, utcTimeSet := {}, ewsAvailable := false }

def restart : FibDecoder := { s.resetStores.reset with restartFibDecoding := true }

def connectChannel : FibDecoder := s.resetStores.reset

def disconnectChannel : FibDecoder := s.resetStores

def setSIdForFastAudioSelection (sId : Nat) : FibDecoder :=
  if s.fibLoadingState.rank ≥ 3 then { s with sIdForFastAudioSelection := 0 }
  else { s with sIdForFastAudioSelection := sId }

def retriggerTimerDataLoaded : FibDecoder :=
  if s.fibLoadingState.rank ≥ 4 then
    { s with fibLoadingState := .s5DeferredDataLoaded }.emit (.fibLoadedState .s5DeferredDataLoaded)
  else s

def processFastAudioSelection : FibDecoder :=
  match s.fig0Curr.getFig0s2OfSIdTMId s.sIdForFastAudioSelection 0 with
  | none => s
  | some fig0s2 => match s.fig0Curr.getFig0s1OfSubChId fig0s2.serviceCompC.subChId with
    | none => s
    | some _ =>
      let s := { s with sIdForFastAudioSelection := 0 }
      if s.fibLoadingState.rank < 1 then
        { s with fibLoadingState := .s1FastAudioDataLoaded }.emit (.fibLoadedState .s1FastAudioDataLoaded)
      else s

end FibDecoder
end DabStar.Fib
