import DabStar.FibRecords

/-! The handlers of FIG type 0 (decoder/fib_decoder_fig0.cpp), each on the bits from its FIG
header on. A sub-handler returns the byte offset behind its entry. Of FIG 0/15 only the flag
and the signal are kept. -/
namespace DabStar.Fib
namespace FibDecoder

structure ProtLevel where
  cuSize : Nat
  protLevel : Nat
  bitRate : Nat
  deriving DecidableEq, Repr

def cProtLevelTable : List ProtLevel :=
  [⟨16,5,32⟩,⟨21,4,32⟩,⟨24,3,32⟩,⟨29,2,32⟩,⟨35,1,32⟩,⟨24,5,48⟩,⟨29,4,48⟩,⟨35,3,48⟩,
   ⟨42,2,48⟩,⟨52,1,48⟩,⟨29,5,56⟩,⟨35,4,56⟩,⟨42,3,56⟩,⟨52,2,56⟩,⟨32,5,64⟩,⟨42,4,64⟩,
   ⟨48,3,64⟩,⟨58,2,64⟩,⟨70,1,64⟩,⟨40,5,80⟩,⟨52,4,80⟩,⟨58,3,80⟩,⟨70,2,80⟩,⟨84,1,80⟩,
   ⟨48,5,96⟩,⟨58,4,96⟩,⟨70,3,96⟩,⟨84,2,96⟩,⟨104,1,96⟩,⟨58,5,112⟩,⟨70,4,112⟩,⟨84,3,112⟩,
   ⟨104,2,112⟩,⟨64,5,128⟩,⟨84,4,128⟩,⟨96,3,128⟩,⟨116,2,128⟩,⟨140,1,128⟩,⟨80,5,160⟩,
   ⟨104,4,160⟩,⟨116,3,160⟩,⟨140,2,160⟩,⟨168,1,160⟩,⟨96,5,192⟩,⟨116,4,192⟩,⟨140,3,192⟩,
   ⟨168,2,192⟩,⟨208,1,192⟩,⟨116,5,224⟩,⟨140,4,224⟩,⟨168,3,224⟩,⟨208,2,224⟩,⟨232,1,224⟩,
   ⟨128,5,256⟩,⟨168,4,256⟩,⟨192,3,256⟩,⟨232,2,256⟩,⟨280,1,256⟩,⟨160,5,320⟩,⟨208,4,320⟩,
   ⟨280,2,320⟩,⟨192,5,384⟩,⟨280,3,384⟩,⟨416,1,384⟩]

def cNumCuPerCif : Int := 864

def optionATable : List Nat := [12,8,6,4]
def optionBTable : List Nat := [27,21,18,15]

def readFig0s1 (d : Bits) (bitOffset : Nat) : Fig0s1 :=
  let subChId := getBits6 d bitOffset
  let startAddr := getBits d (bitOffset + 6) 10
  if getBits1 d (bitOffset + 16) = 0 then
    let tableIndex := getBits6 d (bitOffset + 18)
    let entry := cProtLevelTable.getD tableIndex ⟨0,0,0⟩
    { subChId := subChId, startAddr := startAddr, shortForm := true
      tableSwitch := getBits1 d (bitOffset + 17), tableIndex := tableIndex
      subChannelSize := entry.cuSize, protectionLevel := entry.protLevel, bitRate := entry.bitRate }
  else
    let option := getBits3 d (bitOffset + 17)
    let level := getBits2 d (bitOffset + 20)
    let size := getBits d (bitOffset + 22) 10
    let long : Fig0s1 := { subChId := subChId, startAddr := startAddr, option := option, subChannelSize := size }
    if option = 0 then { long with protectionLevel := level, bitRate := size / optionATable.getD level 1 * 8 }
    else if option = 1 then
      { long with protectionLevel := level + 4, bitRate := size / optionBTable.getD level 1 * 32 }
    else { long with protectionLevel := level }

def entryBytes (e : Fig0s1) : Nat := if e.shortForm then 3 else 4

def Collides (e cand : Fig0s1) : Prop :=
  ¬ (e.startAddr < 0 ∨ e.subChannelSize ≤ 0) ∧
    cand.startAddr < e.startAddr + e.subChannelSize ∧ e.startAddr < cand.startAddr + cand.subChannelSize
  deriving Decidable

def findCollidingFig0s1 (l : List Fig0s1) (cand : Fig0s1) : Option Fig0s1 := l.find? (fun e => Collides e cand)

def subprocessFig0s1 (s : FibDecoder) (d : Bits) (offset : Nat) (fh : FigHeader) : FibDecoder × Nat :=
  match (s.getConfig fh.cnFlag).getFig0s1OfSubChId (getBits6 d (offset * 8)) with
  | some known => (s, offset + entryBytes known)
  | none =>
    let cand := readFig0s1 d (offset * 8)
    if cand.startAddr + cand.subChannelSize > cNumCuPerCif then (s.restart, offset + entryBytes cand)
    else match findCollidingFig0s1 (s.getConfig fh.cnFlag).fig0s1Vec cand with
      | some _ => (s.restart, offset + entryBytes cand)
      | none =>
        let c := s.getConfig fh.cnFlag
        ((s.setConfig fh.cnFlag { c with fig0s1Vec := c.fig0s1Vec ++ [cand] }).retriggerTimerDataLoaded,
          offset + entryBytes cand)

theorem readSubChId (d : Bits) (bitOffset : Nat) : (readFig0s1 d bitOffset).subChId = getBits6 d bitOffset := by
  unfold readFig0s1
  dsimp only
  split
  · rfl
  · split
    · rfl
    · split <;> rfl

def readFig0s2Component (d : Bits) (bitOffset : Nat) (before : Fig0s2Component) : Fig0s2Component :=
  let tmId := getBits2 d bitOffset
  let word :=
    if tmId = 0 ∨ tmId = 1 then getBits6 d (bitOffset + 8) + 256 * getBits6 d (bitOffset + 2)
    else if tmId = 3 then getBits d (bitOffset + 2) 12 else before.word
  ⟨tmId,word,getBits1 d (bitOffset + 14),getBits1 d (bitOffset + 15)⟩

/- One component; the record is reused for all of them, so a transport mode that is not
supported leaves the word of the component before. -/
def fig0s2Component (d : Bits) (cnFlag bitOffset : Nat) (acc : FibDecoder × Fig0s2) (i : Nat) :
    FibDecoder × Fig0s2 :=
  let (s, fig0s2) := acc
  match (s.getConfig cnFlag).getFig0s2OfSIdScIdx fig0s2.sId i with
  | some _ => (s, fig0s2)
  | none =>
    let fig0s2 := { fig0s2 with
      serviceCompCIndex := i, serviceCompC := readFig0s2Component d (bitOffset + 16 * i) fig0s2.serviceCompC }
    let c := s.getConfig cnFlag
    ((s.setConfig cnFlag { c with fig0s2Vec := c.fig0s2Vec ++ [fig0s2] }).retriggerTimerDataLoaded, fig0s2)

def subprocessFig0s2 (s : FibDecoder) (d : Bits) (offset : Nat) (fh : FigHeader) : FibDecoder × Nat :=
  let width := if fh.pdFlag = 1 then 32 else 16
  let bitOffset := 8 * offset + width + 8
  let numServiceComp := getBits4 d (8 * offset + width + 4)
  let fig0s2 : Fig0s2 :=
    { pdFlag := fh.pdFlag, sId := getLBits d (8 * offset) width, numServiceComp := numServiceComp }
  (((List.range numServiceComp).foldl (fig0s2Component d fh.cnFlag bitOffset) (s, fig0s2)).1,
    (bitOffset + 16 * numServiceComp) / 8)

def subprocessFig0s3 (s : FibDecoder) (d : Bits) (offset : Nat) (fh : FigHeader) : FibDecoder × Nat :=
  let bitOffset := offset * 8
  let c := s.getConfig fh.cnFlag
  match c.getFig0s3OfSCId (getBits d bitOffset 12) with
  | some known => (s, (bitOffset + 40 + if known.caOrgFlag ≠ 0 then 16 else 0) / 8)
  | none =>
    let caOrgFlag := getBits1 d (bitOffset + 15)
    let fig0s3 : Fig0s3 :=
      { scId := getBits d bitOffset 12, caOrgFlag := caOrgFlag, dgFlag := getBits1 d (bitOffset + 16)
        dscTy := getBits6 d (bitOffset + 18), subChId := getBits6 d (bitOffset + 24)
        packetAddress := getBits d (bitOffset + 30) 10 }
    -- the source adds 40 to an offset that was already advanced by 40
    let fig0s3 := if caOrgFlag = 1 then { fig0s3 with caOrg := getBits d (bitOffset + 80) 16 } else fig0s3
    ((s.setConfig fh.cnFlag { c with fig0s3Vec := c.fig0s3Vec ++ [fig0s3] }).retriggerTimerDataLoaded,
      (bitOffset + 40 + if caOrgFlag = 1 then 16 else 0) / 8)

def subprocessFig0s5 (s : FibDecoder) (d : Bits) (offset : Nat) (_ : FigHeader) : FibDecoder × Nat :=
  let bitOffset := offset * 8
  let store (fig0s5 : Fig0s5) : FibDecoder :=
    { s with fig0Curr := { s.fig0Curr with fig0s5Vec := s.fig0Curr.fig0s5Vec ++ [fig0s5] } }.retriggerTimerDataLoaded
  if getBits1 d bitOffset = 0 then
    let subChId := getBits6 d (bitOffset + 2)
    match s.fig0Curr.getFig0s5OfSubChId subChId with
    | some _ => (s, offset + 2)
    | none => (store { lsFlag := 0, subChId := subChId, language := getBits8 d (bitOffset + 8) }, offset + 2)
  else
    let scId := getBits d (bitOffset + 4) 12
    match s.fig0Curr.getFig0s5OfSCId scId with
    | some _ => (s, offset + 3)
    | none => (store { lsFlag := 1, scId := scId, language := getBits8 d (bitOffset + 16) }, offset + 3)

def subprocessFig0s8 (s : FibDecoder) (d : Bits) (offset : Nat) (fh : FigHeader) : FibDecoder × Nat :=
  let width := if fh.pdFlag = 1 then 32 else 16
  let sId := getLBits d (offset * 8) width
  let bitOffset := offset * 8 + width
  let lsFlag := getBits1 d (bitOffset + 8)
  let extFlag := getBits1 d bitOffset
  let scIdS := getBits4 d (bitOffset + 4)
  let fig0s8 : Fig0s8 := { pdFlag := fh.pdFlag, sId := sId, extFlag := extFlag, scIdS := scIdS, lsFlag := lsFlag }
  let fig0s8 := if lsFlag = 0 then { fig0s8 with subChId := getBits6 d (bitOffset + 10) }
    else { fig0s8 with scId := getBits d (bitOffset + 12) 12 }
  let size := (if lsFlag = 0 then 16 else 24) + if extFlag ≠ 0 then 8 else 0
  let c := s.getConfig fh.cnFlag
  match c.getFig0s8OfSIdSCIdS sId scIdS with
  | some _ => (s, (bitOffset + size) / 8)
  | none => ((s.setConfig fh.cnFlag { c with fig0s8Vec := c.fig0s8Vec ++ [fig0s8] }).retriggerTimerDataLoaded,
      (bitOffset + size) / 8)

def readUserApp (d : Bits) (pdFlag : Nat) (acc : List UserApp × Nat) (_ : Nat) : List UserApp × Nat :=
  let (apps, bitOffset) := acc
  let dataLength := getBits5 d (bitOffset + 11)
  let xPadData := if pdFlag = 0 ∧ dataLength ≥ 2 then
      some ⟨getBits1 d (bitOffset + 16),getBits1 d (bitOffset + 17),getBits5 d (bitOffset + 19),
        getBits1 d (bitOffset + 24),getBits6 d (bitOffset + 26)⟩
    else none
  (apps ++ [⟨getBits d bitOffset 11,dataLength,xPadData⟩], bitOffset + (16 + 8 * dataLength))

/- Known entries are looked for in the current configuration, new ones are stored in
the one the header names. -/
def subprocessFig0s13 (s : FibDecoder) (d : Bits) (offset : Nat) (fh : FigHeader) : FibDecoder × Nat :=
  let width := if fh.pdFlag = 1 then 32 else 16
  let sId := getLBits d (offset * 8) width
  let bitOffset := offset * 8 + width
  let scIdS := getBits4 d bitOffset
  match s.fig0Curr.getFig0s13OfSIdSCIdS sId scIdS with
  | some known => (s, (known.sizeBits + offset * 8) / 8)
  | none =>
    let numUserApps := min (getBits4 d (bitOffset + 4)) 6
    let (apps, behind) := (List.range numUserApps).foldl (readUserApp d fh.pdFlag) ([], bitOffset + 8)
    let fig0s13 : Fig0s13 := ⟨fh.pdFlag,sId,scIdS,numUserApps,apps,behind - offset * 8⟩
    let c := s.getConfig fh.cnFlag
    ((s.setConfig fh.cnFlag { c with fig0s13Vec := c.fig0s13Vec ++ [fig0s13] }).retriggerTimerDataLoaded, behind / 8)

def subprocessFig0s14 (s : FibDecoder) (d : Bits) (offset : Nat) (fh : FigHeader) : FibDecoder × Nat :=
  let c := s.getConfig fh.cnFlag
  let subChId := getBits6 d (offset * 8)
  match c.getFig0s14OfSubChId subChId with
  | some _ => (s, offset + 1)
  | none =>
    let fig0s14 : Fig0s14 := ⟨subChId,getBits2 d (offset * 8 + 6)⟩
    ((s.setConfig fh.cnFlag { c with fig0s14Vec := c.fig0s14Vec ++ [fig0s14] }).retriggerTimerDataLoaded, offset + 1)

def processFig0s0 (s : FibDecoder) (d : Bits) : FibDecoder :=
  let changeFlags := getBits2 d 32
  let hi := getBits5 d 35
  let lo := getBits8 d 40
  let s := { s with cifCountHi := hi, cifCountLo := lo, cifCount := hi * 250 + lo }
  let s := if changeFlags = 0 ∧ s.prevChangeFlag = 3 then
      { s with fig0Curr := s.fig0Next, fig0Next := s.fig0Curr.reset }.emit .changeInConfiguration
    else s
  { s with prevChangeFlag := changeFlags }

def processFig0s7 (s : FibDecoder) (d : Bits) : FibDecoder :=
  let fh := getFigHeader d
  let c := s.getConfig fh.cnFlag
  match c.fig0s7Vec with
  | _ :: _ => s
  | [] => (s.setConfig fh.cnFlag { c with fig0s7Vec := [⟨getBits6 d 16,getBits d 22 10⟩] }).retriggerTimerDataLoaded

def processFig0s9 (s : FibDecoder) (d : Bits) : FibDecoder :=
  match s.fig0Curr.fig0s9Vec with
  | _ :: _ => s
  | [] =>
    let magnitude : Int := getBits5 d 19
    let lto := if getBits1 d 18 = 1 then magnitude * -1 else magnitude
    let fig0s9 : Fig0s9 := ⟨getBits1 d 16,lto,getBits8 d 24,getBits8 d 32,lto * 30⟩
    { s with fig0Curr := { s.fig0Curr with fig0s9Vec := [fig0s9] } }.retriggerTimerDataLoaded

def processFig0s10 (s : FibDecoder) (d : Bits) : FibDecoder :=
  let mjd := getLBits d 17 17
  let utcFlag := getBits1 d 36
  let utc := getLBits d 37 (if utcFlag = 1 then 27 else 11)
  let time := if utcFlag = 1 then
      { s.utcTimeSet with modJulianDate := mjd, hour := utc / 2 ^ 22 % 32, minute := utc / 2 ^ 16 % 64
                          second := (utc / 2 ^ 10 % 64 : Nat) }
    else { s.utcTimeSet with modJulianDate := mjd, hour := utc / 2 ^ 6 % 32, minute := utc % 64, second := -1 }
  let s := { s with modJulianDate := mjd, utcTimeSet := time }
  match s.fig0Curr.fig0s9Vec with
  | [] => s
  | fig0s9 :: _ =>
    let time := { time with ltoMinutes := fig0s9.ltoMinutes }
    { s with utcTimeSet := time }.emit (.fibTimeInfo time)

def processFig0s15 (s : FibDecoder) (_ : Bits) : FibDecoder :=
  if s.ewsAvailable then s else { s with ewsAvailable := true }.emit .ewsAvailable

def fig0s17Loop (d : Bits) (length : Nat) : Nat → FibDecoder → Nat → FibDecoder
  | 0, s, _ => s
  | fuel + 1, s, offset =>
    if offset < length * 8 then
      let sId := getBits d offset 16
      let s := match s.fig0Curr.getFig0s17OfSId sId with
        | some _ => s
        | none =>
          let fig0s17 : Fig0s17 := ⟨sId,getBits1 d (offset + 16),getBits5 d (offset + 27)⟩
          { s with fig0Curr := { s.fig0Curr with fig0s17Vec := s.fig0Curr.fig0s17Vec ++ [fig0s17] }
            }.retriggerTimerDataLoaded
      fig0s17Loop d length fuel s (offset + 32)
    else s

def processFig0s17 (s : FibDecoder) (d : Bits) : FibDecoder := fig0s17Loop d (getBits5 d 3) 32 s 16

def getCluster (table : List Cluster) (clusterId : Int) : List Cluster × Nat :=
  match (List.range 64).find? (fun i => (table.getD i {}).inUse ∧ (table.getD i {}).clusterId = clusterId) with
  | some i => (table, i)
  | none => match (List.range 64).find? (fun i => ¬ (table.getD i {}).inUse) with
    | some i => (table.set i { table.getD i {} with inUse := true, clusterId := clusterId }, i)
    | none => (table, 0)

def setCluster (s : FibDecoder) (cnFlag : Nat) (clusterId : Int) (sId asuFlags : Nat) : FibDecoder :=
  if s.fibLoadingState.rank < 4 then s
  else
    let c := s.getConfig cnFlag
    let (table, i) := getCluster c.clusterTable clusterId
    let cluster := { table.getD i {} with flags := asuFlags }
    let cluster := if sId ∈ cluster.servicesSIDs then cluster
      else { cluster with servicesSIDs := cluster.servicesSIDs ++ [sId] }
    s.setConfig cnFlag { c with clusterTable := table.set i cluster }

def fig0s18Loop (d : Bits) (fh : FigHeader) : Nat → FibDecoder → Nat → FibDecoder
  | 0, s, _ => s
  | fuel + 1, s, bitOffset =>
    if bitOffset ≤ fh.length * 8 then
      let sId := getBits d bitOffset 16
      let asuFlags := getBits d (bitOffset + 16) 16
      let nrClusters := getBits d (bitOffset + 37) 3
      let s := (List.range nrClusters).foldl (fun s i =>
        let clusterId := getBits d (bitOffset + 40 + 8 * i) 8
        if clusterId = 0 then s else setCluster s fh.cnFlag clusterId sId asuFlags) s
      fig0s18Loop d fh fuel s (bitOffset + 40 + nrClusters * 8)
    else s

def processFig0s18 (s : FibDecoder) (d : Bits) : FibDecoder := fig0s18Loop d (getFigHeader d) 32 s 16

def announce (s : FibDecoder) (signal : List Nat → Signal) (sIds : List Nat) : FibDecoder :=
  sIds.foldl (fun s sId => s.emit (signal (s.fig1.getServiceLabelOfSId sId))) s

def switchAnnouncement (s : FibDecoder) (cnFlag : Nat) (clusterId : Int) (aswFlags subChId : Nat) : FibDecoder :=
  let c := s.getConfig cnFlag
  let (table, i) := getCluster c.clusterTable clusterId
  let cluster := table.getD i {}
  if cluster.flags &&& aswFlags ≠ 0 then
    let counted := { cluster with announcing := cluster.announcing + 1 }
    let s := s.setConfig cnFlag { c with clusterTable := table.set i counted }
    if counted.announcing = 5 then announce s (.startAnnouncement · subChId) cluster.servicesSIDs else s
  else if cluster.announcing > 0 then
    let s := s.setConfig cnFlag { c with clusterTable := table.set i { cluster with announcing := 0 } }
    announce s (.stopAnnouncement · subChId) cluster.servicesSIDs
  else s.setConfig cnFlag { c with clusterTable := table }

def fig0s19Loop (d : Bits) (fh : FigHeader) : Nat → FibDecoder → Nat → FibDecoder
  | 0, s, _ => s
  | fuel + 1, s, bitOffset =>
    if bitOffset ≤ fh.length * 8 then
      if s.fibLoadingState.rank < 4 then s
      else
        let clusterId := getBits d bitOffset 8
        let aswFlags := getBits d (bitOffset + 8) 16
        let regionFlag := getBits d (bitOffset + 25) 1
        let subChId := getBits d (bitOffset + 26) 6
        let s := switchAnnouncement s fh.cnFlag clusterId aswFlags subChId
        fig0s19Loop d fh fuel s (bitOffset + if regionFlag = 1 then 40 else 32)
    else s

def processFig0s19 (s : FibDecoder) (d : Bits) : FibDecoder := fig0s19Loop d (getFigHeader d) 32 s 16

abbrev FibProc := FibDecoder → Bits → Nat → FigHeader → FibDecoder × Nat

def fig0Rounds (fn : FibProc) (d : Bits) (fh : FigHeader) : Nat → FibDecoder → Nat → FibDecoder
  | 0, s, _ => s
  | fuel + 1, s, used =>
    if used ≤ fh.length then
      let next := fn s d used fh
      if next.1.restartFibDecoding then next.1 else fig0Rounds fn d fh fuel next.1 next.2
    else s

def processFig0Loop (fn : FibProc) (s : FibDecoder) (d : Bits) : FibDecoder := fig0Rounds fn d (getFigHeader d) 32 s 2

def processFig0Extension (s : FibDecoder) (d : Bits) : Nat → FibDecoder
  | 0 => processFig0s0 s d
  | 1 => processFig0Loop subprocessFig0s1 s d
  | 2 => processFig0Loop subprocessFig0s2 s d
  | 3 => processFig0Loop subprocessFig0s3 s d
  | 5 => processFig0Loop subprocessFig0s5 s d
  | 7 => processFig0s7 s d
  | 8 => processFig0Loop subprocessFig0s8 s d
  | 9 => processFig0s9 s d
  | 10 => processFig0s10 s d
  | 13 => processFig0Loop subprocessFig0s13 s d
  | 14 => processFig0Loop subprocessFig0s14 s d
  | 15 => processFig0s15 s d
  | 17 => processFig0s17 s d
  | 18 => processFig0s18 s d
  | 19 => processFig0s19 s d
  | _ => s

def processFig0 (s : FibDecoder) (d : Bits) : FibDecoder :=
  let extension := getBits5 d 11
  let s := processFig0Extension s d extension
  if ¬ s.restartFibDecoding ∧ s.sIdForFastAudioSelection > 0 ∧ (extension = 1 ∨ extension = 2) then
    s.processFastAudioSelection
  else s

end FibDecoder
end DabStar.Fib
