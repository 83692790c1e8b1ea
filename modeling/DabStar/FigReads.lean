import DabStar.FigEntries
import DabStar.Lib.BitReader

/-! The handlers once more, as programs over the fields they read, in the order of the
source and with the fields whose values nothing uses. What they compute is what the
handlers of the model compute. -/
namespace DabStar.Fib.FibReads
open Lib.BitReader Lib.BitReader.Reader List

def getFigHeader : Reader FigHeader := do
  let length ← field 3 5
  let cnFlag ← field 8 1
  let oeFlag ← field 9 1
  let pdFlag ← field 10 1
  pure ⟨length,cnFlag,oeFlag,pdFlag⟩

def readFig0s1 (bitOffset subChId : Nat) : Reader Fig0s1 := do
  let startAddr ← field (bitOffset + 6) 10
  if (← field (bitOffset + 16) 1) = 0 then
    let tableSwitch ← field (bitOffset + 17) 1
    let tableIndex ← field (bitOffset + 18) 6
    let entry := FibDecoder.cProtLevelTable.getD tableIndex ⟨0,0,0⟩
    pure { subChId := subChId, startAddr := startAddr, shortForm := true, tableSwitch := tableSwitch, tableIndex := tableIndex
           subChannelSize := entry.cuSize, protectionLevel := entry.protLevel, bitRate := entry.bitRate }
  else
    let option ← field (bitOffset + 17) 3
    let level ← field (bitOffset + 20) 2
    let size ← field (bitOffset + 22) 10
    let long : Fig0s1 := { subChId := subChId, startAddr := startAddr, option := option, subChannelSize := size }
    if option = 0 then
      pure { long with protectionLevel := level, bitRate := size / FibDecoder.optionATable.getD level 1 * 8 }
    else if option = 1 then
      pure { long with protectionLevel := level + 4, bitRate := size / FibDecoder.optionBTable.getD level 1 * 32 }
    else pure { long with protectionLevel := level }

def subprocessFig0s1 (s : FibDecoder) (offset : Nat) (fh : FigHeader) : Reader (FibDecoder × Nat) := do
  let subChId ← field (offset * 8) 6
  match (s.getConfig fh.cnFlag).getFig0s1OfSubChId subChId with
  | some known => pure (s, offset + FibDecoder.entryBytes known)
  | none =>
    let cand ← readFig0s1 (offset * 8) subChId
    if cand.startAddr + cand.subChannelSize > FibDecoder.cNumCuPerCif then
      pure (s.restart, offset + FibDecoder.entryBytes cand)
    else match FibDecoder.findCollidingFig0s1 (s.getConfig fh.cnFlag).fig0s1Vec cand with
      | some _ => pure (s.restart, offset + FibDecoder.entryBytes cand)
      | none =>
        let c := s.getConfig fh.cnFlag
        pure ((s.setConfig fh.cnFlag { c with fig0s1Vec := c.fig0s1Vec ++ [cand] }).retriggerTimerDataLoaded,
          offset + FibDecoder.entryBytes cand)

def readFig0s2Component (bitOffset : Nat) (before : Fig0s2Component) : Reader Fig0s2Component := do
  let tmId ← field bitOffset 2
  let word ←
    if tmId = 0 ∨ tmId = 1 then do
      let ty ← field (bitOffset + 2) 6
      let subChId ← field (bitOffset + 8) 6
      pure (subChId + 256 * ty)
    else if tmId = 3 then field (bitOffset + 2) 12 else pure before.word
  let psFlag ← field (bitOffset + 14) 1
  let caFlag ← field (bitOffset + 15) 1
  pure ⟨tmId,word,psFlag,caFlag⟩

def fig0s2Component (cnFlag bitOffset : Nat) (acc : FibDecoder × Fig0s2) (i : Nat) : Reader (FibDecoder × Fig0s2) :=
  match (acc.1.getConfig cnFlag).getFig0s2OfSIdScIdx acc.2.sId i with
  | some _ => pure acc
  | none => do
      let component ← readFig0s2Component (bitOffset + 16 * i) acc.2.serviceCompC
      let fig0s2 := { acc.2 with serviceCompCIndex := i, serviceCompC := component }
      let c := acc.1.getConfig cnFlag
      pure ((acc.1.setConfig cnFlag { c with fig0s2Vec := c.fig0s2Vec ++ [fig0s2] }).retriggerTimerDataLoaded, fig0s2)

def subprocessFig0s2 (s : FibDecoder) (offset : Nat) (fh : FigHeader) : Reader (FibDecoder × Nat) := do
  let width := FibDecoder.sIdWidth fh.pdFlag
  let sId ← field (8 * offset) width
  let numServiceComp ← field (8 * offset + width + 4) 4
  let bitOffset := 8 * offset + width + 8
  let fig0s2 : Fig0s2 := { pdFlag := fh.pdFlag, sId := sId, numServiceComp := numServiceComp }
  let last ← fold (fig0s2Component fh.cnFlag bitOffset) (range numServiceComp) (s, fig0s2)
  pure (last.1, (bitOffset + 16 * numServiceComp) / 8)

def subprocessFig0s3 (s : FibDecoder) (offset : Nat) (fh : FigHeader) : Reader (FibDecoder × Nat) := do
  let bitOffset := offset * 8
  let c := s.getConfig fh.cnFlag
  let scId ← field bitOffset 12
  match c.getFig0s3OfSCId scId with
  | some known => pure (s, (bitOffset + 40 + if known.caOrgFlag ≠ 0 then 16 else 0) / 8)
  | none =>
    let caOrgFlag ← field (bitOffset + 15) 1
    let dgFlag ← field (bitOffset + 16) 1
    let dscTy ← field (bitOffset + 18) 6
    let subChId ← field (bitOffset + 24) 6
    let packetAddress ← field (bitOffset + 30) 10
    let fig0s3 : Fig0s3 := { scId := scId, caOrgFlag := caOrgFlag, dgFlag := dgFlag, dscTy := dscTy, subChId := subChId
                             packetAddress := packetAddress }
    let fig0s3 ← if caOrgFlag = 1 then do
        let caOrg ← field (bitOffset + 80) 16
        pure { fig0s3 with caOrg := caOrg }
      else pure fig0s3
    pure ((s.setConfig fh.cnFlag { c with fig0s3Vec := c.fig0s3Vec ++ [fig0s3] }).retriggerTimerDataLoaded,
      (bitOffset + 40 + if caOrgFlag = 1 then 16 else 0) / 8)

def storeFig0s5 (s : FibDecoder) (fig0s5 : Fig0s5) : FibDecoder :=
  { s with fig0Curr := { s.fig0Curr with fig0s5Vec := s.fig0Curr.fig0s5Vec ++ [fig0s5] } }.retriggerTimerDataLoaded

def subprocessFig0s5 (s : FibDecoder) (offset : Nat) (_ : FigHeader) : Reader (FibDecoder × Nat) := do
  let bitOffset := offset * 8
  if (← field bitOffset 1) = 0 then
    let subChId ← field (bitOffset + 2) 6
    let language ← field (bitOffset + 8) 8
    match s.fig0Curr.getFig0s5OfSubChId subChId with
    | some _ => pure (s, offset + 2)
    | none => pure (storeFig0s5 s { lsFlag := 0, subChId := subChId, language := language }, offset + 2)
  else
    let scId ← field (bitOffset + 4) 12
    let language ← field (bitOffset + 16) 8
    match s.fig0Curr.getFig0s5OfSCId scId with
    | some _ => pure (s, offset + 3)
    | none => pure (storeFig0s5 s { lsFlag := 1, scId := scId, language := language }, offset + 3)

def subprocessFig0s8 (s : FibDecoder) (offset : Nat) (fh : FigHeader) : Reader (FibDecoder × Nat) := do
  let width := FibDecoder.sIdWidth fh.pdFlag
  let sId ← field (offset * 8) width
  let bitOffset := offset * 8 + width
  let lsFlag ← field (bitOffset + 8) 1
  let extFlag ← field bitOffset 1
  let scIdS ← field (bitOffset + 4) 4
  let fig0s8 : Fig0s8 := { pdFlag := fh.pdFlag, sId := sId, extFlag := extFlag, scIdS := scIdS, lsFlag := lsFlag }
  let fig0s8 ← if lsFlag = 0 then do
      let subChId ← field (bitOffset + 10) 6
      pure { fig0s8 with subChId := subChId }
    else do
      let scId ← field (bitOffset + 12) 12
      pure { fig0s8 with scId := scId }
  let size := (if lsFlag = 0 then 16 else 24) + if extFlag ≠ 0 then 8 else 0
  let c := s.getConfig fh.cnFlag
  match c.getFig0s8OfSIdSCIdS sId scIdS with
  | some _ => pure (s, (bitOffset + size) / 8)
  | none => pure ((s.setConfig fh.cnFlag { c with fig0s8Vec := c.fig0s8Vec ++ [fig0s8] }).retriggerTimerDataLoaded,
      (bitOffset + size) / 8)

def readUserApp (pdFlag : Nat) (acc : List UserApp × Nat) (_ : Nat) : Reader (List UserApp × Nat) := do
  let (apps, bitOffset) := acc
  let userAppType ← field bitOffset 11
  let dataLength ← field (bitOffset + 11) 5
  let xPadData ← if pdFlag = 0 ∧ dataLength ≥ 2 then do
      let caFlag ← field (bitOffset + 16) 1
      let caOrgFlag ← field (bitOffset + 17) 1
      let xPadAppTy ← field (bitOffset + 19) 5
      let dgFlag ← field (bitOffset + 24) 1
      let dscTy ← field (bitOffset + 26) 6
      pure (some ⟨caFlag,caOrgFlag,xPadAppTy,dgFlag,dscTy⟩)
    else pure none
  pure (apps ++ [⟨userAppType,dataLength,xPadData⟩], bitOffset + (16 + 8 * dataLength))

def subprocessFig0s13 (s : FibDecoder) (offset : Nat) (fh : FigHeader) : Reader (FibDecoder × Nat) := do
  let width := FibDecoder.sIdWidth fh.pdFlag
  let sId ← field (offset * 8) width
  let bitOffset := offset * 8 + width
  let scIdS ← field bitOffset 4
  match s.fig0Curr.getFig0s13OfSIdSCIdS sId scIdS with
  | some known => pure (s, (known.sizeBits + offset * 8) / 8)
  | none =>
    let announced ← field (bitOffset + 4) 4
    let numUserApps := min announced 6
    let (apps, behind) ← fold (readUserApp fh.pdFlag) (range numUserApps) ([], bitOffset + 8)
    let fig0s13 : Fig0s13 := ⟨fh.pdFlag,sId,scIdS,numUserApps,apps,behind - offset * 8⟩
    let c := s.getConfig fh.cnFlag
    pure ((s.setConfig fh.cnFlag { c with fig0s13Vec := c.fig0s13Vec ++ [fig0s13] }).retriggerTimerDataLoaded, behind / 8)

def subprocessFig0s14 (s : FibDecoder) (offset : Nat) (fh : FigHeader) : Reader (FibDecoder × Nat) := do
  let c := s.getConfig fh.cnFlag
  let subChId ← field (offset * 8) 6
  match c.getFig0s14OfSubChId subChId with
  | some _ => pure (s, offset + 1)
  | none =>
    let fecScheme ← field (offset * 8 + 6) 2
    let fig0s14 : Fig0s14 := ⟨subChId,fecScheme⟩
    pure ((s.setConfig fh.cnFlag { c with fig0s14Vec := c.fig0s14Vec ++ [fig0s14] }).retriggerTimerDataLoaded, offset + 1)

def processFig0s0 (s : FibDecoder) : Reader FibDecoder := do
  let _eId ← field 16 16
  let changeFlags ← field 32 2
  let _alarmFlag ← field 34 1
  let hi ← field 35 5
  let lo ← field 40 8
  let _occurrenceChange ← field 48 8
  let s := { s with cifCountHi := hi, cifCountLo := lo, cifCount := hi * 250 + lo }
  let s := if changeFlags = 0 ∧ s.prevChangeFlag = 3 then
      { s with fig0Curr := s.fig0Next, fig0Next := s.fig0Curr.reset }.emit .changeInConfiguration
    else s
  pure { s with prevChangeFlag := changeFlags }

def processFig0s7 (s : FibDecoder) : Reader FibDecoder := do
  let fh ← getFigHeader
  let c := s.getConfig fh.cnFlag
  match c.fig0s7Vec with
  | _ :: _ => pure s
  | [] =>
    let numServices ← field 16 6
    let count ← field 22 10
    pure (s.setConfig fh.cnFlag { c with fig0s7Vec := [⟨numServices,count⟩] }).retriggerTimerDataLoaded

def processFig0s9 (s : FibDecoder) : Reader FibDecoder :=
  match s.fig0Curr.fig0s9Vec with
  | _ :: _ => pure s
  | [] => do
      let extFlag ← field 16 1
      let magnitude ← field 19 5
      let signBit ← field 18 1
      let lto : Int := if signBit = 1 then (magnitude : Int) * -1 else magnitude
      let ensembleEcc ← field 24 8
      let interTableId ← field 32 8
      let fig0s9 : Fig0s9 := ⟨extFlag,lto,ensembleEcc,interTableId,lto * 30⟩
      pure { s with fig0Curr := { s.fig0Curr with fig0s9Vec := [fig0s9] } }.retriggerTimerDataLoaded

def processFig0s10 (s : FibDecoder) : Reader FibDecoder := do
  let mjd ← field 17 17
  let _lsi ← field 34 1
  let utcFlag ← field 36 1
  let utc ← field 37 (if utcFlag = 1 then 27 else 11)
  let time := if utcFlag = 1 then
      { s.utcTimeSet with modJulianDate := mjd, hour := utc / 2 ^ 22 % 32, minute := utc / 2 ^ 16 % 64
                          second := (utc / 2 ^ 10 % 64 : Nat) }
    else { s.utcTimeSet with modJulianDate := mjd, hour := utc / 2 ^ 6 % 32, minute := utc % 64, second := -1 }
  let s := { s with modJulianDate := mjd, utcTimeSet := time }
  match s.fig0Curr.fig0s9Vec with
  | [] => pure s
  | fig0s9 :: _ =>
    let time := { time with ltoMinutes := fig0s9.ltoMinutes }
    pure ({ s with utcTimeSet := time }.emit (.fibTimeInfo time))

def getEwsLocationCode (bitOffset endOffset : Nat) : Reader (Option Nat) := do
  if bitOffset + 16 > endOffset then pure none
  else
    let _nff ← field bitOffset 2
    let _zone ← field (bitOffset + 2) 6
    let scf ← field (bitOffset + 8) 1
    let numDigits ← field (bitOffset + 9) 3
    let _digit ← field (bitOffset + 12) 4
    let padding := if numDigits % 2 = 1 then 4 else 0
    let subCodes := if scf = 1 then 16 else 0
    if numDigits > (if scf = 1 then 4 else 5) then pure none
    else if bitOffset + 16 + 4 * numDigits + padding + subCodes > endOffset then pure none
    else
      let _digits ← fields 4 ((range numDigits).map fun i => bitOffset + 16 + 4 * i)
      let behind := bitOffset + 16 + 4 * numDigits + padding
      if scf = 1 then
        let _subCodes ← field behind 16
        pure (some (behind + 16))
      else pure (some behind)

def ewsLocationStep (endOffset bitOffset : Nat) : Reader (Nat ⊕ Unit) :=
  if bitOffset < endOffset then do
    match ← getEwsLocationCode bitOffset endOffset with
    | some behind => pure (.inl behind)
    | none => pure (.inr ())
  else pure (.inr ())

def ewsStart (oeFlag : Nat) : Reader (Bool × Nat) := do
  if oeFlag = 0 then
    let phase ← field 16 2
    let _subChId ← field 18 6
    if phase = 0 then
      let _triggerSec ← field 26 6
      pure (true, 32)
    else pure (phase ≤ 1, 24)
  else
    let _eId ← field 16 16
    pure (true, 32)

def processFig0s15 (fuel : Nat) (s : FibDecoder) : Reader FibDecoder := do
  let fh ← getFigHeader
  let s := if s.ewsAvailable then s else { s with ewsAvailable := true }.emit .ewsAvailable
  if fh.length = 1 then pure s
  else
    let endOffset := (fh.length + 1) * 8
    let (hasStatus, bitOffset) ← ewsStart fh.oeFlag
    if hasStatus = true ∧ bitOffset + 8 ≤ endOffset then
      let _last ← field bitOffset 1
      let _stage ← field (bitOffset + 1) 3
      let _iId ← field (bitOffset + 4) 4
      loop (ewsLocationStep endOffset) fuel (bitOffset + 8)
      pure s
    else pure s

def fig0s17Step (length : Nat) : FibDecoder × Nat → Reader ((FibDecoder × Nat) ⊕ FibDecoder)
  | (s, offset) =>
    if offset < length * 8 then do
      let sId ← field offset 16
      match s.fig0Curr.getFig0s17OfSId sId with
      | some _ => pure (.inl (s, offset + 32))
      | none =>
        let sdFlag ← field (offset + 16) 1
        let intCode ← field (offset + 27) 5
        let fig0s17 : Fig0s17 := ⟨sId,sdFlag,intCode⟩
        pure (.inl ({ s with fig0Curr := { s.fig0Curr with fig0s17Vec := s.fig0Curr.fig0s17Vec ++ [fig0s17] }
          }.retriggerTimerDataLoaded, offset + 32))
    else pure (.inr s)

def processFig0s17 (fuel : Nat) (s : FibDecoder) : Reader FibDecoder := do
  let length ← field 3 5
  loop (fig0s17Step length) fuel (s, 16)

def fig0s18Cluster (cnFlag bitOffset sId asuFlags : Nat) (s : FibDecoder) (i : Nat) : Reader FibDecoder := do
  if (← field (bitOffset + 8 * i) 8) = 0 then pure s
  else
    let clusterId ← field (bitOffset + 8 * i) 8
    pure (s.setCluster cnFlag clusterId sId asuFlags)

def fig0s18Step (fh : FigHeader) : FibDecoder × Nat → Reader ((FibDecoder × Nat) ⊕ FibDecoder)
  | (s, bitOffset) =>
    if bitOffset ≤ fh.length * 8 then do
      let sId ← field bitOffset 16
      let asuFlags ← field (bitOffset + 16) 16
      let nrClusters ← field (bitOffset + 37) 3
      let s ← fold (fig0s18Cluster fh.cnFlag (bitOffset + 40) sId asuFlags) (range nrClusters) s
      pure (.inl (s, bitOffset + 40 + nrClusters * 8))
    else pure (.inr s)

def processFig0s18 (fuel : Nat) (s : FibDecoder) : Reader FibDecoder := do
  let fh ← getFigHeader
  loop (fig0s18Step fh) fuel (s, 16)

def fig0s19Step (fh : FigHeader) : FibDecoder × Nat → Reader ((FibDecoder × Nat) ⊕ FibDecoder)
  | (s, bitOffset) =>
    if bitOffset ≤ fh.length * 8 then do
      let clusterId ← field bitOffset 8
      let aswFlags ← field (bitOffset + 8) 16
      let _newFlag ← field (bitOffset + 24) 1
      let regionFlag ← field (bitOffset + 25) 1
      let subChId ← field (bitOffset + 26) 6
      let _regionId ← if regionFlag = 1 then field (bitOffset + 34) 6 else pure 0
      if s.fibLoadingState.rank < 4 then pure (.inr s)
      else pure (.inl (s.switchAnnouncement fh.cnFlag clusterId aswFlags subChId,
        bitOffset + if regionFlag = 1 then 40 else 32))
    else pure (.inr s)

def processFig0s19 (fuel : Nat) (s : FibDecoder) : Reader FibDecoder := do
  let fh ← getFigHeader
  loop (fig0s19Step fh) fuel (s, 16)

abbrev FibProc := FibDecoder → Nat → FigHeader → Reader (FibDecoder × Nat)

def entryStep (fn : FibProc) (fh : FigHeader) : FibDecoder × Nat → Reader ((FibDecoder × Nat) ⊕ FibDecoder)
  | (s, used) =>
    if used ≤ fh.length then do
      let next ← fn s used fh
      pure (if next.1.restartFibDecoding then .inr next.1 else .inl next)
    else pure (.inr s)

def processFig0Loop (fuel : Nat) (fn : FibProc) (s : FibDecoder) : Reader FibDecoder := do
  let fh ← getFigHeader
  loop (entryStep fn fh) fuel (s, 2)

def processFig0Extension (fuel : Nat) (s : FibDecoder) : Nat → Reader FibDecoder
  | 0 => processFig0s0 s
  | 1 => processFig0Loop fuel subprocessFig0s1 s
  | 2 => processFig0Loop fuel subprocessFig0s2 s
  | 3 => processFig0Loop fuel subprocessFig0s3 s
  | 5 => processFig0Loop fuel subprocessFig0s5 s
  | 7 => processFig0s7 s
  | 8 => processFig0Loop fuel subprocessFig0s8 s
  | 9 => processFig0s9 s
  | 10 => processFig0s10 s
  | 13 => processFig0Loop fuel subprocessFig0s13 s
  | 14 => processFig0Loop fuel subprocessFig0s14 s
  | 15 => processFig0s15 fuel s
  | 17 => processFig0s17 fuel s
  | 18 => processFig0s18 fuel s
  | 19 => processFig0s19 fuel s
  | _ => pure s

def processFig0 (fuel : Nat) (s : FibDecoder) : Reader FibDecoder := do
  let extension ← field 11 5
  let s ← processFig0Extension fuel s extension
  if ¬ s.restartFibDecoding ∧ s.sIdForFastAudioSelection > 0 ∧ (extension = 1 ∨ extension = 2) then
    pure s.processFastAudioSelection
  else pure s

section Fig1

variable (toQString : Nat → List Nat → List Nat)

def extractCharacterSetLabel (labelOffs : Nat) : Reader (Option Label) := do
  let charset ← field 8 4
  if FibDecoder.isCharsetValid charset then
    let label ← fields 8 ((range 16).map fun i => labelOffs + 8 * i)
    let charFlagField ← field (labelOffs + 128) 16
    let name := FibDecoder.resizeText 16 (toQString charset label)
    let short := ((range 16).filter (fun i => charFlagField.testBit (15 - i))).map (fun i => name.getD i 32)
    pure (some ⟨charset,name,FibDecoder.resizeText 8 short,charFlagField⟩)
  else pure none

def processFig1s0 (s : FibDecoder) : Reader FibDecoder := do
  let eId ← field 16 16
  match ← extractCharacterSetLabel toQString 32 with
  | none => pure s
  | some label => match s.fig1.fig1s0Vec with
    | _ :: _ => pure s
    | [] => pure ({ s with fig1 := { s.fig1 with fig1s0Vec := [⟨label,eId⟩] } }.emit
        (.nameOfEnsemble eId label.name label.nameShort))

def processFig1s1 (s : FibDecoder) : Reader FibDecoder := do
  let sId ← field 16 16
  match ← extractCharacterSetLabel toQString 32 with
  | none => pure s
  | some label => match s.fig1.getFig1s1OfSId sId with
    | some _ => pure s
    | none =>
      let c : FibConfigFig1 := { s.fig1 with fig1s1Vec := s.fig1.fig1s1Vec ++ [⟨label,sId⟩] }
      pure { s with fig1 := c.tryEmplace label.name sId (-1) }.retriggerTimerDataLoaded

def processFig1s4 (s : FibDecoder) : Reader FibDecoder := do
  let pdFlag ← field 16 1
  let scIdS ← field 20 4
  let sId ← field 24 (if pdFlag ≠ 0 then 32 else 16)
  match s.fig1.getFig1s4OfSIdSCIdS sId scIdS with
  | some _ => pure s
  | none => match ← extractCharacterSetLabel toQString (if pdFlag ≠ 0 then 56 else 40) with
    | none => pure s
    | some label =>
      let c : FibConfigFig1 := { s.fig1 with fig1s4Vec := s.fig1.fig1s4Vec ++ [⟨label,pdFlag,scIdS,sId⟩] }
      pure { s with fig1 := c.tryEmplace label.name sId scIdS }.retriggerTimerDataLoaded

def processFig1s5 (s : FibDecoder) : Reader FibDecoder := do
  let sId ← field 16 32
  match s.fig1.getFig1s5OfSId sId with
  | some _ => pure s
  | none => match ← extractCharacterSetLabel toQString 48 with
    | none => pure s
    | some label =>
      let c : FibConfigFig1 := { s.fig1 with fig1s5Vec := s.fig1.fig1s5Vec ++ [⟨label,sId⟩] }
      pure { s with fig1 := c.tryEmplace label.name sId (-5) }.retriggerTimerDataLoaded

def processFig1 (s : FibDecoder) : Reader FibDecoder := do
  match ← field 13 3 with
  | 0 => processFig1s0 toQString s
  | 1 => processFig1s1 toQString s
  | 4 => processFig1s4 toQString s
  | 5 => processFig1s5 toQString s
  | _ => pure s

def processFig (fuel : Nat) (s : FibDecoder) : Nat → Reader FibDecoder
  | 0 => processFig0 fuel s
  | 1 => processFig1 toQString s
  | _ => pure s

def fibStep (fuel : Nat) : FibDecoder × Nat → Reader ((FibDecoder × Nat) ⊕ FibDecoder)
  | (s, processedBytes) =>
    if processedBytes < 30 then do
      let figType ← field (8 * processedBytes) 3
      let figLength ← field (8 * processedBytes + 3) 5
      if figType = 7 ∧ figLength = 31 then pure (.inr s)
      else
        let next ← (processFig toQString fuel s figType).shift (8 * processedBytes)
        pure (if next.restartFibDecoding then .inr next else .inl (next, processedBytes + figLength + 1))
    else pure (.inr s)

def processFib (fuel : Nat) (s : FibDecoder) : Reader FibDecoder :=
  loop (fibStep toQString fuel) fuel ({ s with restartFibDecoding := false }, 0)

end Fig1

section Values
variable (d : Bits)

theorem headerValue : getFigHeader.run (getBits d) = some (Fib.getFigHeader d) := rfl

theorem fig0s1FieldsValue (bitOffset : Nat) :
    (readFig0s1 bitOffset (getBits6 d bitOffset)).run (getBits d) = some (FibDecoder.readFig0s1 d bitOffset) := by
  unfold FibDecoder.readFig0s1
  delta getBits1 getBits2 getBits3 getBits6
  simp only [readFig0s1,runFieldBind,runIf,runPure]
  split_ifs <;> rfl

variable (s : FibDecoder)

section
variable (used : Nat) (fh : FigHeader)

theorem fig0s1Value : (subprocessFig0s1 s used fh).run (getBits d) = some (s.subprocessFig0s1 d used fh) := by
  have fields : (readFig0s1 (used * 8) (getBits d (used * 8) 6)).run (getBits d) = _ := fig0s1FieldsValue d (used * 8)
  unfold subprocessFig0s1 FibDecoder.subprocessFig0s1
  delta getBits6
  rw [runFieldBind]
  cases (s.getConfig fh.cnFlag).getFig0s1OfSubChId (getBits d (used * 8) 6) with
  | some known => rfl
  | none =>
    simp only [runBindOf fields,runIf]
    split_ifs
    · rfl
    · cases FibDecoder.findCollidingFig0s1 (s.getConfig fh.cnFlag).fig0s1Vec (FibDecoder.readFig0s1 d (used * 8)) <;> rfl

theorem fig0s2FieldsValue (bitOffset : Nat) (before : Fig0s2Component) :
    (readFig0s2Component bitOffset before).run (getBits d) = some (FibDecoder.readFig0s2Component d bitOffset before) := by
  unfold FibDecoder.readFig0s2Component
  delta getBits1 getBits2 getBits6
  simp only [readFig0s2Component,runFieldBind,pure_bind,runIf,runPure]
  split_ifs <;> rfl

theorem fig0s2ComponentValue (cnFlag bitOffset : Nat) (acc : FibDecoder × Fig0s2) (i : Nat) :
    (fig0s2Component cnFlag bitOffset acc i).run (getBits d) = some (FibDecoder.fig0s2Component d cnFlag bitOffset acc i) := by
  unfold fig0s2Component FibDecoder.fig0s2Component
  dsimp only
  cases (acc.1.getConfig cnFlag).getFig0s2OfSIdScIdx acc.2.sId i with
  | some known => rfl
  | none => exact runBindOf (fig0s2FieldsValue d (bitOffset + 16 * i) acc.2.serviceCompC)

theorem fig0s2Value : (subprocessFig0s2 s used fh).run (getBits d) = some (s.subprocessFig0s2 d used fh) := by
  simp only [subprocessFig0s2,runFieldBind]
  rw [runBindOf (runFold (fig0s2ComponentValue d fh.cnFlag _) _ _)]
  rfl

theorem fig0s3Value : (subprocessFig0s3 s used fh).run (getBits d) = some (s.subprocessFig0s3 d used fh) := by
  unfold FibDecoder.subprocessFig0s3
  delta getBits1 getBits6
  simp only [subprocessFig0s3,runFieldBind]
  cases (s.getConfig fh.cnFlag).getFig0s3OfSCId (getBits d (used * 8) 12) with
  | some known => rfl
  | none =>
    simp only [runFieldBind,pure_bind,runIf,runPure]
    split_ifs <;> rfl

theorem fig0s5Value : (subprocessFig0s5 s used fh).run (getBits d) = some (s.subprocessFig0s5 d used fh) := by
  unfold FibDecoder.subprocessFig0s5
  delta getBits1 getBits6 getBits8
  simp only [subprocessFig0s5,runFieldBind,runIf]
  split_ifs
  · cases s.fig0Curr.getFig0s5OfSubChId (getBits d (used * 8 + 2) 6) <;> rfl
  · cases s.fig0Curr.getFig0s5OfSCId (getBits d (used * 8 + 4) 12) <;> rfl

theorem fig0s8Value : (subprocessFig0s8 s used fh).run (getBits d) = some (s.subprocessFig0s8 d used fh) := by
  unfold FibDecoder.subprocessFig0s8
  delta getBits1 getBits4 getBits6 getLBits
  simp only [subprocessFig0s8,FibDecoder.sIdWidth,runFieldBind,pure_bind,runIf]
  generalize (if fh.pdFlag = 1 then 32 else 16) = width
  cases (s.getConfig fh.cnFlag).getFig0s8OfSIdSCIdS (getBits d (used * 8) width) (getBits d (used * 8 + width + 4) 4) <;>
    split_ifs <;> rfl

theorem userAppValue (pdFlag : Nat) (acc : List UserApp × Nat) (i : Nat) :
    (readUserApp pdFlag acc i).run (getBits d) = some (FibDecoder.readUserApp d pdFlag acc i) := by
  unfold FibDecoder.readUserApp
  delta getBits1 getBits5 getBits6
  simp only [readUserApp,runFieldBind,pure_bind,runIf,runPure]
  split_ifs <;> rfl

theorem fig0s13Value : (subprocessFig0s13 s used fh).run (getBits d) = some (s.subprocessFig0s13 d used fh) := by
  unfold FibDecoder.subprocessFig0s13
  delta getBits4 getLBits
  simp only [subprocessFig0s13,FibDecoder.sIdWidth,runFieldBind]
  generalize (if fh.pdFlag = 1 then 32 else 16) = width
  cases s.fig0Curr.getFig0s13OfSIdSCIdS (getBits d (used * 8) width) (getBits d (used * 8 + width) 4) with
  | some known => rfl
  | none =>
    simp only [runFieldBind]
    rw [runBindOf (runFold (userAppValue d fh.pdFlag) _ _)]
    rfl

theorem fig0s14Value : (subprocessFig0s14 s used fh).run (getBits d) = some (s.subprocessFig0s14 d used fh) := by
  unfold FibDecoder.subprocessFig0s14
  delta getBits2 getBits6
  simp only [subprocessFig0s14,runFieldBind]
  cases (s.getConfig fh.cnFlag).getFig0s14OfSubChId (getBits d (used * 8) 6) <;> rfl

end

theorem fig0s0Value : (processFig0s0 s).run (getBits d) = some (s.processFig0s0 d) := rfl

theorem fig0s7Value : (processFig0s7 s).run (getBits d) = some (s.processFig0s7 d) := by
  simp only [processFig0s7,FibDecoder.processFig0s7,runBindOf (headerValue d)]
  cases (s.getConfig (Fib.getFigHeader d).cnFlag).fig0s7Vec <;> rfl

theorem fig0s9Value : (processFig0s9 s).run (getBits d) = some (s.processFig0s9 d) := by
  simp only [processFig0s9,FibDecoder.processFig0s9]
  cases s.fig0Curr.fig0s9Vec <;> rfl

theorem fig0s10Value : (processFig0s10 s).run (getBits d) = some (s.processFig0s10 d) := by
  unfold FibDecoder.processFig0s10
  delta getBits1 getLBits
  simp only [processFig0s10,runFieldBind]
  cases s.fig0Curr.fig0s9Vec <;> rfl

theorem flagTestBit (offset : Nat) {size i : Nat} (inside : i < size) :
    (getBits d offset size).testBit (size - 1 - i) = d (offset + i) := by
  induction size with
  | zero => omega
  | succ size ih =>
    simp only [getBits]
    by_cases last : i = size
    · subst last
      cases d (offset + i) <;> simp
    · have before : size + 1 - 1 - i = (size - 1 - i) + 1 := by omega
      rw [before,← ih (by omega),Nat.testBit_succ]
      congr 1
      cases d (offset + size) with
      | false => simp
      | true =>
        simp
        omega

variable (toQString : Nat → List Nat → List Nat)

theorem labelValue (labelOffs : Nat) : (extractCharacterSetLabel toQString labelOffs).run (getBits d) =
      some (FibDecoder.extractCharacterSetLabel toQString d labelOffs) := by
  have flags : (range 16).filter (fun i => (getBits d (labelOffs + 128) 16).testBit (15 - i)) =
      (range 16).filter (fun i => d (labelOffs + 128 + i)) := by
    apply filter_congr
    intro i inside
    exact flagTestBit d (labelOffs + 128) (mem_range.mp inside)
  unfold FibDecoder.extractCharacterSetLabel
  delta getBits4 getBits8
  simp only [extractCharacterSetLabel,runFieldBind,runIf,runBindOf (runFields 8 _),flags,map_map]
  split_ifs <;> rfl

theorem fig1s4Value (s : FibDecoder) : (processFig1s4 toQString s).run (getBits d) = some (s.processFig1s4 toQString d) := by
  have sId : (if getBits d 16 1 ≠ 0 then getBits d 24 32 else getBits d 24 16) =
      getBits d 24 (if getBits d 16 1 ≠ 0 then 32 else 16) := (apply_ite (getBits d 24) _ _ _).symm
  unfold FibDecoder.processFig1s4
  delta getBits1 getBits4 getLBits
  simp only [processFig1s4,runFieldBind,sId]
  cases s.fig1.getFig1s4OfSIdSCIdS (getBits d 24 (if getBits d 16 1 ≠ 0 then 32 else 16)) (getBits d 20 4) with
  | some known => rfl
  | none =>
    simp only [runBindOf (labelValue d toQString _)]
    cases FibDecoder.extractCharacterSetLabel toQString d (if getBits d 16 1 ≠ 0 then 56 else 40) <;> rfl

theorem fig1Value (s : FibDecoder) : (processFig1 toQString s).run (getBits d) = some (s.processFig1 toQString d) := by
  unfold FibDecoder.processFig1
  delta getBits3
  rw [processFig1,runFieldBind]
  match getBits d 13 3 with
  | 0 =>
    simp only [processFig1s0,FibDecoder.processFig1s0,runFieldBind,runBindOf (labelValue d toQString 32)]
    cases FibDecoder.extractCharacterSetLabel toQString d 32 with
    | none => rfl
    | some label => cases s.fig1.fig1s0Vec <;> rfl
  | 1 =>
    simp only [processFig1s1,FibDecoder.processFig1s1,runFieldBind,runBindOf (labelValue d toQString 32)]
    cases FibDecoder.extractCharacterSetLabel toQString d 32 with
    | none => rfl
    | some label => cases s.fig1.getFig1s1OfSId (getBits d 16 16) <;> rfl
  | 4 => exact fig1s4Value d toQString s
  | 5 =>
    simp only [processFig1s5,FibDecoder.processFig1s5,runFieldBind,getLBits]
    cases s.fig1.getFig1s5OfSId (getBits d 16 32) with
    | some known => rfl
    | none =>
      simp only [runBindOf (labelValue d toQString 48)]
      cases FibDecoder.extractCharacterSetLabel toQString d 48 <;> rfl
  | 2 | 3 | _ + 6 => rfl

end Values

end DabStar.Fib.FibReads
