import DabStar.Multiplex
import DabStar.StoreKeys

/-! The records of the packet mode components of a service (decoder/fib_decoder.cpp,
get_data_for_packet_service). The FIG 0/8 entry is the first long form one of the service, the
language is looked up by eight of twelve bits. -/
namespace DabStar.Fib.FibDecoder
open List

structure PacketData where
  sId : Nat
  scIdS : Int
  subChId : Int
  cuStartAddr : Int
  shortForm : Bool
  protLevel : Int
  cuSize : Int
  bitRate : Int
  fecScheme : Int
  dscTy : Int
  dgFlag : Int
  packetAddress : Int
  appTypeVec : List Int
  language : Option Nat
  serviceLabel : List Nat
  serviceLabelShort : List Nat
  deriving DecidableEq, Repr

def appTypes (fig0s13 : Fig0s13) : List Int :=
  let types := (fig0s13.userAppVec.take (min fig0s13.numUserApps 6)).map UserApp.userAppType
  if types.isEmpty then [-1] else types

def packetLabel (s : FibDecoder) (fig0s2 : Fig0s2) (scIdS : Int) : Option Label :=
  if fig0s2.serviceCompC.psFlag = 0 then (s.fig1.getFig1s4OfSIdSCIdS fig0s2.sId scIdS).map Fig1s4.label
  else (s.fig1.getFig1s5OfSId fig0s2.sId).map Fig1s5.label

def packetData (s : FibDecoder) (fig0s2 : Fig0s2) (compIdx : Nat) : Option PacketData :=
  if compIdx ≥ 12 then none
  else do
    let fig0s3 ← s.fig0Curr.getFig0s3OfSCId fig0s2.serviceCompC.scId
    let fig0s1 ← s.fig0Curr.getFig0s1OfSubChId fig0s3.subChId
    let fig0s8 ← s.fig0Curr.getFig0s8OfSIdWithSCId fig0s2.sId
    let fig0s13 ← s.fig0Curr.getFig0s13OfSIdSCIdS fig0s2.sId fig0s8.scIdS
    if fig0s13.numUserApps < 1 then none
    else
      let label ← s.packetLabel fig0s2 fig0s8.scIdS
      some {
        sId := fig0s2.sId, scIdS := fig0s8.scIdS, subChId := fig0s3.subChId, cuStartAddr := fig0s1.startAddr
        shortForm := fig0s1.shortForm, protLevel := fig0s1.protectionLevel, cuSize := fig0s1.subChannelSize
        bitRate := fig0s1.bitRate
        fecScheme := ((s.fig0Curr.getFig0s14OfSubChId fig0s3.subChId).map Fig0s14.fecScheme).getD 0
        dscTy := fig0s3.dscTy, dgFlag := fig0s3.dgFlag, packetAddress := fig0s3.packetAddress
        appTypeVec := appTypes fig0s13
        language := (s.fig0Curr.getFig0s5OfSCId fig0s2.serviceCompC.scId).map Fig0s5.language
        serviceLabel := label.name, serviceLabelShort := label.nameShort }

/- One pass of the component loop, with the records found so far, each next to its
component; once a component told their number, the loop ends there. -/
def packetRound (s : FibDecoder) (sId : Nat) (acc : Int × List (Fig0s2 × PacketData)) (compIdx : Nat) :
    Int × List (Fig0s2 × PacketData) :=
  let (numComp, found) := acc
  if numComp > 0 ∧ (compIdx : Int) ≥ numComp then acc
  else match s.fig0Curr.getFig0s2OfSIdScIdx sId compIdx with
    | none => acc
    | some fig0s2 =>
      if fig0s2.serviceCompC.tmId ≠ 3 then acc
      else if numComp > 0 ∧ numComp ≠ fig0s2.numServiceComp then acc
      else if fig0s2.numServiceComp ≤ 0 then (fig0s2.numServiceComp, found)
      else match s.packetData fig0s2 compIdx with
        | none => (fig0s2.numServiceComp, found)
        | some record => (fig0s2.numServiceComp, found ++ [(fig0s2, record)])

def packetRecords (s : FibDecoder) (sId : Nat) : List (Fig0s2 × PacketData) :=
  if s.fibLoadingState.rank < 4 then [] else ((range 12).foldl (s.packetRound sId) (0, [])).2

def getDataForPacketServiceOfSId (s : FibDecoder) (sId : Nat) : List PacketData := (s.packetRecords sId).map Prod.snd

structure RecordOf (s : FibDecoder) (sId : Nat) (record : Fig0s2 × PacketData) : Prop where
  stored : record.1 ∈ s.fig0Curr.fig0s2Vec
  service : record.1.sId = sId
  packetMode : record.1.serviceCompC.tmId = 3
  made : ∃ compIdx, s.packetData record.1 compIdx = some record.2

theorem roundRecords (s : FibDecoder) (sId : Nat) {acc : Int × List (Fig0s2 × PacketData)}
    (before : ∀ r ∈ acc.2, RecordOf s sId r) (compIdx : Nat) : ∀ r ∈ (s.packetRound sId acc compIdx).2, RecordOf s sId r := by
  obtain ⟨numComp,found⟩ := acc
  unfold packetRound
  dsimp only
  split
  · exact before
  · split
    · exact before
    next fig0s2 here =>
      split
      · exact before
      next mode =>
        split
        · exact before
        · split
          · exact before
          · split
            · exact before
            next record made =>
              intro r member
              rcases mem_append.mp member with old | new
              · exact before r old
              · rw [mem_singleton.mp new]
                have key := find?_some here
                simp only [decide_eq_true_eq] at key
                exact ⟨mem_of_find?_eq_some here,key.1,not_not.mp mode,compIdx,made⟩

theorem recordsMade (s : FibDecoder) (sId : Nat) : ∀ r ∈ s.packetRecords sId, RecordOf s sId r := by
  unfold packetRecords
  split
  · simp
  · have kept : ∀ (is : List Nat) (acc : Int × List (Fig0s2 × PacketData)), (∀ r ∈ acc.2, RecordOf s sId r) →
        ∀ r ∈ (is.foldl (s.packetRound sId) acc).2, RecordOf s sId r := by
      intro is
      induction is with
      | nil => exact fun acc before => before
      | cons i is ih => exact fun acc before => ih _ (roundRecords s sId before i)
    exact kept _ _ (by simp)

def languageOfSCId (s : FibDecoder) (scId : Nat) : Option Nat :=
  (s.fig0Curr.fig0s5Vec.find? (fun e => e.lsFlag = 1 ∧ e.scId = (scId : Int))).map Fig0s5.language

structure FieldsOf (s : FibDecoder) (c : Fig0s2) (fig0s8 : Fig0s8) (language : Option Nat) (record : PacketData) : Prop where
  service : record.sId = c.sId
  address : ∃ fig0s3, s.fig0Curr.getFig0s3OfSCId c.serviceCompC.scId = some fig0s3 ∧ record.subChId = fig0s3.subChId ∧
    record.dscTy = fig0s3.dscTy ∧ record.dgFlag = fig0s3.dgFlag ∧ record.packetAddress = fig0s3.packetAddress
  subChannel : ∃ fig0s1, s.fig0Curr.getFig0s1OfSubChId record.subChId = some fig0s1 ∧
    record.cuStartAddr = fig0s1.startAddr ∧ record.shortForm = fig0s1.shortForm ∧
    record.protLevel = fig0s1.protectionLevel ∧ record.cuSize = fig0s1.subChannelSize ∧ record.bitRate = fig0s1.bitRate ∧
    record.fecScheme = ((s.fig0Curr.getFig0s14OfSubChId record.subChId).map Fig0s14.fecScheme).getD 0
  scIdS : record.scIdS = fig0s8.scIdS
  appTypeVec : ∃ fig0s13, s.fig0Curr.getFig0s13OfSIdSCIdS c.sId fig0s8.scIdS = some fig0s13 ∧
    record.appTypeVec = appTypes fig0s13
  language : record.language = language
  label : ∃ label, s.packetLabel c fig0s8.scIdS = some label ∧ record.serviceLabel = label.name ∧
    record.serviceLabelShort = label.nameShort

def OwnFields (s : FibDecoder) (c : Fig0s2) (record : PacketData) : Prop :=
  ∃ fig0s8 ∈ s.fig0Curr.fig0s8Vec, fig0s8.sId = c.sId ∧ fig0s8.lsFlag = 1 ∧ fig0s8.scId = c.serviceCompC.scId ∧
    FieldsOf s c fig0s8 (s.languageOfSCId c.serviceCompC.scId) record

/- The entries the join takes are those of the component: the first long form FIG 0/8
entry of its service names it, and eight bits of its identifier find its language. -/
def JoinsOwn (s : FibDecoder) (c : Fig0s2) : Prop :=
  (∃ fig0s8, s.fig0Curr.getFig0s8OfSIdWithSCId c.sId = some fig0s8 ∧ fig0s8.scId = c.serviceCompC.scId) ∧
    (s.fig0Curr.getFig0s5OfSCId c.serviceCompC.scId).map Fig0s5.language = s.languageOfSCId c.serviceCompC.scId

theorem packetDataJoined {s : FibDecoder} {c : Fig0s2} {compIdx : Nat} {record : PacketData}
    (made : s.packetData c compIdx = some record) : ∃ fig0s8, s.fig0Curr.getFig0s8OfSIdWithSCId c.sId = some fig0s8 ∧
      FieldsOf s c fig0s8 ((s.fig0Curr.getFig0s5OfSCId c.serviceCompC.scId).map Fig0s5.language) record := by
  unfold packetData at made
  split at made
  · exact nomatch made
  · simp only [bind,Option.bind_eq_some_iff] at made
    obtain ⟨fig0s3,packet,fig0s1,channel,fig0s8,first,fig0s13,apps,rest⟩ := made
    split at rest
    · exact nomatch rest
    · obtain ⟨label,labelled,last⟩ := Option.bind_eq_some_iff.mp rest
      cases Option.some.inj last
      exact ⟨fig0s8,first,rfl,⟨fig0s3,packet,rfl,rfl,rfl,rfl⟩,⟨fig0s1,channel,rfl,rfl,rfl,rfl,rfl,rfl⟩,rfl,
        ⟨fig0s13,apps,rfl⟩,rfl,⟨label,labelled,rfl,rfl⟩⟩

theorem sameFig0s8 {c : FibConfigFig0} (unique : UniqueKeys c) {a b : Fig0s8} (first : a ∈ c.fig0s8Vec)
    (second : b ∈ c.fig0s8Vec) (service : a.sId = b.sId) (component : a.scIdS = b.scIdS) : a = b := by
  have keys : (c.fig0s8Vec.map (fun e => (e.sId, e.scIdS))).Nodup :=
    pairwise_map.mpr (unique.fig0s8.imp (fun apart same => apart (Prod.mk.inj same)))
  exact inj_on_of_nodup_map keys first second (Prod.ext service component)

theorem joinedOwn {s : FibDecoder} {c : Fig0s2} {record : PacketData} {fig0s8 : Fig0s8} (unique : UniqueKeys s.fig0Curr)
    (first : s.fig0Curr.getFig0s8OfSIdWithSCId c.sId = some fig0s8)
    (fields : FieldsOf s c fig0s8 ((s.fig0Curr.getFig0s5OfSCId c.serviceCompC.scId).map Fig0s5.language) record) :
    OwnFields s c record ↔ JoinsOwn s c := by
  have key := find?_some first
  simp only [decide_eq_true_eq] at key
  have stored := mem_of_find?_eq_some first
  constructor
  · rintro ⟨e,member,service,long,component,own⟩
    have same : e = fig0s8 := sameFig0s8 unique member stored (service.trans key.2.symm) (own.scIdS.symm.trans fields.scIdS)
    exact ⟨⟨fig0s8,first,same ▸ component⟩,fields.language.symm.trans own.language⟩
  · rintro ⟨⟨e,named,component⟩,language⟩
    obtain rfl : fig0s8 = e := Option.some.inj (first.symm.trans named)
    exact ⟨fig0s8,stored,key.2,key.1,component,{ fields with language := fields.language.trans language }⟩

theorem packetFieldsOwn (toQString : Nat → List Nat → List Nat) (events : List Event) (sId : Nat) : let s := run toQString {} events
    s.getDataForPacketServiceOfSId sId = (s.packetRecords sId).map Prod.snd ∧
    ∀ r ∈ s.packetRecords sId, r.1 ∈ s.fig0Curr.fig0s2Vec ∧ r.1.sId = sId ∧ r.1.serviceCompC.tmId = 3 ∧
      (OwnFields s r.1 r.2 ↔ JoinsOwn s r.1) := by
  intro s
  have unique : BothConfigs UniqueKeys s := startKeeps uniqueKeysKept toQString (fun _ _ _ _ => trivial)
  refine ⟨rfl,fun r member => ?_⟩
  have made := recordsMade s sId r member
  obtain ⟨compIdx,filled⟩ := made.made
  obtain ⟨fig0s8,first,fields⟩ := packetDataJoined filled
  exact ⟨made.stored,made.service,made.packetMode,joinedOwn unique.1 first fields⟩

def twoComponents : List Event :=
  [.fib (Multiplex.fibOf [0x04,0x01,0x04,0x00,0x00,
      0x0A,0x22,0xE0,0x10,0x00,0x01,0x02,0xC0,0x06,0xC0,0x08,
      0x0B,0x03,0x00,0x10,0x3C,0x04,0x01,0x00,0x20,0x3C,0x04,0x02,0xFF]),
    .fib (Multiplex.fibOf [0x0F,0x28,0xE0,0x10,0x00,0x01,0x01,0x80,0x02,0xE0,0x10,0x00,0x01,0x00,0x80,0x01,0xFF]),
    .fib (Multiplex.fibOf [0x0F,0x2D,0xE0,0x10,0x00,0x01,0x11,0x00,0x40,0xE0,0x10,0x00,0x01,0x01,0x00,0xE0,0xFF]),
    .fib (Multiplex.fibOf [0x37,0x05,0xE0,0x10,0x00,0x01,0x53,0x50,0x49,0x20,0x20,0x20,0x20,0x20,0x20,0x20,0x20,0x20,
      0x20,0x20,0x20,0x20,0xE0,0x00,0xFF]),
    .timerCheckStateAndPrintFigs]

def twoComponentsState : FibDecoder := run Multiplex.plainText {} twoComponents

theorem componentOneRecord : ∃ r ∈ twoComponentsState.packetRecords 0xE0100001,
    r.1.serviceCompC.scId = 1 ∧ r.2.scIdS = 1 ∧ r.2.appTypeVec = [2] := by decide +kernel

theorem componentOneJoined : ∃ r ∈ twoComponentsState.packetRecords 0xE0100001,
    OwnFields twoComponentsState r.1 r.2 ↔ JoinsOwn twoComponentsState r.1 := by
  obtain ⟨r,member,-⟩ := componentOneRecord
  exact ⟨r,member,((packetFieldsOwn Multiplex.plainText twoComponents 0xE0100001).2 r member).2.2.2⟩

theorem foreignIdentity : ∃ r ∈ twoComponentsState.packetRecords 0xE0100001,
    r.1.serviceCompC.scId = 1 ∧ r.2.scIdS = 1 ∧ r.2.appTypeVec = [2] ∧ ¬ OwnFields twoComponentsState r.1 r.2 := by
  have described : ∀ e ∈ twoComponentsState.fig0Curr.fig0s8Vec, e.scId = (1 : Nat) → e.scIdS ≠ 1 := by decide +kernel
  obtain ⟨r,member,scId,scIdS,types⟩ := componentOneRecord
  refine ⟨r,member,scId,scIdS,types,?_⟩
  rintro ⟨e,stored,-,-,own,fields⟩
  rw [scId] at own
  exact described e stored own (fields.scIdS.symm.trans scIdS)

end DabStar.Fib.FibDecoder
