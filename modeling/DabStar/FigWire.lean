import DabStar.FigFraming
import DabStar.Lib.BitFields

/-! The entries of FIG 0/1, 0/2, 0/3, 0/8, 0/13 and 0/14 as they are transmitted, field by
field, and the record that each of them stands for. -/
namespace DabStar.Fib
open List Lib.BitFields

/- A transport mode that is not supported, more than fifteen components and user data of
more than 31 bytes cannot be written down. -/

inductive ChannelForm where
  | short (tableSwitch : BitVec 1) (tableIndex : BitVec 6)
  | long (option : BitVec 3) (protectionLevel : BitVec 2) (subChannelSize : BitVec 10)
  deriving DecidableEq, Repr

structure ChannelEntry where
  subChId : BitVec 6
  startAddr : BitVec 10
  form : ChannelForm
  deriving DecidableEq, Repr

inductive TransportMode where
  | audio (ascTy subChId : BitVec 6)
  | data (dscTy subChId : BitVec 6)
  | packet (scId : BitVec 12)
  deriving DecidableEq, Repr

structure ComponentEntry where
  mode : TransportMode
  psFlag : BitVec 1
  caFlag : BitVec 1
  deriving DecidableEq, Repr

structure ServiceEntry (width : Nat) where
  sId : BitVec width
  caId : BitVec 4
  components : List ComponentEntry
  few : components.length < 16
  deriving DecidableEq, Repr

structure PacketEntry where
  scId : BitVec 12
  rfa : BitVec 3
  dgFlag : BitVec 1
  rfu : BitVec 1
  dscTy : BitVec 6
  subChId : BitVec 6
  packetAddress : BitVec 10
  caOrg : Option (BitVec 16)
  deriving DecidableEq, Repr

inductive GlobalForm where
  | short (rfa : BitVec 1) (subChId : BitVec 6)
  | long (rfa : BitVec 3) (scId : BitVec 12)
  deriving DecidableEq, Repr

structure GlobalEntry (width : Nat) where
  sId : BitVec width
  rfa : BitVec 3
  scIdS : BitVec 4
  form : GlobalForm
  extension : Option (BitVec 8)
  deriving DecidableEq, Repr

structure AppEntry where
  userAppType : BitVec 11
  data : List (BitVec 8)
  short : data.length < 32
  deriving DecidableEq, Repr

structure UserAppsEntry (width : Nat) where
  sId : BitVec width
  scIdS : BitVec 4
  apps : List AppEntry
  few : apps.length ≤ 6
  deriving DecidableEq, Repr

structure FecEntry where
  subChId : BitVec 6
  fecScheme : BitVec 2
  deriving DecidableEq, Repr

def flag (b : Bool) : List Bool := field (BitVec.ofBool b)

def ChannelEntry.bits (e : ChannelEntry) : List Bool :=
  field e.subChId ++ field e.startAddr ++ match e.form with
    | .short tableSwitch tableIndex => flag false ++ field tableSwitch ++ field tableIndex
    | .long option protectionLevel subChannelSize =>
      flag true ++ field option ++ field protectionLevel ++ field subChannelSize

def TransportMode.bits : TransportMode → List Bool
  | .audio ascTy subChId => field 0#2 ++ field ascTy ++ field subChId
  | .data dscTy subChId => field 1#2 ++ field dscTy ++ field subChId
  | .packet scId => field 3#2 ++ field scId

def ComponentEntry.bits (e : ComponentEntry) : List Bool := e.mode.bits ++ field e.psFlag ++ field e.caFlag

def ServiceEntry.bits {width : Nat} (e : ServiceEntry width) : List Bool :=
  field e.sId ++ field e.caId ++ field (BitVec.ofNat 4 e.components.length) ++ e.components.flatMap ComponentEntry.bits

def PacketEntry.bits (e : PacketEntry) : List Bool :=
  field e.scId ++ field e.rfa ++ flag e.caOrg.isSome ++ field e.dgFlag ++ field e.rfu ++ field e.dscTy ++ field e.subChId ++
    field e.packetAddress ++ e.caOrg.elim [] field

def GlobalEntry.bits {width : Nat} (e : GlobalEntry width) : List Bool :=
  field e.sId ++ flag e.extension.isSome ++ field e.rfa ++ field e.scIdS ++ (match e.form with
    | .short rfa subChId => flag false ++ field rfa ++ field subChId
    | .long rfa scId => flag true ++ field rfa ++ field scId) ++ e.extension.elim [] field

def AppEntry.bits (e : AppEntry) : List Bool := field e.userAppType ++ field (BitVec.ofNat 5 e.data.length) ++ e.data.flatMap field

def UserAppsEntry.bits {width : Nat} (e : UserAppsEntry width) : List Bool :=
  field e.sId ++ field e.scIdS ++ field (BitVec.ofNat 4 e.apps.length) ++ e.apps.flatMap AppEntry.bits

def FecEntry.bits (e : FecEntry) : List Bool := field e.subChId ++ field e.fecScheme

section Records
open FibDecoder (cProtLevelTable optionATable optionBTable)

def ChannelEntry.record (e : ChannelEntry) : Fig0s1 :=
  match e.form with
  | .short tableSwitch tableIndex =>
    let level := cProtLevelTable.getD tableIndex.toNat ⟨0,0,0⟩
    { subChId := e.subChId.toNat, startAddr := e.startAddr.toNat, shortForm := true, tableSwitch := tableSwitch.toNat
      tableIndex := tableIndex.toNat, subChannelSize := level.cuSize, protectionLevel := level.protLevel
      bitRate := level.bitRate }
  | .long option protectionLevel subChannelSize =>
    { subChId := e.subChId.toNat, startAddr := e.startAddr.toNat, option := option.toNat
      protectionLevel := protectionLevel.toNat + if option = 1#3 then 4 else 0
      subChannelSize := subChannelSize.toNat
      bitRate := if option = 0#3 then (subChannelSize.toNat / optionATable.getD protectionLevel.toNat 1 * 8 : Nat)
        else if option = 1#3 then (subChannelSize.toNat / optionBTable.getD protectionLevel.toNat 1 * 32 : Nat) else -1 }

def ComponentEntry.record (e : ComponentEntry) : Fig0s2Component :=
  match e.mode with
  | .audio ascTy subChId => ⟨0,subChId.toNat + 256 * ascTy.toNat,e.psFlag.toNat,e.caFlag.toNat⟩
  | .data dscTy subChId => ⟨1,subChId.toNat + 256 * dscTy.toNat,e.psFlag.toNat,e.caFlag.toNat⟩
  | .packet scId => ⟨3,scId.toNat,e.psFlag.toNat,e.caFlag.toNat⟩

def ServiceEntry.records {width : Nat} (pdFlag : Nat) (e : ServiceEntry width) : List Fig0s2 :=
  e.components.mapIdx fun i component => ⟨pdFlag,e.sId.toNat,e.components.length,i,component.record⟩

def PacketEntry.record (e : PacketEntry) : Fig0s3 :=
  { scId := e.scId.toNat, caOrgFlag := e.caOrg.isSome.toNat, dgFlag := e.dgFlag.toNat, dscTy := e.dscTy.toNat
    subChId := e.subChId.toNat, packetAddress := e.packetAddress.toNat, caOrg := e.caOrg.elim 65535 BitVec.toNat }

def GlobalEntry.record {width : Nat} (pdFlag : Nat) (e : GlobalEntry width) : Fig0s8 :=
  let common : Fig0s8 := { pdFlag := pdFlag, sId := e.sId.toNat, extFlag := e.extension.isSome.toNat, scIdS := e.scIdS.toNat }
  match e.form with
  | .short _ subChId => { common with lsFlag := 0, subChId := subChId.toNat }
  | .long _ scId => { common with lsFlag := 1, scId := scId.toNat }

def xPadData (pdFlag : Nat) (data : List (BitVec 8)) : Option XPadData :=
  match pdFlag, data with
  | 0, first :: second :: _ => some ⟨(first.toNat / 128 : Nat),(first.toNat / 64 % 2 : Nat),(first.toNat % 32 : Nat),
      (second.toNat / 128 : Nat),(second.toNat % 64 : Nat)⟩
  | _, _ => none

def AppEntry.record (pdFlag : Nat) (e : AppEntry) : UserApp := ⟨e.userAppType.toNat,e.data.length,xPadData pdFlag e.data⟩

def UserAppsEntry.record {width : Nat} (pdFlag : Nat) (e : UserAppsEntry width) : Fig0s13 :=
  ⟨pdFlag,e.sId.toNat,e.scIdS.toNat,e.apps.length,e.apps.map (AppEntry.record pdFlag),e.bits.length⟩

def FecEntry.record (e : FecEntry) : Fig0s14 := ⟨e.subChId.toNat,e.fecScheme.toNat⟩

end Records

section Reading
open FibDecoder
variable {d : Bits} {offset : Nat}

theorem getBitsNumber (d : Bits) (offset size : Nat) : getBits d offset size = number d offset size := by
  induction size with
  | zero => rfl
  | succ size ih => rw [getBits,number,ih]

theorem readField {w offset : Nat} {v : BitVec w} (written : Written d offset (field v)) : getBits d offset w = v.toNat := by
  rw [getBitsNumber,fieldNumber written]

theorem readPart {w offset : Nat} {v : BitVec w} (written : Written d offset (field v)) (k n : Nat) (inside : k + n ≤ w) :
    getBits d (offset + k) n = v.toNat / 2 ^ (w - (k + n)) % 2 ^ n := by rw [getBitsNumber,fieldPart written k n inside]

theorem readFlag {b : Bool} (written : Written d offset (flag b)) : getBits d offset 1 = b.toNat := by
  rw [readField written,BitVec.toNat_ofBool]

@[simp] theorem flagLength (b : Bool) : (flag b).length = 1 := fieldLength _

theorem readChannel {e : ChannelEntry} (written : Written d offset e.bits) : readFig0s1 d offset = e.record := by
  obtain ⟨subChId,startAddr,form⟩ := e
  cases form with
  | short tableSwitch tableIndex =>
    simp only [ChannelEntry.bits,writtenAppend,fieldLength,flagLength,length_append,Nat.add_assoc,Nat.reduceAdd] at written
    obtain ⟨⟨id,start⟩,⟨form,switch⟩,index⟩ := written
    have id : getBits6 d offset = _ := readField id
    have form : getBits1 d (offset + 16) = _ := readFlag form
    have switch : getBits1 d (offset + 17) = _ := readField switch
    have index : getBits6 d (offset + 18) = _ := readField index
    simp [readFig0s1,ChannelEntry.record,id,readField start,form,switch,index]
  | long option protectionLevel subChannelSize =>
    simp only [ChannelEntry.bits,writtenAppend,fieldLength,flagLength,length_append,Nat.add_assoc,Nat.reduceAdd] at written
    obtain ⟨⟨id,start⟩,⟨⟨form,option'⟩,level⟩,size⟩ := written
    have id : getBits6 d offset = _ := readField id
    have form : getBits1 d (offset + 16) = _ := readFlag form
    have option' : getBits3 d (offset + 17) = _ := readField option'
    have level : getBits2 d (offset + 20) = _ := readField level
    have optionA : option.toNat = 0 ↔ option = 0#3 := by rw [← BitVec.toNat_inj]; rfl
    have optionB : option.toNat = 1 ↔ option = 1#3 := by rw [← BitVec.toNat_inj]; rfl
    simp only [readFig0s1,ChannelEntry.record,id,readField start,form,option',level,readField size,optionA,optionB]
    by_cases first : option = 0#3
    · have other : option ≠ 1#3 := by rw [first]; decide
      simp [first]
    · by_cases second : option = 1#3
      · simp [second]
      · simp [first,second]

theorem channelBytes (e : ChannelEntry) : e.bits.length = 8 * entryBytes e.record := by
  obtain ⟨subChId,startAddr,form⟩ := e
  cases form <;> simp [ChannelEntry.bits,ChannelEntry.record,entryBytes]

theorem readPacket {e : PacketEntry} (written : Written d offset e.bits) :
    readFig0s3 d offset = { e.record with caOrg := if e.caOrg.isSome then getBits d (offset + 80) 16 else 65535 } := by
  obtain ⟨scId,rfa,dgFlag,rfu,dscTy,subChId,packetAddress,caOrg⟩ := e
  simp only [PacketEntry.bits,writtenAppend,fieldLength,flagLength,length_append,Nat.reduceAdd] at written
  obtain ⟨⟨⟨⟨⟨⟨⟨⟨id,_⟩,org⟩,dg⟩,_⟩,type⟩,channel⟩,address⟩,_⟩ := written
  have org : getBits1 d (offset + 15) = _ := readFlag org
  have dg : getBits1 d (offset + 16) = _ := readField dg
  have type : getBits6 d (offset + 18) = _ := readField type
  have channel : getBits6 d (offset + 24) = _ := readField channel
  simp only [readFig0s3,PacketEntry.record,readField id,org,dg,type,channel,readField address]
  cases caOrg <;> rfl

theorem packetBytes (e : PacketEntry) : e.bits.length = 8 * if e.caOrg.isSome then 7 else 5 := by
  obtain ⟨scId,rfa,dgFlag,rfu,dscTy,subChId,packetAddress,caOrg⟩ := e
  cases caOrg <;> simp [PacketEntry.bits]

theorem readGlobal {pdFlag offset : Nat} {e : GlobalEntry (sIdWidth pdFlag)} (written : Written d offset e.bits) :
    readFig0s8 d pdFlag offset = e.record pdFlag := by
  obtain ⟨sId,rfa,scIdS,form,extension⟩ := e
  simp only [GlobalEntry.bits,writtenAppend,fieldLength,flagLength,length_append,Nat.add_assoc,Nat.reduceAdd] at written
  obtain ⟨⟨⟨⟨⟨id,ext⟩,_⟩,service⟩,body⟩,_⟩ := written
  have id : getLBits d offset (sIdWidth pdFlag) = _ := readField id
  have ext : getBits1 d (offset + sIdWidth pdFlag) = _ := readFlag ext
  have service : getBits4 d (offset + (sIdWidth pdFlag + 4)) = _ := readField service
  cases form with
  | short rfa' subChId =>
    simp only [writtenAppend,flagLength,fieldLength,length_append,Nat.add_assoc,Nat.reduceAdd] at body
    obtain ⟨⟨form,_⟩,channel⟩ := body
    have form : getBits1 d (offset + (sIdWidth pdFlag + 8)) = _ := readFlag form
    have channel : getBits6 d (offset + (sIdWidth pdFlag + 10)) = _ := readField channel
    simp [readFig0s8,GlobalEntry.record,Nat.add_assoc,id,ext,service,form,channel]
  | long rfa' scId =>
    simp only [writtenAppend,flagLength,fieldLength,length_append,Nat.add_assoc,Nat.reduceAdd] at body
    obtain ⟨⟨form,_⟩,component⟩ := body
    have form : getBits1 d (offset + (sIdWidth pdFlag + 8)) = _ := readFlag form
    simp [readFig0s8,GlobalEntry.record,Nat.add_assoc,id,ext,service,form,readField component]

theorem globalBytes {pdFlag : Nat} (e : GlobalEntry (sIdWidth pdFlag)) : e.bits.length = 8 * fig0s8Bytes pdFlag (e.record pdFlag) := by
  have bytes := sIdWidthBytes pdFlag
  obtain ⟨sId,rfa,scIdS,form,extension⟩ := e
  cases form <;> cases extension <;> simp [GlobalEntry.bits,GlobalEntry.record,fig0s8Bytes] <;> omega

theorem readFec {e : FecEntry} (written : Written d offset e.bits) : readFig0s14 d offset = e.record := by
  simp only [FecEntry.bits,writtenAppend,fieldLength] at written
  have id : getBits6 d offset = _ := readField written.1
  have scheme : getBits2 d (offset + 6) = _ := readField written.2
  simp [readFig0s14,FecEntry.record,id,scheme]

theorem appLength (e : AppEntry) : e.bits.length = 16 + 8 * e.data.length := by
  simp only [AppEntry.bits,length_append,fieldLength,flatMapLength (fieldLength (w := 8))]

theorem readXPad (pdFlag : Nat) {data : List (BitVec 8)} (written : Written d offset (data.flatMap field)) :
    (if pdFlag = 0 ∧ data.length ≥ 2 then
      some (⟨getBits1 d offset,getBits1 d (offset + 1),getBits5 d (offset + 3),getBits1 d (offset + 8),
        getBits6 d (offset + 10)⟩ : XPadData) else none) = xPadData pdFlag data := by
  match pdFlag, data, written with
  | 0, [], _ => rfl
  | 0, [_], _ => rfl
  | 0, first :: second :: rest, written =>
    simp only [flatMap_cons,writtenAppend,fieldLength,Nat.add_assoc,Nat.reduceAdd] at written
    obtain ⟨one,two,_⟩ := written
    have ca : getBits1 d offset = _ := readPart one 0 1 (by decide)
    have org : getBits1 d (offset + 1) = _ := readPart one 1 1 (by decide)
    have type : getBits5 d (offset + 3) = _ := readPart one 3 5 (by decide)
    have dg : getBits1 d (offset + 8) = _ := readPart two 0 1 (by decide)
    have dsc : getBits6 d (offset + 10) = _ := readPart two 2 6 (by decide)
    have high : ∀ v : BitVec 8, v.toNat / 2 ^ (8 - (0 + 1)) % 2 ^ 1 = v.toNat / 128 := by
      intro v
      have small := v.isLt
      omega
    rw [high] at ca dg
    simp [xPadData,ca,org,type,dg,dsc]
  | pdFlag + 1, data, _ => rw [if_neg (by omega)]; rfl

theorem readApp {pdFlag offset : Nat} {e : AppEntry} (written : Written d offset e.bits) (apps : List UserApp) (i : Nat) :
    readUserApp d pdFlag (apps, offset) i = (apps ++ [e.record pdFlag], offset + e.bits.length) := by
  have size := appLength e
  have number : (BitVec.ofNat 5 e.data.length).toNat = e.data.length := (BitVec.toNat_ofNat _ _).trans (Nat.mod_eq_of_lt e.short)
  simp only [AppEntry.bits,writtenAppend,fieldLength,length_append,Nat.reduceAdd] at written
  obtain ⟨⟨type,length⟩,body⟩ := written
  have length : getBits5 d (offset + 11) = _ := readField length
  have xPad := readXPad pdFlag body
  simp only [Nat.add_assoc,Nat.reduceAdd] at xPad
  simp only [readUserApp,AppEntry.record,readField type,length,number,xPad,size]

theorem readApps (pdFlag : Nat) (entries : List AppEntry) (written : Written d offset (entries.flatMap AppEntry.bits))
    {rounds : List Nat} (one : rounds.length = entries.length) (apps : List UserApp) : rounds.foldl (readUserApp d pdFlag) (apps, offset) =
      (apps ++ entries.map (AppEntry.record pdFlag), offset + (entries.flatMap AppEntry.bits).length) := by
  induction entries generalizing offset rounds apps with
  | nil =>
    rw [length_eq_zero_iff.mp one]
    simp
  | cons e entries ih =>
    cases rounds with
    | nil => cases one
    | cons i rounds =>
      rw [flatMap_cons,writtenAppend] at written
      rw [foldl_cons,readApp written.1,ih written.2 (Nat.succ.inj one)]
      simp [Nat.add_assoc]

theorem readUserApps {pdFlag offset : Nat} {e : UserAppsEntry (sIdWidth pdFlag)} (written : Written d offset e.bits) :
    readFig0s13 d pdFlag offset = e.record pdFlag := by
  have number : (BitVec.ofNat 4 e.apps.length).toNat = e.apps.length :=
    (BitVec.toNat_ofNat _ _).trans (Nat.mod_eq_of_lt (Nat.lt_of_le_of_lt e.few (by decide)))
  have few : min e.apps.length 6 = e.apps.length := Nat.min_eq_left e.few
  have total : e.bits.length = sIdWidth pdFlag + 8 + (e.apps.flatMap AppEntry.bits).length := by
    simp only [UserAppsEntry.bits,length_append,fieldLength]
  simp only [UserAppsEntry.bits,writtenAppend,fieldLength,length_append,Nat.add_assoc,Nat.reduceAdd] at written
  obtain ⟨⟨⟨id,service⟩,count⟩,body⟩ := written
  have id : getLBits d offset (sIdWidth pdFlag) = _ := readField id
  have service : getBits4 d (offset + sIdWidth pdFlag) = _ := readField service
  have count : getBits4 d (offset + (sIdWidth pdFlag + 4)) = _ := readField count
  have apps := readApps pdFlag e.apps body (length_range (n := e.apps.length)) []
  simp only [readFig0s13,UserAppsEntry.record,Nat.add_assoc,id,service,count,number,few,apps,nil_append]
  rw [total]
  congr 1
  omega

theorem readComponent {e : ComponentEntry} (written : Written d offset e.bits) (before : Fig0s2Component) :
    readFig0s2Component d offset before = e.record := by
  obtain ⟨mode,psFlag,caFlag⟩ := e
  cases mode with
  | audio ascTy subChId | data dscTy subChId =>
    simp only [ComponentEntry.bits,TransportMode.bits,writtenAppend,fieldLength,length_append,Nat.reduceAdd] at written
    obtain ⟨⟨⟨⟨mode,type⟩,channel⟩,ps⟩,ca⟩ := written
    have mode : getBits2 d offset = _ := readField mode
    have type : getBits6 d (offset + 2) = _ := readField type
    have channel : getBits6 d (offset + 8) = _ := readField channel
    have ps : getBits1 d (offset + 14) = _ := readField ps
    have ca : getBits1 d (offset + 15) = _ := readField ca
    simp [readFig0s2Component,ComponentEntry.record,mode,type,channel,ps,ca]
  | packet scId =>
    simp only [ComponentEntry.bits,TransportMode.bits,writtenAppend,fieldLength,length_append,Nat.reduceAdd] at written
    obtain ⟨⟨⟨mode,component⟩,ps⟩,ca⟩ := written
    have mode : getBits2 d offset = _ := readField mode
    have ps : getBits1 d (offset + 14) = _ := readField ps
    have ca : getBits1 d (offset + 15) = _ := readField ca
    simp [readFig0s2Component,ComponentEntry.record,mode,readField component,ps,ca]

end Reading

end DabStar.Fib
