import DabStar.Galois
import Mathlib.Logic.Relation

/-! The EPG decoder (backend/data/epg_2/epg_decoder.cpp). Every element has its own switch over
the tags it knows: the switches are the table `child`, the handlers one walk over it. Behind
its end the buffer reads as zero; texts are UTF-8 bytes. -/
namespace DabStar.EpgDecoder

abbrev Text := List U8

inductive Element where
  | epg | tokenTable | programGroups | programGroup | schedule | program | scope | serviceScope | mediaDescription | ensemble | service
  | location | bearer | geoLocation | programmeEvent | onDemand | genre | keyWords | link | shortName | mediumName | longName
  | shortDescription | longDescription | multiMedia | radiodns | time | relativeTime | memberOf | presentationTime | acquisitionTime
  | country | point | polygon
  deriving DecidableEq, Repr

inductive TimePoint where
  | startTime
  | stopTime
  | expiryTime
  deriving DecidableEq, Repr

inductive Attribute where
  | p440 | p46 | p471 | p472 | p473 | p474 (t : Option TimePoint) | p475 | p476 | p481 | p482 | p483 | p485 | p4171
  | token | defaultLanguage | obsolete
  deriving DecidableEq, Repr

inductive Child where
  | element (e : Element)
  | attr (a : Attribute)
  | cdata
  | last
  deriving DecidableEq, Repr

open Element Attribute Child in
def child : Element → Nat → Option Child
  | epg, tag => match tag with
    | 0x04 => some (element tokenTable)
    | 0x20 => some (element programGroups)
    | 0x21 => some (element schedule)
    | 0x05 => some (attr obsolete)
    | 0x06 => some (attr defaultLanguage)
    | _ => none
  | tokenTable, _ => some (attr token)
  | programGroups, tag => match tag with
    | 0x23 => some (element programGroup)
    | 0x80 => some (attr p483)
    | 0x81 => some (attr (p474 none))
    | 0x82 => some (attr p440)
    | _ => none
  | programGroup, tag => match tag with
    | 0x10 => some (element shortName)
    | 0x11 => some (element mediumName)
    | 0x12 => some (element longName)
    | 0x13 => some (element mediaDescription)
    | 0x14 => some (element genre)
    | 0x16 => some (element keyWords)
    | 0x17 => some (element memberOf)
    | 0x18 => some (element link)
    | 0x20 => some (element programGroups)
    | 0x80 => some (attr p471)
    | 0x81 => some (attr p472)
    | 0x82 => some (attr p483)
    | _ => none
  | schedule, tag => match tag with
    | 0x1C => some (element program)
    | 0x24 => some (element scope)
    | 0x80 => some (attr p483)
    | 0x81 => some (attr (p474 none))
    | 0x82 => some (attr p440)
    | _ => none
  | program, tag => match tag with
    | 0x10 => some (element shortName)
    | 0x11 => some (element mediumName)
    | 0x12 => some (element longName)
    | 0x13 => some (element mediaDescription)
    | 0x14 => some (element genre)
    | 0x16 => some (element keyWords)
    | 0x17 => some (element memberOf)
    | 0x18 => some (element link)
    | 0x19 => some (element location)
    | 0x2E => some (element programmeEvent)
    | 0x36 => some (element onDemand)
    | 0x80 => some (attr p471)
    | 0x81 => some (attr p472)
    | 0x82 => some (attr p483)
    | 0x83 => some (attr p46)
    | 0x84 => some (attr p46)
    | 0x86 => some (attr p481)
    | _ => none
  | scope, tag => match tag with
    | 0x25 => some (element serviceScope)
    | 0x80 => some (attr (p474 (some .startTime)))
    | 0x81 => some (attr (p474 (some .stopTime)))
    | _ => none
  | serviceScope, tag => match tag with
    | 0x80 => some (attr p476)
    | _ => none
  | mediaDescription, tag => match tag with
    | 0x1A => some (element shortDescription)
    | 0x1B => some (element longDescription)
    | 0x2B => some (element multiMedia)
    | _ => none
  | ensemble, tag => match tag with
    | 0x10 => some (element shortName)
    | 0x11 => some (element mediumName)
    | 0x12 => some (element longName)
    | 0x13 => some (element mediaDescription)
    | 0x16 => some (element keyWords)
    | 0x18 => some (element link)
    | 0x28 => some (element service)
    | 0x80 => some (attr p4171)
    | _ => none
  | service, tag => match tag with
    | 0x10 => some (element shortName)
    | 0x11 => some (element mediumName)
    | 0x12 => some (element longName)
    | 0x13 => some (element mediaDescription)
    | 0x14 => some (element genre)
    | 0x16 => some (element keyWords)
    | 0x29 => some (element bearer)
    | 0x31 => some (element radiodns)
    | 0x32 => some (element geoLocation)
    | 0x80 => some (attr p483)
    | _ => none
  | location, tag => match tag with
    | 0x2C => some (element time)
    | 0x29 => some (element bearer)
    | 0x2F => some (element relativeTime)
    | _ => none
  | bearer, tag => match tag with
    | 0x32 => some (element geoLocation)
    | 0x80 => some (attr p476)
    | 0x82 => some (attr p440)
    | _ => none
  | geoLocation, tag => match tag with
    | 0x33 => some (element country)
    | 0x34 => some (element point)
    | 0x35 => some (element polygon)
    | 0x80 => some (attr p440)
    | 0x81 => some (attr p440)
    | _ => none
  | programmeEvent, tag => match tag with
    | 0x10 => some (element shortName)
    | 0x11 => some (element mediumName)
    | 0x12 => some (element longName)
    | 0x13 => some (element mediaDescription)
    | 0x14 => some (element genre)
    | 0x16 => some (element keyWords)
    | 0x17 => some (element memberOf)
    | 0x18 => some (element link)
    | 0x19 => some (element location)
    | 0x36 => some (element onDemand)
    | 0x80 => some (attr p471)
    | 0x81 => some (attr p472)
    | 0x82 => some (attr p483)
    | 0x83 => some (attr p46)
    | 0x84 => some (attr p46)
    | 0x86 => some (attr p481)
    | _ => none
  | onDemand, tag => match tag with
    | 0x29 => some (element bearer)
    | 0x37 => some (element presentationTime)
    | 0x38 => some (element acquisitionTime)
    | _ => none
  | genre, tag => match tag with
    | 0x80 => some last
    | 0x81 => some last
    | _ => none
  | keyWords, tag => match tag with
    | 0x80 => some (attr p481)
    | _ => none
  | link, tag => match tag with
    | 0x80 => some (attr p440)
    | 0x81 => some (attr p473)
    | 0x82 => some (attr p481)
    | 0x83 => some (attr p440)
    | 0x84 => some (attr (p474 (some .expiryTime)))
    | _ => none
  | shortName, tag | mediumName, tag | longName, tag | shortDescription, tag | longDescription, tag => match tag with
    | 0x80 => some (attr p481)
    | 0x01 => some cdata
    | _ => none
  | multiMedia, tag => match tag with
    | 0x80 => some (attr p473)
    | 0x81 => some (attr p481)
    | 0x82 => some (attr p440)
    | 0x83 => some (attr p46)
    | 0x84 => some (attr p485)
    | 0x85 => some (attr p485)
    | _ => none
  | radiodns, tag => match tag with
    | 0x80 => some (attr p440)
    | 0x81 => some (attr p440)
    | _ => none
  | time, tag => match tag with
    | 0x80 => some (attr (p474 (some .startTime)))
    | 0x81 => some (attr p475)
    | 0x82 => some (attr (p474 none))
    | 0x83 => some (attr p475)
    | _ => none
  | relativeTime, tag => match tag with
    | 0x80 => some (attr (p474 none))
    | 0x81 => some (attr p475)
    | 0x82 => some (attr (p474 none))
    | 0x83 => some (attr p475)
    | _ => none
  | memberOf, tag => match tag with
    | 0x80 => some (attr p471)
    | 0x81 => some (attr p472)
    | 0x82 => some (attr p482)
    | _ => none
  | presentationTime, tag | acquisitionTime, tag => match tag with
    | 0x80 => some (attr (p474 none))
    | 0x81 => some (attr (p474 none))
    | 0x82 => some (attr p475)
    | _ => none
  | country, _ | point, _ | polygon, _ => none

open Element Attribute Child in
def serviceChild : Nat → Option Child
  | 0x06 => some (attr defaultLanguage)
  | 0x26 => some (element ensemble)
  | 0x28 => some (element service)
  | 0x80 => some (attr p483)
  | 0x81 => some (attr (p474 none))
  | 0x82 => some (attr p440)
  | 0x83 => some (attr p440)
  | _ => none

namespace Element

def enters (e : Element) (given : Bool) : Bool :=
  match e with
  | geoLocation | keyWords | country | point | polygon => false
  | genre | location | shortName | mediumName | longName | shortDescription | longDescription => given
  | _ => true

def shares : Element → Bool
  | scope | mediaDescription | location | genre | shortName | mediumName | longName | shortDescription | longDescription | time => true
  | _ => false

def owns : Element → Bool
  | schedule | program | programGroup => true
  | _ => false

def given (e : Element) (outer : Bool) : Bool := if e.shares then outer else e.owns

end Element

section Bytes
variable (v : List U8)

def byte (i : Nat) : Nat := (v.getD i 0#8).toNat

def startOf (index : Nat) : Nat :=
  if byte v (index + 1) = 0xFE then index + 4 else if byte v (index + 1) = 0xFF then index + 5 else index + 2

def lengthOf (index : Nat) : Nat :=
  if byte v (index + 1) = 0xFE then (byte v (index + 2) <<< 8) ||| byte v (index + 3)
  else if byte v (index + 1) = 0xFF then (byte v (index + 2) <<< 16) ||| (byte v (index + 3) <<< 8) ||| byte v (index + 4)
  else byte v (index + 1)

def endPoint (index : Nat) : Nat := startOf v index + lengthOf v index

/- The index that comes from process_relativeTime is not used. -/
def nextIndex (e inner : Element) (index : Nat) : Nat := if e = .location ∧ inner = .relativeTime then index else endPoint v index

def getBit (bitnr : Nat) : Nat := if byte v (bitnr / 8) &&& (0x80 >>> (bitnr % 8)) ≠ 0 then 1 else 0

def getBits (bitnr length : Nat) : Nat := (List.range length).foldl (fun res i => ((res <<< 1) ||| getBit v (bitnr + i)) % 65536) 0

end Bytes

structure ProgDesc where
  shortName : Text
  mediumName : Text
  longName : Text
  shortDescription : Text
  longDescription : Text
  startTime : Int
  stopTime : Int
  deriving DecidableEq, Repr

def newProgDesc : ProgDesc := ⟨[],[],[],[],[],-1,-1⟩

def ProgDesc.setText (d : ProgDesc) (e : Element) (text : Text) : ProgDesc :=
  match e with
  | .shortName => { d with shortName := text }
  | .mediumName => { d with mediumName := text }
  | .longName => { d with longName := text }
  | .shortDescription => { d with shortDescription := text }
  | .longDescription => { d with longDescription := text }
  | _ => d

def ProgDesc.setTime (d : ProgDesc) (t : TimePoint) (minutes : Int) : ProgDesc :=
  match t with
  | .startTime => { d with startTime := minutes }
  | .stopTime => { d with stopTime := minutes }
  | .expiryTime => d

structure EpgData where
  sId : Nat
  startTime : Int
  title : Text
  description : Text
  deriving DecidableEq, Repr

structure EpgState where
  sId : Nat
  subType : Int
  julianDate : Nat
  stringTable : List Text
  p : Option ProgDesc
  epgData : List EpgData
  deriving DecidableEq, Repr

def fromUtf8 (bytes : List U8) : Text := bytes.takeWhile (· ≠ 0#8)

def bytesFrom (v : List U8) (index length : Nat) : List U8 := (List.range length).map (fun i => v.getD (index + i) 0#8)

def getCData (v : List U8) (stringTable : List Text) (index : Nat) : Text :=
  if byte v index ≠ 0x1 then []
  else if byte v (index + 1) = 1 then
    if byte v (index + 2) < 16 then stringTable.getD (byte v (index + 2)) [] else []
  else
    fromUtf8 ((bytesFrom v (startOf v index) (lengthOf v index)).flatMap
      (fun c => if c.toNat < 16 then stringTable.getD c.toNat [] else [c]))

def process474 (v : List U8) (julianDate index : Nat) : Int :=
  if julianDate ≠ getBits v (8 * index + 1) 17 then -1
  else
    let ltoFlag := getBit v (8 * index + 19)
    let ltoBase := if getBit v (8 * index + 20) = 1 then 48 else 32
    let hours := getBits v (8 * index + 21) 5
    let minutes := getBits v (8 * index + 26) 6
    let halfHours := getBits v (8 * index + ltoBase) 8
    let shift := if ltoFlag = 0 then 0 else if halfHours &&& 0x20 ≠ 0 then (65536 - halfHours) % 65536 &&& 0x1F else halfHours &&& 0x1F
    hours * 60 + (minutes + shift * 30)

namespace EpgState
variable (s : EpgState)

def processAttribute (v : List U8) (a : Attribute) (index : Nat) : EpgState :=
  match a with
  | .p474 (some t) => { s with p := s.p.map (·.setTime t (process474 v s.julianDate (startOf v index))) }
  | .token =>
    if byte v index ≤ 16 then
      { s with stringTable := s.stringTable.set (byte v index) (fromUtf8 (bytesFrom v (startOf v index) (lengthOf v index))) }
    else s
  | _ => s

def setText (e : Element) (text : Text) : EpgState := { s with p := s.p.map (·.setText e text) }

def record : EpgState :=
  match s.p with
  | none => s
  | some d =>
    if d.startTime = -1 then s
    else if d.mediumName = [] ∧ d.shortName = [] ∧ d.longName = [] then s
    else
      let title := if d.longName ≠ [] then d.longName else if d.mediumName ≠ [] then d.mediumName else d.shortName
      { s with epgData := s.epgData ++ [⟨s.sId,d.startTime,title,d.shortDescription⟩] }

def finish (e : Element) : EpgState :=
  match e with
  | .programGroup | .program => s.record
  | _ => s.setText e [0x65#8,0x72#8,0x72#8,0x6F#8,0x72#8]

def enter (e : Element) : EpgState := if e.shares then s else { s with p := if e.owns then some newProgDesc else none }

def leave (e : Element) (after : EpgState) : EpgState := if e.shares then after else { after with p := s.p }

end EpgState

def run (v : List U8) : Nat → Element → Nat → Nat → EpgState → Option EpgState
  | 0, _, _, _, _ => none
  | fuel + 1, e, last, index, s =>
    if index < last then
      match child e (byte v index) with
      | none => some (s.setText e [])
      | some (.attr a) => run v fuel e last (endPoint v index) (s.processAttribute v a index)
      | some .last => some s
      | some .cdata => some (s.setText e (getCData v s.stringTable index))
      | some (.element inner) =>
        let returned :=
          if inner.enters s.p.isSome then (run v fuel inner (endPoint v index) (startOf v index) (s.enter inner)).map (s.leave inner)
          else some s
        returned.bind (run v fuel e last (nextIndex v e inner index))
    else some (s.finish e)

def newState (sId : Nat) (subType : Int) (theDay : Nat) : EpgState := ⟨sId,subType,theDay,List.replicate 20 [0x20#8],none,[]⟩

def processEpg (fuel : Nat) (v : List U8) (eLength : Int) (sId : Nat) (subType : Int) (theDay : Nat) : Option (Int × EpgState) :=
  let s := newState sId subType theDay
  if byte v 0 = 0x02 then (run v fuel .epg (endPoint v 0) (startOf v 0) s).map (((endPoint v 0 : Nat) : Int), ·)
  else if byte v 0 = 0x03 then
    match serviceChild (byte v (startOf v 0)) with
    | some (.element inner) =>
      (run v fuel inner (endPoint v (startOf v 0)) (startOf v (startOf v 0)) (s.enter inner)).map
        fun after => (((endPoint v 0 : Nat) : Int), s.leave inner after)
    | some (.attr a) => some (((endPoint v 0 : Nat) : Int), s.processAttribute v a (startOf v 0))
    | _ => some (((endPoint v 0 : Nat) : Int), s)
  else some (eLength, s)

end DabStar.EpgDecoder
