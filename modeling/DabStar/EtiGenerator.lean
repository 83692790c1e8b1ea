import DabStar.Backend
import DabStar.Crc

/-! The ETI generator (eti_handler/eti_generator.cpp) with its global arrays. A call returns
what it accessed, the protection objects it used and, unless the program ends, the next state
and the frame written. -/
namespace DabStar
open Deinterleaver SubChannel Fib List

structure EtiGenerator where
  etiFile : Bool := false
  running : Bool := false
  indexOut : Nat := 0
  amount : Nat := 0
  cifCountHi : Int := -1
  cifCountLo : Int := -1
  minor : Int := -1
  subChIdList : List Int := []
  cifIn : List Int := replicate 55296 0
  cifVector : List (List Int) := replicate 16 (replicate 55296 0)
  temp : List Int := replicate 55296 0
  fibVector : List (List Nat) := replicate 16 (replicate 96 0)
  fibValid : List Bool := replicate 16 false
  protTable : List (Option Protection) := replicate 64 none
  descrambler : List (Option (List Bool)) := replicate 64 none

namespace EtiGenerator
variable {fib : FibDecoder} {s t : EtiGenerator} {input : Nat → Int}

inductive Access where
  | fibValid (index : Nat)
  | fibVector (index : Nat)
  | cifVector (index : Nat)
  | cifIn (first count : Nat)
  | theVector (first count : Nat)
  deriving DecidableEq, Repr

def Access.Inside : Access → Prop
  | .fibValid index => index < 16
  | .fibVector index => index < 16
  | .cifVector index => index < 16
  | .cifIn first count => first + count ≤ 55296
  | .theVector first count => first + count ≤ 6144

structure Decode where
  data : FibDecoder.ChannelData
  prot : Protection
  desc : List Bool

structure Outcome (α : Type) where
  accesses : List Access
  decodes : List Decode
  result : Option α

structure FicData where
  fibBits : Nat → Bool
  ficValid : Nat → Bool

def reset (s : EtiGenerator) : EtiGenerator :=
  { s with
    protTable := replicate 64 none, descrambler := replicate 64 none, indexOut := 0, amount := 0
    cifCountHi := -1, cifCountLo := -1, minor := -1, running := false }

def startEtiGenerator (s : EtiGenerator) (opened : Bool) : EtiGenerator := { s.reset with etiFile := opened }

def stopEtiGenerator (s : EtiGenerator) : EtiGenerator := { s with etiFile := false, running := false }

def byte (n : Nat) : Nat := n % 256

def streamHeader (data : FibDecoder.ChannelData) : List Nat :=
  let scid := data.id.toNat
  let sad := data.startCu.toNat
  let tpl := if data.uepFlag then 0x10 ||| (data.protlev - 1).toNat else 0x20 ||| data.protlev.toNat
  let stl := data.bitrate.toNat * 3 / 8
  [byte ((scid <<< 2) ||| ((sad &&& 0x300) >>> 8)),sad &&& 0xff,byte ((tpl <<< 2) ||| ((stl &&& 0x300) >>> 8)),
    stl &&& 0xff]

def initEti (fib : FibDecoder) (subChIdList : List Int) (cifCountHi cifCountLo minor : Int) : Option (List Nat) :=
  let infos := subChIdList.map fib.getSubChannelInfo
  if infos.all FibDecoder.ChannelData.inUse then
    let lo := cifCountLo.toNat + minor.toNat
    let hi := if lo ≥ 250 then cifCountHi.toNat + 1 else cifCountHi.toNat
    let lo := if lo ≥ 250 then lo % 250 else lo
    let hi := if hi ≥ 20 then 20 else hi
    let sync := if lo &&& 1 ≠ 0 then [0xf8,0xc5,0x49] else [0x07,0x3a,0xb6]
    let nst := subChIdList.length
    let fl := (infos.map (fun data => data.bitrate.toNat * 3 / 4)).sum + nst + 1 + 24
    let fp := (hi * 250 + lo) % 8
    let fc := [byte lo,byte ((1 <<< 7) ||| nst),byte ((fp <<< 5) ||| (1 <<< 3) ||| ((fl &&& 0x700) >>> 8)),fl &&& 0xff]
    let crcd := fc ++ infos.flatMap streamHeader ++ [0xff,0xff]
    let hcrc := calcCrc crcd
    some ([0xff] ++ sync ++ crcd ++ [(hcrc &&& 0xff00) >>> 8,hcrc &&& 0xff])
  else none

def packByte (bits : Nat → Bool) : Nat := (range 8).foldl (fun acc k => (acc <<< 1) ||| (bits k).toNat) 0

def packBytes (bits : List Bool) : List Nat := (range (bits.length / 8)).map (fun j => packByte (fun k => bits.getD (j * 8 + k) false))

/- The output buffer is zeroed and has the size of the current bit rate, whatever the
object and the sequence were built for. -/
def processSubChannel (data : FibDecoder.ChannelData) (prot : Protection) (desc : List Bool) (input : Nat → Int) :
    Protection × List Nat :=
  let (prot, out) := prot.deconvolve (fun k => input (data.startCu.toNat * 64 + k))
  (prot, packBytes ((range (24 * data.bitrate.toNat)).map (fun j => out.getD j false ^^ desc.getD j false)))

def protectionFor (s : EtiGenerator) (data : FibDecoder.ChannelData) (subChId : Nat) :
    Option (Protection × List Bool) :=
  match s.protTable.getD subChId none with
  | some prot => some (prot, (s.descrambler.getD subChId none).getD [])
  | none => (backendDeconvolver data.uepFlag data.bitrate data.protlev).map (fun prot =>
    (prot, disperseVector (24 * data.bitrate.toNat)))

def decodeSubChannel (s : EtiGenerator) (fib : FibDecoder) (input : Nat → Int) (subChId : Int) :
    Option (EtiGenerator × Decode × List Nat) :=
  let data := fib.getSubChannelInfo subChId
  if data.inUse ∧ 0 ≤ data.bitrate then
    (protectionFor s data subChId.toNat).map (fun (prot, desc) =>
      let (used, bytes) := processSubChannel data prot desc input
      ({ s with
          protTable := s.protTable.set subChId.toNat (some used)
          descrambler := s.descrambler.set subChId.toNat (some desc) },
        ⟨data,prot,desc⟩, bytes))
  else none

def processCif (fib : FibDecoder) (input : Nat → Int) :
    List Int → EtiGenerator → Nat → Outcome (EtiGenerator × List Nat)
  | [], s, _ => ⟨[],[],some (s, [])⟩
  | subChId :: subChIds, s, offset =>
    match s.decodeSubChannel fib input subChId with
    | none => ⟨[],[],none⟩
    | some (s, decode, bytes) =>
      let rest := processCif fib input subChIds s (offset + bytes.length)
      ⟨.theVector offset bytes.length :: rest.accesses,decode :: rest.decodes,
        rest.result.map (fun (s, more) => (s, bytes ++ more))⟩

def frameBytes (header fibs data : List Nat) : List Nat :=
  let crc := calcCrc (fibs ++ data)
  let trailer := [(crc &&& 0xff00) >>> 8,crc &&& 0xff,0xff,0xff,0xff,0xff,0xff,0xff]
  header ++ fibs ++ data ++ trailer ++ replicate (6144 - (header.length + 96 + data.length + 8)) 0x55

def writeFrame (s : EtiGenerator) (fib : FibDecoder) : Outcome (EtiGenerator × Option (List Nat)) :=
  match initEti fib s.subChIdList s.cifCountHi s.cifCountLo s.minor with
  | none => ⟨[.theVector 0 (12 + 4 * s.subChIdList.length)],[],none⟩
  | some header =>
    let cif := processCif fib (fun i => s.temp.getD i 0) s.subChIdList s (header.length + 96)
    let log := [.theVector 0 header.length,.fibVector s.indexOut,.theVector header.length 96] ++ cif.accesses
    match cif.result with
    | none => ⟨log,cif.decodes,none⟩
    | some (s, data) =>
      let offset := header.length + 96 + data.length
      let frame := frameBytes header (s.fibVector.getD s.indexOut []) data
      ⟨log ++ [.theVector offset 8,.theVector (offset + 8) (6144 - (offset + 8))],cif.decodes,
        some ({ s with indexOut := (s.indexOut + 1) &&& 15, minor := s.minor + 1 },
          if s.etiFile then some frame else none)⟩

def importFibs (s : EtiGenerator) (fib : FibDecoder) (fic : FicData) : EtiGenerator :=
  { s with
    fibValid := (range 4).foldl (fun valid i => valid.set (s.indexOut + i) (fic.ficValid i)) s.fibValid
    fibVector := (range 4).foldl (fun vector i => vector.set ((s.indexOut + i) &&& 15)
      ((range 96).map (fun j => packByte (fun k => fic.fibBits (i * 768 + 8 * j + k))))) s.fibVector
    minor := 0
    cifCountHi := fib.cifCountHi
    cifCountLo := fib.cifCountLo
    subChIdList := fib.getSubChannelIdList }

def importAccesses (s : EtiGenerator) : List Access :=
  (range 4).flatMap (fun i => [.fibValid (s.indexOut + i),.fibVector ((s.indexOut + i) &&& 15)])

def storeSymbol (s : EtiGenerator) (bits : Nat → Int) (cifIndex : Nat) : EtiGenerator :=
  { s with cifIn := (range 3072).foldl (fun cifIn k => cifIn.set (cifIndex * 3072 + k) (bits k)) s.cifIn }

def interleaved (s : EtiGenerator) : EtiGenerator :=
  let moved := deinterleave 55296 (s.indexOut &&& 15) (fun i => s.cifIn.getD i 0) s.temp s.cifVector
  { s with temp := moved.1, cifVector := moved.2 }

def interleavedAccesses (s : EtiGenerator) : List Access :=
  (range 55296).flatMap (fun i =>
    [.cifVector ((s.indexOut + interleaveMap.getD (i &&& 15) 0) &&& 15),.cifVector (s.indexOut &&& 15)])

def finishCif (s : EtiGenerator) (fib : FibDecoder) : Outcome (EtiGenerator × Option (List Nat)) :=
  if s.amount < 15 then
    ⟨[],[],some ({ s with amount := s.amount + 1, indexOut := (s.indexOut + 1) &&& 15, minor := -1 }, none)⟩
  else if s.cifCountHi < 0 ∨ s.cifCountLo < 0 then ⟨[],[],some ({ s with minor := -1 }, none)⟩
  else if s.minor < 0 then ⟨[],[],some (s, none)⟩
  else s.writeFrame fib

def completeCif (s : EtiGenerator) (fib : FibDecoder) : Outcome (EtiGenerator × Option (List Nat)) :=
  let done := s.interleaved.finishCif fib
  ⟨s.interleavedAccesses ++ done.accesses,done.decodes,done.result⟩

def wake (s : EtiGenerator) (ofdmSymbIdx : Nat) : EtiGenerator :=
  if s.running = false ∧ s.etiFile ∧ ofdmSymbIdx = 1 then { s with running := true } else s

theorem wakeOthers (s : EtiGenerator) (ofdmSymbIdx : Nat) : ∃ running, s.wake ofdmSymbIdx = { s with running := running } := by
  unfold wake
  split
  · exact ⟨true,rfl⟩
  · exact ⟨s.running,rfl⟩

def takeSymbol (s : EtiGenerator) (fib : FibDecoder) (fic : FicData) (bits : Nat → Int) (ofdmSymbIdx : Nat) :
    EtiGenerator := (if ofdmSymbIdx = 4 then s.importFibs fib fic else s).storeSymbol bits ((ofdmSymbIdx - 4) % 18)

def takeAccesses (s : EtiGenerator) (ofdmSymbIdx : Nat) : List Access :=
  (if ofdmSymbIdx = 4 then s.importAccesses else []) ++ [.cifIn ((ofdmSymbIdx - 4) % 18 * 3072) 3072]

def processBlock (s : EtiGenerator) (fib : FibDecoder) (fic : FicData) (bits : Nat → Int) (ofdmSymbIdx : Nat) :
    Outcome (EtiGenerator × Option (List Nat)) :=
  let s := s.wake ofdmSymbIdx
  if s.running = false then ⟨[],[],some (s, none)⟩
  else if ofdmSymbIdx < 4 then ⟨[],[],some (s, none)⟩
  else
    let log := s.takeAccesses ofdmSymbIdx
    let s := s.takeSymbol fib fic bits ofdmSymbIdx
    if (ofdmSymbIdx - 4) % 18 = 17 then
      let cif := s.completeCif fib
      ⟨log ++ cif.accesses,cif.decodes,cif.result⟩
    else ⟨log,[],some (s, none)⟩

inductive Finished (s : EtiGenerator) (fib : FibDecoder) : Outcome (EtiGenerator × Option (List Nat)) → Prop where
  | fills (warming : s.amount < 15) : Finished s fib ⟨[],[],some ({ s with
      amount := s.amount + 1, indexOut := (s.indexOut + 1) &&& 15, minor := -1 }, none)⟩
  | uncounted (filled : 15 ≤ s.amount) (unknown : s.cifCountHi < 0 ∨ s.cifCountLo < 0) :
      Finished s fib ⟨[],[],some ({ s with minor := -1 }, none)⟩
  | idle (filled : 15 ≤ s.amount) (early : s.minor < 0) : Finished s fib ⟨[],[],some (s, none)⟩
  | writes (filled : 15 ≤ s.amount) (ready : 0 ≤ s.minor) : Finished s fib (s.writeFrame fib)

section
variable (s : EtiGenerator) (fib : FibDecoder)

theorem finishCifCases : Finished s fib (s.finishCif fib) := by
  unfold finishCif
  split
  · rename_i warming
    exact .fills warming
  · rename_i filled
    split
    · rename_i unknown
      exact .uncounted (not_lt.mp filled) unknown
    · split
      · rename_i early
        exact .idle (not_lt.mp filled) early
      · rename_i ready
        exact .writes (not_lt.mp filled) (not_lt.mp ready)

theorem completeCifResult : (s.completeCif fib).result = (s.interleaved.finishCif fib).result := by simp only [completeCif]

theorem completeCifDecodes : (s.completeCif fib).decodes = (s.interleaved.finishCif fib).decodes := by simp only [completeCif]

theorem interleavedExact : ∃ temp cifVector, s.interleaved = { s with temp := temp, cifVector := cifVector } := ⟨_,_,rfl⟩

theorem storeExact (bits : Nat → Int) (cifIndex : Nat) : ∃ cifIn, s.storeSymbol bits cifIndex = { s with cifIn := cifIn } := ⟨_,rfl⟩

end

inductive Processed (s : EtiGenerator) (fib : FibDecoder) (fic : FicData) (bits : Nat → Int) (ofdmSymbIdx : Nat) :
    Outcome (EtiGenerator × Option (List Nat)) → Prop where
  | stopped (still : s.wake ofdmSymbIdx = s) (off : s.running = false) :
      Processed s fib fic bits ofdmSymbIdx ⟨[],[],some (s, none)⟩
  | early (first : ofdmSymbIdx < 4) :
      Processed s fib fic bits ofdmSymbIdx ⟨[],[],some (s.wake ofdmSymbIdx, none)⟩
  | stores (on : s.running = true) (late : 4 ≤ ofdmSymbIdx) (inside : (ofdmSymbIdx - 4) % 18 ≠ 17) :
      Processed s fib fic bits ofdmSymbIdx
        ⟨s.takeAccesses ofdmSymbIdx,[],some (s.takeSymbol fib fic bits ofdmSymbIdx, none)⟩
  | completes (on : s.running = true) (late : 4 ≤ ofdmSymbIdx) (last : (ofdmSymbIdx - 4) % 18 = 17) :
      Processed s fib fic bits ofdmSymbIdx
        ⟨s.takeAccesses ofdmSymbIdx ++ ((s.takeSymbol fib fic bits ofdmSymbIdx).completeCif fib).accesses,
          ((s.takeSymbol fib fic bits ofdmSymbIdx).completeCif fib).decodes,
          ((s.takeSymbol fib fic bits ofdmSymbIdx).completeCif fib).result⟩

theorem wakeLate (s : EtiGenerator) {ofdmSymbIdx : Nat} (late : 4 ≤ ofdmSymbIdx) : s.wake ofdmSymbIdx = s := if_neg (by omega)

theorem wakeStopped {s : EtiGenerator} {ofdmSymbIdx : Nat} (off : (s.wake ofdmSymbIdx).running = false) : s.wake ofdmSymbIdx = s := by
  unfold wake at off ⊢
  split at off
  · cases off
  · rename_i still
    exact if_neg still

theorem processBlockCases (s : EtiGenerator) (fib : FibDecoder) (fic : FicData) (bits : Nat → Int) (ofdmSymbIdx : Nat) :
    Processed s fib fic bits ofdmSymbIdx (s.processBlock fib fic bits ofdmSymbIdx) := by
  unfold processBlock
  dsimp only
  split
  · rename_i off
    have still := wakeStopped off
    rw [still] at off ⊢
    exact .stopped still off
  · rename_i on
    split
    · rename_i first
      exact .early first
    · rename_i late
      rw [wakeLate s (not_lt.mp late)] at on ⊢
      split
      · rename_i last
        exact .completes (by simpa using on) (not_lt.mp late) last
      · rename_i inside
        exact .stores (by simpa using on) (not_lt.mp late) inside

structure Decoded (s : EtiGenerator) (fib : FibDecoder) (input : Nat → Int) (subChId : Int) (t : EtiGenerator)
    (decode : Decode) (bytes : List Nat) : Prop where
  data : decode.data = fib.getSubChannelInfo subChId
  inUse : decode.data.inUse = true
  rated : 0 ≤ decode.data.bitrate
  objects : protectionFor s decode.data subChId.toNat = some (decode.prot, decode.desc)
  state : t = { s with
    protTable := s.protTable.set subChId.toNat (some (processSubChannel decode.data decode.prot decode.desc input).1)
    descrambler := s.descrambler.set subChId.toNat (some decode.desc) }
  bytes : bytes = (processSubChannel decode.data decode.prot decode.desc input).2

theorem decodeExact {subChId : Int} {decode : Decode}
    {bytes : List Nat} (ok : s.decodeSubChannel fib input subChId = some (t, decode, bytes)) :
    Decoded s fib input subChId t decode bytes := by
  unfold decodeSubChannel at ok
  dsimp only at ok
  split at ok
  · rename_i usable
    obtain ⟨⟨prot,desc⟩,objects,last⟩ := Option.map_eq_some_iff.mp ok
    cases last
    exact ⟨rfl,usable.1,usable.2,objects,rfl,rfl⟩
  · contradiction

theorem decodeMakes {s : EtiGenerator} (input : Nat → Int) {subChId : Int} {prot : Protection}
    {desc : List Bool} (inUse : (fib.getSubChannelInfo subChId).inUse = true) (rated : 0 ≤ (fib.getSubChannelInfo subChId).bitrate)
    (objects : protectionFor s (fib.getSubChannelInfo subChId) subChId.toNat = some (prot, desc)) :
    s.decodeSubChannel fib input subChId = some ({ s with
      protTable := s.protTable.set subChId.toNat
        (some (processSubChannel (fib.getSubChannelInfo subChId) prot desc input).1)
      descrambler := s.descrambler.set subChId.toNat (some desc) }, ⟨fib.getSubChannelInfo subChId,prot,desc⟩,
      (processSubChannel (fib.getSubChannelInfo subChId) prot desc input).2) := by
  unfold decodeSubChannel
  dsimp only
  rw [if_pos ⟨inUse,rated⟩,objects]
  rfl

inductive Decodes (fib : FibDecoder) (input : Nat → Int) :
    List Int → EtiGenerator → List Decode → EtiGenerator → List Nat → Prop where
  | nil (s : EtiGenerator) : Decodes fib input [] s [] s []
  | cons {subChId : Int} {subChIds : List Int} {s next t : EtiGenerator} {decode : Decode} {decodes : List Decode}
      {bytes more : List Nat} (head : Decoded s fib input subChId next decode bytes)
      (tail : Decodes fib input subChIds next decodes t more) :
      Decodes fib input (subChId :: subChIds) s (decode :: decodes) t (bytes ++ more)

theorem processCifExact {subChIds : List Int} {s : EtiGenerator} {offset : Nat}
    {t : EtiGenerator} {data : List Nat} (ok : (processCif fib input subChIds s offset).result = some (t, data)) :
    Decodes fib input subChIds s (processCif fib input subChIds s offset).decodes t data := by
  induction subChIds generalizing s offset t data with
  | nil =>
    cases ok
    exact Decodes.nil s
  | cons subChId subChIds ih =>
    unfold processCif at ok ⊢
    cases head : s.decodeSubChannel fib input subChId with
    | none => simp [head] at ok
    | some found =>
      obtain ⟨next,decode,bytes⟩ := found
      simp only [head] at ok ⊢
      obtain ⟨⟨last,more⟩,rest,same⟩ := Option.map_eq_some_iff.mp ok
      cases same
      exact Decodes.cons (decodeExact head) (ih rest)

structure Written (s : EtiGenerator) (fib : FibDecoder) (t : EtiGenerator) (frame : Option (List Nat))
    (header : List Nat) (last : EtiGenerator) (data : List Nat) : Prop where
  built : initEti fib s.subChIdList s.cifCountHi s.cifCountLo s.minor = some header
  cif : (processCif fib (fun i => s.temp.getD i 0) s.subChIdList s (header.length + 96)).result = some (last, data)
  state : t = { last with indexOut := (last.indexOut + 1) &&& 15, minor := last.minor + 1 }
  bytes : frame = if last.etiFile then some (frameBytes header (last.fibVector.getD last.indexOut []) data) else none

theorem writeFrameExact {frame : Option (List Nat)}
    (ok : (s.writeFrame fib).result = some (t, frame)) : ∃ header last data, Written s fib t frame header last data := by
  unfold writeFrame at ok
  cases built : initEti fib s.subChIdList s.cifCountHi s.cifCountLo s.minor with
  | none => simp [built] at ok
  | some header =>
    simp only [built] at ok
    cases decoded : (processCif fib (fun i => s.temp.getD i 0) s.subChIdList s (header.length + 96)).result with
    | none => simp only [decoded,reduceCtorEq] at ok
    | some out =>
      obtain ⟨last,data⟩ := out
      simp only [decoded,Option.some.injEq,Prod.mk.injEq] at ok
      exact ⟨header,last,data,built,decoded,ok.1.symm,ok.2.symm⟩

theorem writeFrameMakes {s last : EtiGenerator} {header data : List Nat}
    (built : initEti fib s.subChIdList s.cifCountHi s.cifCountLo s.minor = some header)
    (cif : (processCif fib (fun i => s.temp.getD i 0) s.subChIdList s (header.length + 96)).result = some (last, data))
    (file : last.etiFile = true) :
    (s.writeFrame fib).result = some ({ last with indexOut := (last.indexOut + 1) &&& 15, minor := last.minor + 1 },
      some (frameBytes header (last.fibVector.getD last.indexOut []) data)) ∧
    (s.writeFrame fib).decodes = (processCif fib (fun i => s.temp.getD i 0) s.subChIdList s (header.length + 96)).decodes := by
  unfold writeFrame
  simp only [built,cif,file,if_true,and_self]

theorem decodesState {subChIds : List Int}
    {decodes : List Decode} {data : List Nat} (decoded : Decodes fib input subChIds s decodes t data) :
    ∃ protTable descrambler, t = { s with protTable := protTable, descrambler := descrambler } := by
  induction decoded with
  | nil s => exact ⟨s.protTable,s.descrambler,rfl⟩
  | cons head tail ih =>
    obtain ⟨protTable,descrambler,same⟩ := ih
    rw [head.state] at same
    exact ⟨protTable,descrambler,same⟩

theorem writeFrameState {frame : Option (List Nat)}
    (ok : (s.writeFrame fib).result = some (t, frame)) : ∃ protTable descrambler, t = { s with
      protTable := protTable, descrambler := descrambler, indexOut := (s.indexOut + 1) &&& 15, minor := s.minor + 1 } := by
  obtain ⟨header,last,data,written⟩ := writeFrameExact ok
  obtain ⟨protTable,descrambler,same⟩ := decodesState (processCifExact written.cif)
  refine ⟨protTable,descrambler,?_⟩
  rw [written.state,same]

end EtiGenerator

structure EtiSystem where
  fib : FibDecoder := {}
  eti : EtiGenerator := {}
  ended : Bool := false

namespace EtiSystem

inductive Event where
  | fib (event : FibDecoder.Event)
  | block (fic : EtiGenerator.FicData) (bits : Nat → Int) (ofdmSymbIdx : Nat)
  | startEtiGenerator (opened : Bool)
  | stopEtiGenerator
  | reset

variable (toQString : Nat → List Nat → List Nat)

def step (s : EtiSystem) : Event → EtiSystem
  | .fib event => { s with fib := FibDecoder.step toQString s.fib event }
  | .block fic bits ofdmSymbIdx =>
    if s.ended then s
    else match (s.eti.processBlock s.fib fic bits ofdmSymbIdx).result with
      | none => { s with ended := true }
      | some (eti, _) => { s with eti := eti }
  | .startEtiGenerator opened => { s with eti := s.eti.startEtiGenerator opened }
  | .stopEtiGenerator => { s with eti := s.eti.stopEtiGenerator }
  | .reset => { s with eti := s.eti.reset }

def accesses (s : EtiSystem) : Event → List EtiGenerator.Access
  | .block fic bits ofdmSymbIdx => if s.ended then [] else (s.eti.processBlock s.fib fic bits ofdmSymbIdx).accesses
  | _ => []

def decodes (s : EtiSystem) : Event → List EtiGenerator.Decode
  | .block fic bits ofdmSymbIdx => if s.ended then [] else (s.eti.processBlock s.fib fic bits ofdmSymbIdx).decodes
  | _ => []

def run (s : EtiSystem) (events : List Event) : EtiSystem := events.foldl (step toQString) s

theorem runCons (s : EtiSystem) (event : Event) (events : List Event) :
    run toQString s (event :: events) = run toQString (step toQString s event) events := rfl

theorem runAppend (s : EtiSystem) (events more : List Event) :
    run toQString s (events ++ more) = run toQString (run toQString s events) more := foldl_append

end EtiSystem
end DabStar
