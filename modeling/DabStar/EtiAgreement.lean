import DabStar.EtiCache
import DabStar.ChannelDecoding

/-! The ETI generator beside the backend of each sub-channel, over runs of complete frames.
From CIF 32 on its store holds the sixteen CIFs before the current one; before that CIF 15 is
missing. -/
namespace DabStar.EtiAgreement
open List Fib Fib.FibDecoder Fib.Multiplex SubChannel Protection Deinterleaver EtiGenerator EtiSafety EtiRun EtiCache
variable {s : EtiGenerator}

structure Sized (s : EtiGenerator) : Prop where
  cifIn : s.cifIn.length = 55296
  shape : Shape 55296 s.temp s.cifVector
  fibVector : s.fibVector.length = 16
  fibs : ∀ slot < 16, (s.fibVector.getD slot []).length = 96

theorem storeSymbolCells (sized : Sized s) (bits : Nat → Int) {cifIndex : Nat} (small : cifIndex < 18) :
    (s.storeSymbol bits cifIndex).cifIn.length = 55296 ∧ ∀ i, (s.storeSymbol bits cifIndex).cifIn.getD i 0 =
      if cifIndex * 3072 ≤ i ∧ i < cifIndex * 3072 + 3072 then bits (i - cifIndex * 3072) else s.cifIn.getD i 0 := by
  have room : cifIndex * 3072 + 3072 ≤ s.cifIn.length := by
    rw [sized.cifIn]
    omega
  have length := Lib.DelayLine.setLength (range 3072) (cifIndex * 3072 + ·) bits s.cifIn
  have cells := fun i => Lib.DelayLine.storeCells bits (cifIndex * 3072) room i 0
  unfold storeSymbol
  generalize (range 3072).foldl _ s.cifIn = out at length cells ⊢
  exact ⟨length.trans sized.cifIn,cells⟩

theorem importFibVector {fibVector : List (List Nat)} (index : Nat → Nat) (row : Nat → List Nat)
    (bytes : ∀ i, (row i).length = 96) (slots : fibVector.length = 16)
    (rows : ∀ slot < 16, (fibVector.getD slot []).length = 96) (count : Nat) :
    let out := (range count).foldl (fun l i => l.set (index i) (row i)) fibVector
    out.length = 16 ∧ ∀ slot < 16, (out.getD slot []).length = 96 := by
  induction count with
  | zero => exact ⟨slots,rows⟩
  | succ count ih =>
    obtain ⟨length,each⟩ := ih
    rw [range_succ,foldl_append,foldl_cons,foldl_nil]
    refine ⟨by rw [length_set,length],fun slot small => ?_⟩
    by_cases here : index count = slot
    · rw [here,getD_eq_getElem?_getD,List.getElem?_set_self (by omega)]
      exact bytes count
    · rw [getD_eq_getElem?_getD,List.getElem?_set_ne here,← getD_eq_getElem?_getD]
      exact each slot small

theorem importSized (sized : Sized s) (fib : FibDecoder) (fic : FicData) : Sized (s.importFibs fib fic) := by
  obtain ⟨slots,rows⟩ := importFibVector (fun i => (s.indexOut + i) &&& 15)
    (fun i => (range 96).map (fun j => packByte (fun k => fic.fibBits (i * 768 + 8 * j + k))))
    (fun i => by rw [length_map,length_range]) sized.fibVector sized.fibs 4
  exact ⟨sized.cifIn,sized.shape,slots,rows⟩

theorem takeSized (sized : Sized s) (fib : FibDecoder) (fic : FicData) (bits : Nat → Int)
    (ofdmSymbIdx : Nat) : Sized (s.takeSymbol fib fic bits ofdmSymbIdx) := by
  have imported : Sized (if ofdmSymbIdx = 4 then s.importFibs fib fic else s) := by
    split
    · exact importSized sized fib fic
    · exact sized
  have stored := storeSymbolCells imported bits (show (ofdmSymbIdx - 4) % 18 < 18 from Nat.mod_lt _ (by decide))
  unfold takeSymbol
  generalize (if ofdmSymbIdx = 4 then s.importFibs fib fic else s) = u at imported stored ⊢
  obtain ⟨cifIn,same⟩ := storeExact u bits ((ofdmSymbIdx - 4) % 18)
  rw [same] at stored ⊢
  exact ⟨stored.1,imported.shape,imported.fibVector,imported.fibs⟩

theorem interleavedSpec (sized : Sized s) : Sized s.interleaved ∧ Through (s.indexOut % 16) (fun i => s.cifIn.getD i 0) s.cifVector 55296
      s.interleaved.temp s.interleaved.cifVector := by
  obtain ⟨shape,through⟩ := deinterleaveSpec sized.shape (s.indexOut &&& 15) (fun i => s.cifIn.getD i 0)
  rw [maskSixteen] at shape through
  unfold interleaved
  rw [maskSixteen]
  generalize deinterleave 55296 (s.indexOut % 16) (fun i => s.cifIn.getD i 0) s.temp s.cifVector = moved at shape through ⊢
  exact ⟨⟨sized.cifIn,shape,sized.fibVector,sized.fibs⟩,through⟩

theorem finishSized {s t : EtiGenerator} {fib : FibDecoder} {frame : Option (List Nat)} (sized : Sized s)
    (ok : (s.finishCif fib).result = some (t, frame)) : Sized t := by
  have finished := finishCifCases s fib
  generalize s.finishCif fib = outcome at finished ok
  cases finished with
  | fills | uncounted =>
    cases ok
    exact ⟨sized.cifIn,sized.shape,sized.fibVector,sized.fibs⟩
  | idle =>
    cases ok
    exact sized
  | writes =>
    obtain ⟨protTable,descrambler,rfl⟩ := writeFrameState ok
    exact ⟨sized.cifIn,sized.shape,sized.fibVector,sized.fibs⟩

theorem blockSized {s t : EtiGenerator} {fib : FibDecoder} {fic : FicData} {bits : Nat → Int} {ofdmSymbIdx : Nat}
    {frame : Option (List Nat)} (sized : Sized s) (ok : (s.processBlock fib fic bits ofdmSymbIdx).result = some (t, frame)) : Sized t := by
  have processed := processBlockCases s fib fic bits ofdmSymbIdx
  have taken := takeSized sized fib fic bits ofdmSymbIdx
  generalize s.processBlock fib fic bits ofdmSymbIdx = outcome at processed ok
  cases processed with
  | stopped =>
    cases ok
    exact sized
  | early =>
    cases ok
    unfold wake
    split
    · exact ⟨sized.cifIn,sized.shape,sized.fibVector,sized.fibs⟩
    · exact sized
  | stores =>
    cases ok
    exact taken
  | completes =>
    simp only [completeCifResult] at ok
    exact finishSized (interleavedSpec taken).1 ok

section Ring
variable {store next : List (List Int)} {temp : List Int} {data : Nat → Int}

variable (call : Nat → Call)

def cifBits (c i : Nat) : Int := (call (75 * (c / 4) + 3 + 18 * (c % 4) + i / 3072)).bits (i % 3072)

def slotOf (c : Nat) : Nat := if c ≤ 15 then c else (c - 1) % 16

structure Ring (c : Nat) (store : List (List Int)) : Prop where
  first : c ≤ 16 → ∀ d < c, ∀ i < 55296, cell store d i = cifBits call d i
  later : ∀ d, 16 ≤ d → d < c → c ≤ d + 16 → ∀ i < 55296, cell store ((d - 1) % 16) i = cifBits call d i

variable {call}

theorem ringWrite {c : Nat} (ring : Ring call c store)
    (through : Through (slotOf c) data store 55296 temp next) (written : ∀ i < 55296, data i = cifBits call c i) :
    Ring call (c + 1) next := by
  unfold slotOf at through
  constructor
  · intro early d before i small
    rw [if_pos (by omega)] at through
    rw [through.replaced d (by omega) i]
    split
    · rename_i here
      rw [written i small,here.1]
    · exact ring.first (by omega) d (by omega) i small
  · intro d late before near i small
    rw [if_neg (by omega)] at through
    rw [through.replaced ((d - 1) % 16) (Nat.mod_lt _ (by decide)) i]
    split
    · rename_i here
      have same : d = c := by omega
      rw [written i small,same]
    · rename_i other
      have older : d < c := by
        by_contra latest
        have same : d = c := by omega
        exact other ⟨by rw [same],small⟩
      exact ring.later d late older (by omega) i small

theorem ringRead {c : Nat} (ring : Ring call c store)
    (through : Through (slotOf c) data store 55296 temp next) (late : 32 ≤ c) {i : Nat} (small : i < 55296) :
    temp.getD i 0 = cifBits call (c - 16 + depth i) i := by
  have deep := depthLt i
  have slot : (slotOf c + depth i) % 16 = (c - 16 + depth i - 1) % 16 := by
    unfold slotOf
    rw [if_neg (by omega)]
    omega
  rw [through.read i small,slot]
  exact ring.later (c - 16 + depth i) (by omega) (by omega) (by omega) i small

theorem ringReadFirst (ring : Ring call 16 store) (through : Through (slotOf 16) data store 55296 temp next) {i : Nat} (small : i < 55296) :
    temp.getD i 0 = cifBits call ((15 + depth i) % 16) i := by
  rw [through.read i small]
  exact ring.first (le_refl 16) ((15 + depth i) % 16) (Nat.mod_lt _ (by decide)) i small

end Ring

section Runs
variable {p : Nat} {s t : EtiGenerator} {frame : Option (List Nat)}

variable {call : Nat → Call} {vec : List Fig0s1}

structure Runs (call : Nat → Call) (vec : List Fig0s1) (p : Nat) (s : EtiGenerator) : Prop where
  paced : Paced p s
  sized : Sized s
  indexed : Indexed s
  list : 3 < p → s.subChIdList = vec.map Fig0s1.subChId
  cache : ∀ fib : FibDecoder, fib.fig0Curr.fig0s1Vec = vec → CacheFits fib s
  stored : ∀ i < 3072 * fill p, s.cifIn.getD i 0 = cifBits call (cif p) i
  ring : Ring call (cif p) s.cifVector

theorem infoFixed {fib other : FibDecoder} (same : fib.fig0Curr.fig0s1Vec = other.fig0Curr.fig0s1Vec) (subChId : Int) :
    fib.getSubChannelInfo subChId = other.getSubChannelInfo subChId := by
  unfold getSubChannelInfo FibConfigFig0.getFig0s1OfSubChId
  rw [same]

theorem cacheFixed {fib other : FibDecoder} {s : EtiGenerator} (same : fib.fig0Curr.fig0s1Vec = other.fig0Curr.fig0s1Vec)
    (fits : CacheFits fib s) : CacheFits other s :=
  ⟨fits.protTable,fits.descrambler,fun subChId small prot cached => by
    rw [← infoFixed same]
    exact fits.built subChId small prot cached⟩

theorem cifBitsNow {p i : Nat} (late : 3 ≤ p % 75) (started : 3072 * fill p ≤ i) (inside : i < 3072 * (fill p + 1)) :
    cifBits call (cif p) i = (call p).bits (i - fill p * 3072) := by
  have symbol : i / 3072 = fill p := by omega
  have position : 75 * (cif p / 4) + 3 + 18 * (cif p % 4) + fill p = p := by
    rw [cifInFrame]
    unfold cif fill
    omega
  have rest : i % 3072 = i - fill p * 3072 := by omega
  unfold cifBits
  rw [symbol,position,rest]

theorem takenStored {s : EtiGenerator} (runs : Runs call vec p s) (late : 3 ≤ p % 75) :
    let u := s.takeSymbol (call p).fib (call p).fic (call p).bits (p % 75 + 1)
    u.cifVector = s.cifVector ∧ ∀ i < 3072 * (fill p + 1), u.cifIn.getD i 0 = cifBits call (cif p) i := by
  have index : (p % 75 + 1 - 4) % 18 = fill p := by
    unfold fill
    omega
  have small : fill p < 18 := Nat.mod_lt _ (by decide)
  have imported : Sized (if p % 75 + 1 = 4 then s.importFibs (call p).fib (call p).fic else s) ∧
      (if p % 75 + 1 = 4 then s.importFibs (call p).fib (call p).fic else s).cifIn = s.cifIn ∧
      (if p % 75 + 1 = 4 then s.importFibs (call p).fib (call p).fic else s).cifVector = s.cifVector := by
    split
    · exact ⟨importSized runs.sized _ _,rfl,rfl⟩
    · exact ⟨runs.sized,rfl,rfl⟩
  obtain ⟨sized,cifIn,cifVector⟩ := imported
  have stored := (storeSymbolCells sized (call p).bits small).2
  unfold takeSymbol
  rw [index]
  generalize (if p % 75 + 1 = 4 then s.importFibs (call p).fib (call p).fic else s) = u at cifIn cifVector stored ⊢
  obtain ⟨cells,same⟩ := storeExact u (call p).bits (fill p)
  rw [same] at stored ⊢
  refine ⟨cifVector,fun i inside => ?_⟩
  refine (stored i).trans ?_
  split
  · exact (cifBitsNow late (by omega) inside).symm
  · rw [cifIn]
    exact runs.stored i (by omega)

theorem finishKeeps {fib : FibDecoder}
    (ok : (s.finishCif fib).result = some (t, frame)) : t.cifVector = s.cifVector ∧ t.subChIdList = s.subChIdList := by
  have finished := finishCifCases s fib
  generalize s.finishCif fib = outcome at finished ok
  cases finished with
  | fills | uncounted | idle =>
    cases ok
    exact ⟨rfl,rfl⟩
  | writes =>
    obtain ⟨protTable,descrambler,rfl⟩ := writeFrameState ok
    exact ⟨rfl,rfl⟩

theorem blockStores (runs : Runs call vec p s)
    (ok : (s.processBlock (call p).fib (call p).fic (call p).bits (p % 75 + 1)).result = some (t, frame)) :
    (t.subChIdList = if p % 75 = 3 then (call p).fib.getSubChannelIdList else s.subChIdList) ∧
    (∀ i < 3072 * fill (p + 1), t.cifIn.getD i 0 = cifBits call (cif (p + 1)) i) ∧ Ring call (cif (p + 1)) t.cifVector := by
  have processed := processBlockCases s (call p).fib (call p).fic (call p).bits (p % 75 + 1)
  have taken := takenStored runs
  have quiet := takeQuiet p s (call p)
  have ready := takeReady runs.paced
  have sized := takeSized runs.sized (call p).fib (call p).fic (call p).bits (p % 75 + 1)
  have early : p % 75 < 3 → fill (p + 1) = 0 ∧ cif (p + 1) = cif p := by
    intro first
    rw [fillNext,cifNext,if_pos (Or.inl first),if_neg (by omega)]
    exact ⟨rfl,rfl⟩
  generalize s.processBlock (call p).fib (call p).fic (call p).bits (p % 75 + 1) = outcome at processed ok
  cases processed with
  | stopped _ off =>
    cases ok
    have first : p % 75 < 3 := by
      by_contra late
      have on := runs.paced.running (by omega)
      rw [off] at on
      cases on
    obtain ⟨none,same⟩ := early first
    rw [none,same]
    exact ⟨(if_neg (by omega)).symm,fun i impossible => by omega,runs.ring⟩
  | early first =>
    cases ok
    obtain ⟨none,same⟩ := early (by omega)
    obtain ⟨running,woken⟩ := s.wakeOthers (p % 75 + 1)
    rw [none,same,woken]
    exact ⟨(if_neg (by omega)).symm,fun i impossible => by omega,runs.ring⟩
  | stores on late inside =>
    cases ok
    have next : fill (p + 1) = fill p + 1 ∧ cif (p + 1) = cif p := by
      have filling : fill p ≠ 17 := by
        unfold fill
        omega
      rw [fillNext,cifNext,if_neg (by omega),if_neg (by omega)]
      exact ⟨rfl,rfl⟩
    obtain ⟨cifVector,cells⟩ := taken (by omega)
    rw [next.1,next.2,cifVector]
    exact ⟨quiet.list,cells,runs.ring⟩
  | completes on late last =>
    have full : 3 ≤ p % 75 ∧ fill p = 17 := by
      unfold fill
      omega
    have next : fill (p + 1) = 0 ∧ cif (p + 1) = cif p + 1 := by
      rw [fillNext,cifNext,if_pos (Or.inr full.2),if_pos full]
      exact ⟨rfl,rfl⟩
    obtain ⟨cifVector,cells⟩ := taken full.1
    have index := (ready full.1 (call p)).index
    rw [full.2] at cells
    simp only [completeCifResult] at ok
    generalize s.takeSymbol (call p).fib (call p).fic (call p).bits (p % 75 + 1) = u at *
    obtain ⟨kept,list⟩ := finishKeeps ok
    obtain ⟨_,through⟩ := interleavedSpec sized
    have slot : u.indexOut % 16 = slotOf (cif p) := by
      rw [index]
      unfold slotOf
      split
      · omega
      · exact Nat.mod_mod _ _
    rw [slot,cifVector] at through
    rw [next.1,next.2,kept,list]
    refine ⟨?_,fun i impossible => by omega,ringWrite runs.ring through cells⟩
    exact (interleavedQuiet quiet).list

theorem stepRuns (fixed : (call p).fib.fig0Curr.fig0s1Vec = vec) (sound : EtiSafety.Sound (call p).fib) (runs : Runs call vec p s)
    (ok : (s.processBlock (call p).fib (call p).fic (call p).bits (p % 75 + 1)).result = some (t, frame)) : Runs call vec (p + 1) t := by
  obtain ⟨list,stored,ring⟩ := blockStores runs ok
  have fits := (blockFits (runs.cache _ fixed) runs.indexed sound (call p).fic (call p).bits (p % 75 + 1)).2 t frame ok
  refine ⟨blockPaced runs.paced ok,blockSized runs.sized ok,blockIndexed runs.indexed sound ok,fun late => ?_,
    fun fib same => cacheFixed (fixed.trans same.symm) fits,stored,ring⟩
  rw [list]
  split
  · unfold getSubChannelIdList
    rw [fixed]
  · exact runs.list (by omega)

end Runs

section Streams
variable {fib : FibDecoder} {e : Fig0s1} {s t : EtiGenerator} {input : Nat → Int}

variable {call : Nat → Call} {vec : List Fig0s1}

def descriptor (e : Fig0s1) : DescriptorType := ⟨e.startAddr,e.subChannelSize,e.bitRate,e.shortForm,e.protectionLevel⟩

def fragment (call : Nat → Call) (e : Fig0s1) (c k : Nat) : Int := cifBits call c (64 * e.startAddr.toNat + k)

def Delivers (call : Nat → Call) (c : Nat) (e : Fig0s1) (stream : List Nat) : Prop :=
  ∃ b bits, Backend.newBackend (descriptor e) = some b ∧ b.delivered (fragment call e) c = some bits ∧
    stream = packBytes bits

def Carries (call : Nat → Call) (c : Nat) (vec : List Fig0s1) (frame : List Nat) : Prop :=
  ∃ header fibs streams, frame = frameBytes header fibs streams.flatten ∧ header.length = 12 + 4 * vec.length ∧
    fibs.length = 96 ∧ List.Forall₂ (Delivers call c) vec streams

theorem infoListed (sound : EtiSafety.Sound fib) (listed : e ∈ fib.fig0Curr.fig0s1Vec) :
    fib.getSubChannelInfo e.subChId = channelData true e := by
  rcases infoCases fib e.subChId with ⟨f,stored,same,info⟩ | info
  · have equal := inj_on_of_nodup_map sound.consistent.distinct stored listed same
    rw [info,equal]
  · unfold getSubChannelInfo FibConfigFig0.getFig0s1OfSubChId at info
    cases found : fib.fig0Curr.fig0s1Vec.find? (fun f => f.subChId = e.subChId) with
    | none =>
      have other := List.find?_eq_none.mp found e listed
      exact absurd (decide_eq_true rfl) other
    | some f =>
      rw [found] at info
      have used := congrArg ChannelData.inUse info
      cases used

theorem dispersedZip {out desc : List Bool} {n : Nat} (bits : out.length = n) (sequence : desc.length = n) :
    (range n).map (fun j => out.getD j false ^^ desc.getD j false) = Backend.reverseDispersal out desc := by
  unfold Backend.reverseDispersal
  refine ext_getElem ?_ fun j here there => ?_
  · rw [length_map,length_range,length_zipWith,bits,sequence,Nat.min_self]
  · rw [length_map,length_range] at here
    rw [getElem_map,getElem_range,getElem_zipWith,getD_eq_getElem _ _ (by omega),getD_eq_getElem _ _ (by omega)]

theorem depthAligned (start k : Nat) : depth (64 * start + k) = depth k := by
  unfold depth
  congr 1
  omega

theorem decodedBytes {decode : Decode} {bytes : List Nat} (info : fib.getSubChannelInfo e.subChId = channelData true e)
    (fits : BuiltFor decode.data decode.prot decode.desc) (decoded : Decoded s fib input e.subChId t decode bytes) :
    ∃ p calls, handler e = some p ∧ bytes = packBytes (Backend.reverseDispersal
      ((p.after calls).deconvolve (fun k => input (64 * e.startAddr.toNat + k))).2 (disperseVector (24 * e.bitRate.toNat))) := by
  obtain ⟨⟨p,calls,made,prot⟩,desc⟩ := fits
  have data := decoded.data.trans info
  rw [data] at made desc
  refine ⟨p,calls,made,?_⟩
  have bitrate : (channelData true e).bitrate = e.bitRate := rfl
  have startCu : (channelData true e).startCu = e.startAddr := rfl
  have length : ∀ v, ((p.after calls).deconvolve v).2.length = 24 * e.bitRate.toNat := by
    intro v
    rw [deconvolveLength,(afterKeeps p calls).1,handlerBitRate made]
    rfl
  rw [decoded.bytes]
  unfold processSubChannel
  dsimp only
  rw [prot,data,desc,bitrate,startCu,Nat.mul_comm e.startAddr.toNat 64,dispersedZip (length _) (disperseVectorLength _)]

theorem deliveredBits {p : Protection} (made : handler e = some p) :
    ∃ b, Backend.newBackend (descriptor e) = some b ∧ ∀ x c, 16 ≤ c → ∃ calls v,
      b.delivered x c = some (Backend.reverseDispersal ((p.after calls).deconvolve v).2 (disperseVector (24 * e.bitRate.toNat))) ∧
      ∀ k : Nat, (k : Int) < 64 * e.subChannelSize → v k = x (c - 16 + depth k) k := by
  obtain ⟨b,built,deconvolver,disperse,size⟩ : ∃ b, Backend.newBackend (descriptor e) = some b ∧ b.deconvolver = p ∧
      b.disperse = disperseVector (24 * e.bitRate.toNat) ∧ b.fragmentSize = (e.subChannelSize * 64).toNat :=
    ⟨_,Option.map_eq_some_iff.mpr ⟨p,made,rfl⟩,rfl,rfl,rfl⟩
  refine ⟨b,built,fun x c late => ?_⟩
  have start := Backend.newStreams built x
  obtain ⟨sequence,calls,called⟩ := Backend.beforeKeeps b x c
  refine ⟨calls,_,?_,fun k inside => Backend.segmentReads (Backend.beforeStreams start c) late (by omega)⟩
  rw [Backend.deliveredLate start late,sequence,disperse,called,deconvolver]
  rfl

theorem decodedDelivers {decode : Decode} {bytes : List Nat} {c : Nat} (sound : EtiSafety.Sound fib) (listed : e ∈ fib.fig0Curr.fig0s1Vec)
    (fits : BuiltFor decode.data decode.prot decode.desc) (decoded : Decoded s fib input e.subChId t decode bytes)
    (late : 16 ≤ c) (reads : ∀ i < 55296, input i = cifBits call (c - 16 + depth i) i) : Delivers call c e bytes := by
  obtain ⟨p,calls,made,rfl⟩ := decodedBytes (infoListed sound listed) fits decoded
  obtain ⟨b,built,delivers⟩ := deliveredBits made
  obtain ⟨others,v,bits,passed⟩ := delivers (fragment call e) c late
  refine ⟨b,_,built,bits,?_⟩
  congr 2
  rcases Nat.eq_zero_or_pos e.bitRate.toNat with none | some
  · -- without a bit rate there is nothing to decode
    have length : ∀ calls v, ((p.after calls).deconvolve v).2.length = 0 := by
      intro calls v
      rw [deconvolveLength,(afterKeeps p calls).1,handlerBitRate made,none]
    rw [length_eq_zero_iff.mp (length calls _),length_eq_zero_iff.mp (length others _)]
  · refine deconvolveAgree p calls others fun k inside => ?_
    have units := sound.consistent.inside e listed
    have cus : cNumCuPerCif = 864 := rfl
    have within : (p.viterbiBlockAddresses.length : Int) ≤ 64 * e.subChannelSize := by
      obtain ⟨d,bitOffset,rfl⟩ := sound.described e listed
      exact handlerWithin made (by omega)
    rw [passed k (by omega),reads _ (by omega),depthAligned]
    rfl

theorem storedIds (sound : EtiSafety.Sound fib) (listed : e ∈ fib.fig0Curr.fig0s1Vec) : 0 ≤ e.subChId ∧ e.subChId < 64 := by
  obtain ⟨d,bitOffset,rfl⟩ := sound.described e listed
  have bound : getBits6 d bitOffset < 64 := getBitsLt d bitOffset 6
  rw [readSubChId]
  omega

theorem decodesDeliver (sound : EtiSafety.Sound fib) {c : Nat} (late : 16 ≤ c)
    (reads : ∀ i < 55296, input i = cifBits call (c - 16 + depth i) i) {entries : List Fig0s1}
    (listed : ∀ e ∈ entries, e ∈ fib.fig0Curr.fig0s1Vec) {decodes : List Decode} {data : List Nat}
    (fits : CacheFits fib s) (decoded : Decodes fib input (entries.map Fig0s1.subChId) s decodes t data) :
    ∃ streams, data = streams.flatten ∧ List.Forall₂ (Delivers call c) entries streams := by
  induction entries generalizing s t decodes data with
  | nil =>
    cases decoded
    exact ⟨[],rfl,List.Forall₂.nil⟩
  | cons e entries ih =>
    cases decoded with
    | cons head tail =>
      have here := listed e mem_cons_self
      have ids := storedIds sound here
      have first := decodedDelivers sound here (decodedBuilt fits ids head) head late reads
      obtain ⟨streams,rfl,rest⟩ := ih (fun f later => listed f (mem_cons_of_mem _ later))
        (decodedCache fits ids head) tail
      exact ⟨_ :: streams,rfl,List.Forall₂.cons first rest⟩

end Streams

section Agreement

variable {call : Nat → Call} {vec : List Fig0s1}

structure Tuned (toQString : Nat → List Nat → List Nat) (call : Nat → Call) (vec : List Fig0s1) : Prop where
  heard : ∀ p, ∃ events, (call p).fib = FibDecoder.run toQString {} events
  fixed : ∀ p, (call p).fib.fig0Curr.fig0s1Vec = vec

theorem tunedSound {toQString : Nat → List Nat → List Nat} (tuned : Tuned toQString call vec) (p : Nat) : EtiSafety.Sound (call p).fib := by
  obtain ⟨events,heard⟩ := tuned.heard p
  rw [heard]
  exact ⟨(runFromStart consistentKept toQString events).1,(runFromStart describedKept toQString events).1⟩

variable (toQString : Nat → List Nat → List Nat)

theorem stepSized {s : EtiSystem} (sized : Sized s.eti) (event : EtiSystem.Event) : Sized (EtiSystem.step toQString s event).eti := by
  cases event with
  | fib event => exact sized
  | block fic bits ofdmSymbIdx =>
    unfold EtiSystem.step
    dsimp only
    split
    · exact sized
    · split
      · exact sized
      · rename_i t frame ok
        exact blockSized sized ok
  | startEtiGenerator opened | stopEtiGenerator | reset => exact ⟨sized.cifIn,sized.shape,sized.fibVector,sized.fibs⟩

theorem newSized : Sized {} := by
  refine ⟨length_replicate,⟨length_replicate,length_replicate,?_⟩,length_replicate,?_⟩
  · intro slot small
    rw [getD_replicate _ small,length_replicate]
  · intro slot small
    rw [getD_replicate _ small,length_replicate]

theorem runSized (events : List EtiSystem.Event) : Sized (EtiSystem.run toQString {} events).eti := by
  have kept : ∀ s : EtiSystem, Sized s.eti → Sized (events.foldl (EtiSystem.step toQString) s).eti := by
    induction events with
    | nil => exact fun s sized => sized
    | cons event events ih => exact fun s sized => ih _ (stepSized toQString sized event)
  exact kept {} newSized

def started (toQString : Nat → List Nat → List Nat) (history : List EtiSystem.Event) : EtiGenerator :=
  (EtiSystem.run toQString {} history).eti.startEtiGenerator true

theorem startedRuns (history : List EtiSystem.Event) : Runs call vec 0 (started toQString history) := by
  have sized := runSized toQString history
  have indexed := resetIndexed (runSystemSound toQString history).indexed
  refine ⟨startPaced _,⟨sized.cifIn,sized.shape,sized.fibVector,sized.fibs⟩,
    ⟨indexed.index,indexed.distinct,indexed.ids⟩,fun late => absurd late (by decide),fun fib _ => ?_,
    fun i impossible => absurd impossible (Nat.not_lt_zero i),⟨fun _ d impossible => absurd impossible (Nat.not_lt_zero d),
      fun d _ impossible => absurd impossible (Nat.not_lt_zero d)⟩⟩
  have reset := resetFits fib (EtiSystem.run toQString {} history).eti
  exact ⟨reset.protTable,reset.descrambler,reset.built⟩

theorem reachedRuns {toQString : Nat → List Nat → List Nat} (tuned : Tuned toQString call vec)
    {history : List EtiSystem.Event} {p : Nat} {s : EtiGenerator} (reached : Reached call (started toQString history) p s) :
    Runs call vec p s := by
  induction reached with
  | first => exact startedRuns toQString history
  | next before ok ih => exact stepRuns (tuned.fixed _) (tunedSound tuned _) ih ok

structure Parts (call : Nat → Call) (vec : List Fig0s1) (p : Nat) (s : EtiGenerator) (frame header fibs data : List Nat)
    (temp : List Int) : Prop where
  bytes : frame = frameBytes header fibs data
  header : header.length = 12 + 4 * vec.length
  fibs : fibs.length = 96
  decoded : ∃ u decodes last, CacheFits (call p).fib u ∧
    Decodes (call p).fib (fun i => temp.getD i 0) (vec.map Fig0s1.subChId) u decodes last data
  through : ∃ bits next, Through (slotOf (cif p)) bits s.cifVector 55296 temp next

theorem frameParts {p : Nat} {s t : EtiGenerator} {frame : List Nat} (fixed : (call p).fib.fig0Curr.fig0s1Vec = vec)
    (runs : Runs call vec p s) (ok : (s.processBlock (call p).fib (call p).fic (call p).bits (p % 75 + 1)).result = some (t, some frame)) :
    EtiRun.Writes p ∧ ∃ header fibs data temp, Parts call vec p s frame header fibs data temp := by
  have writes : EtiRun.Writes p := by
    by_contra silent
    obtain ⟨u,other,_⟩ := blockSilent runs.paced silent (call p)
    rw [other] at ok
    cases ok
  refine ⟨writes,?_⟩
  have four : p % 75 ≠ 3 := by
    have full := writes.2.1
    unfold fill at full
    omega
  obtain ⟨cifVector,_⟩ := takenStored runs writes.1
  have sized := takeSized runs.sized (call p).fib (call p).fic (call p).bits (p % 75 + 1)
  have index := (takeReady runs.paced writes.1 (call p)).index
  have ready := readyInterleaved (takeReady runs.paced writes.1 (call p))
  have quiet := interleavedQuiet (takeQuiet p s (call p))
  have fits := interleavedFits (takeFits (runs.cache _ fixed) (call p).fic (call p).bits (p % 75 + 1))
  rw [(blockWrites runs.paced writes (call p)).1] at ok
  generalize s.takeSymbol (call p).fib (call p).fic (call p).bits (p % 75 + 1) = v at *
  obtain ⟨sizedToo,through⟩ := interleavedSpec sized
  have slot : v.indexOut % 16 = slotOf (cif p) := by
    rw [index]
    unfold slotOf
    split
    · omega
    · exact Nat.mod_mod _ _
  have inside : v.interleaved.indexOut < 16 := by
    rw [ready.index]
    split <;> omega
  have list : v.interleaved.subChIdList = vec.map Fig0s1.subChId :=
    quiet.list.trans ((if_neg four).trans (runs.list (by have := writes.1; omega)))
  rw [slot,cifVector] at through
  generalize v.interleaved = u at *
  obtain ⟨header,last,data,written⟩ := writeFrameExact ok
  have decodes := processCifExact written.cif
  obtain ⟨protTable,descrambler,same⟩ := decodesState decodes
  have file : last.etiFile = true := by rw [same]; exact ready.file
  have length := initEtiLength written.built
  have bytes := written.bytes
  rw [if_pos file] at bytes
  rw [list] at length decodes
  rw [length_map] at length
  refine ⟨header,_,data,u.temp,Option.some.inj bytes,length,?_,⟨u,_,last,fits,decodes⟩,⟨_,_,through⟩⟩
  rw [same]
  exact sizedToo.fibs _ inside

theorem agreement {toQString : Nat → List Nat → List Nat} {call : Nat → Call} {vec : List Fig0s1}
    (tuned : Tuned toQString call vec) {history : List EtiSystem.Event} {p : Nat} {s t : EtiGenerator} {frame : List Nat}
    (reached : Reached call (started toQString history) p s)
    (ok : (s.processBlock (call p).fib (call p).fic (call p).bits (p % 75 + 1)).result = some (t, some frame))
    (late : 32 ≤ cif p) : Carries call (cif p) vec frame := by
  have runs := reachedRuns tuned reached
  obtain ⟨_,header,fibs,data,temp,parts⟩ := frameParts (tuned.fixed p) runs ok
  obtain ⟨u,decodes,last,fits,decoded⟩ := parts.decoded
  obtain ⟨bits,next,through⟩ := parts.through
  have listed : ∀ e ∈ vec, e ∈ (call p).fib.fig0Curr.fig0s1Vec := by
    intro e here
    rw [tuned.fixed p]
    exact here
  obtain ⟨streams,rfl,delivers⟩ := decodesDeliver (tunedSound tuned p) (by omega)
    (fun i small => ringRead runs.ring through late small) listed fits decoded
  exact ⟨header,fibs,streams,parts.bytes,parts.header,parts.fibs,delivers⟩

end Agreement

section Progress

variable {call : Nat → Call} {vec : List Fig0s1}

theorem handlerBuilt (shortForm : Bool) {bitRate : Int} (rated : 0 ≤ bitRate) (protLevel : Int) :
    ∃ p, backendDeconvolver shortForm bitRate protLevel = some p := by
  obtain ⟨rate,rfl⟩ := Int.eq_ofNat_of_zero_le rated
  unfold backendDeconvolver
  split
  · exact ⟨_,uepOfBlocks rate protLevel⟩
  · exact ⟨_,eepOfBlocks rate protLevel⟩

theorem protectionBuilt (s : EtiGenerator) {data : ChannelData} (rated : 0 ≤ data.bitrate) (subChId : Nat) :
    ∃ prot desc, protectionFor s data subChId = some (prot, desc) := by
  unfold protectionFor
  split
  · exact ⟨_,_,rfl⟩
  · obtain ⟨p,made⟩ := handlerBuilt data.uepFlag rated data.protlev
    rw [made]
    exact ⟨_,_,rfl⟩

theorem processCifTotal {fib : FibDecoder} (sound : EtiSafety.Sound fib) (input : Nat → Int) {entries : List Fig0s1}
    (listed : ∀ e ∈ entries, e ∈ fib.fig0Curr.fig0s1Vec) (rated : ∀ e ∈ entries, 0 ≤ e.bitRate) (s : EtiGenerator)
    (offset : Nat) : ∃ out, (processCif fib input (entries.map Fig0s1.subChId) s offset).result = some out := by
  induction entries generalizing s offset with
  | nil => exact ⟨_,rfl⟩
  | cons e entries ih =>
    have info := infoListed sound (listed e mem_cons_self)
    have rate : 0 ≤ (fib.getSubChannelInfo e.subChId).bitrate := by
      rw [info]
      exact rated e mem_cons_self
    obtain ⟨prot,desc,objects⟩ := protectionBuilt s rate e.subChId.toNat
    have decode := decodeMakes input (by rw [info]; rfl) rate objects
    have rest := ih (fun f later => listed f (mem_cons_of_mem _ later))
      (fun f later => rated f (mem_cons_of_mem _ later))
    rw [map_cons]
    unfold processCif
    simp only [decode]
    exact ⟨_,Option.map_eq_some_iff.mpr ⟨_,(rest _ _).choose_spec,rfl⟩⟩

theorem initEtiTotal {fib : FibDecoder} (sound : EtiSafety.Sound fib) {entries : List Fig0s1}
    (listed : ∀ e ∈ entries, e ∈ fib.fig0Curr.fig0s1Vec) (hi lo minor : Int) :
    ∃ header, initEti fib (entries.map Fig0s1.subChId) hi lo minor = some header := by
  have used : ((entries.map Fig0s1.subChId).map fib.getSubChannelInfo).all ChannelData.inUse = true := by
    rw [all_eq_true]
    intro data mapped
    obtain ⟨subChId,ids,rfl⟩ := mem_map.mp mapped
    obtain ⟨e,here,rfl⟩ := mem_map.mp ids
    rw [infoListed sound (listed e here)]
    rfl
  unfold initEti
  dsimp only
  rw [if_pos used]
  exact ⟨_,rfl⟩

theorem frameWritten {p : Nat} {s : EtiGenerator} (fixed : (call p).fib.fig0Curr.fig0s1Vec = vec)
    (sound : EtiSafety.Sound (call p).fib) (rated : ∀ e ∈ vec, 0 ≤ e.bitRate) (runs : Runs call vec p s) (writes : EtiRun.Writes p) :
    ∃ t frame, (s.processBlock (call p).fib (call p).fic (call p).bits (p % 75 + 1)).result = some (t, some frame) := by
  have four : p % 75 ≠ 3 := by
    have full := writes.2.1
    unfold fill at full
    omega
  have late : 3 < p := by
    have reached := writes.1
    omega
  have ready := readyInterleaved (takeReady runs.paced writes.1 (call p))
  have quiet := interleavedQuiet (takeQuiet p s (call p))
  rw [(blockWrites runs.paced writes (call p)).1]
  generalize (s.takeSymbol (call p).fib (call p).fic (call p).bits (p % 75 + 1)).interleaved = u at *
  have list : u.subChIdList = vec.map Fig0s1.subChId := quiet.list.trans ((if_neg four).trans (runs.list late))
  have listed : ∀ e ∈ vec, e ∈ (call p).fib.fig0Curr.fig0s1Vec := by
    intro e here
    rw [fixed]
    exact here
  obtain ⟨header,built⟩ := initEtiTotal sound listed u.cifCountHi u.cifCountLo u.minor
  obtain ⟨⟨last,data⟩,decoded⟩ := processCifTotal sound (fun i => u.temp.getD i 0) listed rated u (header.length + 96)
  obtain ⟨protTable,descrambler,same⟩ := decodesState (processCifExact decoded)
  have file : last.etiFile = true := by rw [same]; exact ready.file
  rw [← list] at built decoded
  exact ⟨_,_,(writeFrameMakes built decoded file).1⟩

theorem reachedAll {toQString : Nat → List Nat → List Nat} (tuned : Tuned toQString call vec)
    (rated : ∀ e ∈ vec, 0 ≤ e.bitRate) (history : List EtiSystem.Event) (p : Nat) : ∃ s, Reached call (started toQString history) p s := by
  induction p with
  | zero => exact ⟨_,Reached.first⟩
  | succ p ih =>
    obtain ⟨s,reached⟩ := ih
    have runs := reachedRuns tuned reached
    by_cases writes : EtiRun.Writes p
    · obtain ⟨t,frame,ok⟩ := frameWritten (tuned.fixed p) (tunedSound tuned p) rated runs writes
      exact ⟨t,Reached.next reached ok⟩
    · obtain ⟨t,ok,_⟩ := blockSilent runs.paced writes (call p)
      exact ⟨t,Reached.next reached ok⟩

end Progress

def stream (x : Nat → Nat → Int) (p : Nat) : Call :=
  ⟨FibDecoder.processFib plainText {} rateFib,silence,fun k => x (cif p) (3072 * fill p + k)⟩

def rateEntry : Fig0s1 := { subChId := 1, startAddr := 0, option := 0, protectionLevel := 2, subChannelSize := 6, bitRate := 8 }

variable (x : Nat → Nat → Int)

theorem streamTuned : Tuned plainText (stream x) [rateEntry] := by
  have stored : (FibDecoder.processFib plainText {} rateFib).fig0Curr.fig0s1Vec = [rateEntry] := by decide
  exact ⟨fun p => ⟨[.fib rateFib],rfl⟩,fun p => stored⟩

theorem streamBits (c : Nat) {i : Nat} (small : i < 55296) : cifBits (stream x) c i = x c i := by
  have symbols : i / 3072 < 18 := by omega
  have frame : (75 * (c / 4) + 3 + 18 * (c % 4) + i / 3072) / 75 = c / 4 := by omega
  have position : (75 * (c / 4) + 3 + 18 * (c % 4) + i / 3072) % 75 = 3 + 18 * (c % 4) + i / 3072 := by omega
  have here : cif (75 * (c / 4) + 3 + 18 * (c % 4) + i / 3072) = c := by
    unfold cif
    rw [frame,position]
    omega
  have symbol : fill (75 * (c / 4) + 3 + 18 * (c % 4) + i / 3072) = i / 3072 := by
    unfold fill
    rw [position]
    omega
  unfold cifBits stream
  dsimp only
  rw [here,symbol,Nat.div_add_mod]

theorem rateReached {p : Nat} (writes : EtiRun.Writes p) : ∃ s t frame, Reached (stream x) (started plainText []) p s ∧
    (s.processBlock (stream x p).fib (stream x p).fic (stream x p).bits (p % 75 + 1)).result = some (t, some frame) := by
  have tuned := streamTuned x
  have rated : ∀ e ∈ [rateEntry], 0 ≤ e.bitRate := by decide
  obtain ⟨s,reached⟩ := reachedAll tuned rated [] p
  obtain ⟨t,frame,ok⟩ := frameWritten (tuned.fixed p) (tunedSound tuned p) rated (reachedRuns tuned reached) writes
  exact ⟨s,t,frame,reached,ok⟩

theorem laterFrameAgrees : ∃ s t frame, Reached (stream (fun _ _ => 0)) (started plainText []) 620 s ∧
    (s.processBlock (stream (fun _ _ => 0) 620).fib (stream (fun _ _ => 0) 620).fic
      (stream (fun _ _ => 0) 620).bits (620 % 75 + 1)).result = some (t, some frame) ∧
    Carries (stream (fun _ _ => 0)) (cif 620) [rateEntry] frame := by
  obtain ⟨s,t,frame,reached,ok⟩ := rateReached (fun _ _ => 0) (p := 620) (by unfold EtiRun.Writes; decide)
  exact ⟨s,t,frame,reached,ok,agreement (streamTuned _) reached ok (by decide)⟩

theorem frameData {header fibs data : List Nat} {n : Nat} (length : header.length + fibs.length = n) {j : Nat}
    (inside : j < data.length) : (frameBytes header fibs data).getD (n + j) 0 = data.getD j 0 := by
  subst length
  unfold frameBytes
  dsimp only
  rw [append_assoc,append_assoc (header ++ fibs),getD_append_right _ _ _ _ (by rw [length_append]; omega),
    length_append,Nat.add_sub_cancel_left,getD_append _ _ _ _ inside]

theorem packByteLow (bits : Nat → Bool) : packByte bits % 2 = (bits 7).toNat := by
  have low : ∀ n b, ((n <<< 1) ||| Bool.toNat b) % 2 = b.toNat := by
    intro n b
    rw [Nat.or_mod_two_pow (n := 1),Nat.shiftLeft_eq]
    cases b <;> simp
  unfold packByte
  exact low _ _

theorem packBytesLow {bits : List Bool} (long : 8 ≤ bits.length) :
    0 < (packBytes bits).length ∧ (packBytes bits).getD 0 0 % 2 = (bits.getD 7 false).toNat := by
  have count : 0 < bits.length / 8 := Nat.div_pos long (by decide)
  have length : (packBytes bits).length = bits.length / 8 := by
    unfold packBytes
    rw [length_map,length_range]
  refine ⟨by omega,?_⟩
  rw [getD_eq_getElem _ _ (by omega)]
  unfold packBytes
  rw [getElem_map,packByteLow,getElem_range,Nat.zero_mul]

theorem dispersedLow (bit : Bool) : 8 ≤ (Backend.reverseDispersal (replicate 192 bit) (disperseVector 192)).length ∧
    (Backend.reverseDispersal (replicate 192 bit) (disperseVector 192)).getD 7 false = (bit ^^ (disperseVector 192).getD 7 false) := by
  have length := disperseVectorLength 192
  unfold Backend.reverseDispersal
  constructor
  · rw [length_zipWith,length_replicate,length]
    decide
  · rw [getD_eq_getElem _ _ (by rw [length_zipWith,length_replicate,length]; decide),
      getElem_zipWith,getElem_replicate,getD_eq_getElem _ _ (by omega)]

def staggered (c i : Nat) : Int :=
  ChannelDecoding.transmit (ofBlocks 8 (eepBlocks 8 2)).viterbiBlockAddresses (replicate 192 (decide (c = depth i))) i

theorem rateFills : Fills 8 (eepBlocks 8 2) := (eepBlocksA (n := 1) (by decide) (show 2 < 4 by decide)).1

theorem rateAddresses : (ofBlocks 8 (eepBlocks 8 2)).viterbiBlockAddresses.length = 384 :=
  (ofBlocksRegistered rateFills.1 8).trans (eepBlocksA (n := 1) (by decide) (show 2 < 4 by decide)).2

theorem staggeredDecoded (bit : Bool) (calls : List (Nat → Int)) {v : Nat → Int} {c : Nat → Nat}
    (reads : ∀ k < 384, v k = staggered (c k) k) (same : ∀ k < 384, decide (c k = depth k) = bit) :
    (((ofBlocks 8 (eepBlocks 8 2)).after calls).deconvolve v).2 = replicate 192 bit := by
  refine ChannelDecoding.ofBlocksExact rateFills length_replicate calls fun k inside => ?_
  rw [rateAddresses] at inside
  rw [reads k inside]
  unfold staggered
  rw [same k inside]

theorem firstFrameDiffers : ∃ s t frame, Reached (stream staggered) (started plainText []) 320 s ∧
    (s.processBlock (stream staggered 320).fib (stream staggered 320).fic (stream staggered 320).bits
      (320 % 75 + 1)).result = some (t, some frame) ∧ ¬Carries (stream staggered) (cif 320) [rateEntry] frame := by
  have tuned := streamTuned staggered
  obtain ⟨s,t,frame,reached,ok⟩ := rateReached staggered (p := 320) (by unfold EtiRun.Writes; decide)
  refine ⟨s,t,frame,reached,ok,?_⟩
  have runs := reachedRuns tuned reached
  have sixteen : cif 320 = 16 := by decide
  have made : handler rateEntry = some (ofBlocks 8 (eepBlocks 8 2)) := eepOfBlocks 8 2
  obtain ⟨_,header,fibs,data,temp,parts⟩ := frameParts (tuned.fixed 320) runs ok
  obtain ⟨u,decodes,last,fits,decoded⟩ := parts.decoded
  obtain ⟨bits,next,through⟩ := parts.through
  have ring := runs.ring
  rw [sixteen] at ring through ⊢
  have listed : rateEntry ∈ (stream staggered 320).fib.fig0Curr.fig0s1Vec := by
    rw [tuned.fixed 320]
    exact mem_singleton_self _
  have sound := tunedSound tuned 320
  have generated : data = packBytes (Backend.reverseDispersal (replicate 192 false) (disperseVector 192)) := by
    cases decoded with
    | cons head tail =>
      cases tail
      obtain ⟨p,calls,same,rfl⟩ := decodedBytes (infoListed sound listed) (decodedBuilt fits (storedIds sound listed) head) head
      obtain rfl := Option.some.inj (same.symm.trans made)
      rw [append_nil]
      congr 2
      refine staggeredDecoded false calls (c := fun k => (15 + depth k) % 16) ?_ ?_
      · intro k inside
        have reads := ringReadFirst ring through (i := k) (by omega)
        rw [streamBits _ _ (by omega)] at reads
        show temp.getD (64 * 0 + k) 0 = _
        rw [Nat.mul_zero,Nat.zero_add]
        exact reads
      · intro k inside
        have deep := depthLt k
        exact decide_eq_false (by omega)
  rintro ⟨otherHeader,otherFibs,streams,bytes,headerLength,fibsLength,carried⟩
  cases carried with
  | cons delivers rest =>
    cases rest
    obtain ⟨b,out,built,delivered,rfl⟩ := delivers
    obtain ⟨backend,builtToo,all⟩ := deliveredBits made
    obtain rfl := Option.some.inj (built.symm.trans builtToo)
    obtain ⟨calls,v,bitsOut,passed⟩ := all (fragment (stream staggered) rateEntry) 16 (le_refl 16)
    have ones : ((((ofBlocks 8 (eepBlocks 8 2)).after calls).deconvolve v)).2 = replicate 192 true := by
      refine staggeredDecoded true calls (c := depth) ?_ ?_
      · intro k inside
        rw [passed k (by show (k : Int) < 64 * 6; omega)]
        have reads := streamBits staggered (16 - 16 + depth k) (i := 64 * 0 + k) (by omega)
        rw [Nat.mul_zero,Nat.zero_add] at reads
        show cifBits _ _ (64 * 0 + k) = _
        rw [Nat.mul_zero,Nat.zero_add,reads,Nat.zero_add]
      · intro k _
        exact decide_eq_true rfl
    have rate : 24 * rateEntry.bitRate.toNat = 192 := rfl
    rw [ones,delivered,rate] at bitsOut
    have word := Option.some.inj bitsOut
    obtain ⟨zerosLong,zerosLow⟩ := dispersedLow false
    obtain ⟨onesLong,onesLow⟩ := dispersedLow true
    obtain ⟨long,first⟩ := packBytesLow zerosLong
    obtain ⟨longToo,firstToo⟩ := packBytesLow onesLong
    have length : header.length + fibs.length = 112 := by rw [parts.header,parts.fibs]; rfl
    have lengthToo : otherHeader.length + otherFibs.length = 112 := by rw [headerLength,fibsLength]; rfl
    have generatedByte := frameData length (show 0 < data.length by rw [generated]; exact long)
    have deliveredByte := frameData lengthToo (show 0 < [packBytes out].flatten.length
      by rw [flatten_singleton,word]; exact longToo)
    rw [← parts.bytes,generated] at generatedByte
    rw [← bytes,flatten_singleton,word,generatedByte] at deliveredByte
    rw [deliveredByte,firstToo,onesLow,zerosLow] at first
    generalize (disperseVector 192).getD 7 false = bit at first
    cases bit <;> exact absurd first (by decide)

end DabStar.EtiAgreement
