import DabStar.EtiSafety

/-! The objects the ETI generator caches by SubChId alone. They fit what the FIB decoder
reports as long as no FIB changes a SubChId that has an object; a change of configuration does.
-/
namespace DabStar.EtiCache
open List Fib Fib.FibDecoder Fib.Multiplex SubChannel Protection EtiGenerator EtiSafety
variable {fib : FibDecoder} {s : EtiGenerator} {decode : Decode}

def BuiltFor (data : ChannelData) (prot : Protection) (desc : List Bool) : Prop :=
  (∃ p calls, backendDeconvolver data.uepFlag data.bitrate data.protlev = some p ∧ prot = p.after calls) ∧
    desc = disperseVector (24 * data.bitrate.toNat)

structure Fits (decode : Decode) : Prop where
  built : BuiltFor decode.data decode.prot decode.desc
  reads : 24 * decode.data.bitrate.toNat ≤ decode.desc.length
  writes : ∀ v, (decode.prot.deconvolve v).2.length ≤ 24 * decode.data.bitrate.toNat

theorem chainbackLength (decisions : List (List Bool)) (framebits endstate : Nat) (output : List Bool) :
    (ViterbiSpiral.chainback decisions framebits endstate output).length = framebits + output.length := by
  induction framebits generalizing endstate output with
  | zero => exact (Nat.zero_add _).symm
  | succ framebits ih =>
    unfold ViterbiSpiral.chainback
    dsimp only
    rw [ih,length_cons]
    omega

theorem deconvolveLength (p : Protection) (v : Nat → Int) : (p.deconvolve v).2.length = 24 * p.bitRate := by
  unfold Protection.deconvolve ViterbiSpiral.deconvolve
  exact chainbackLength _ _ _ _

theorem newBitRate {bitRate : Int} {p : Protection} (built : newProtection bitRate = some p) : p.bitRate = bitRate.toNat := by
  unfold newProtection at built
  split at built
  · contradiction
  · cases built
    rfl

theorem handlerBitRate {shortForm : Bool} {bitRate protLevel : Int} {p : Protection}
    (built : backendDeconvolver shortForm bitRate protLevel = some p) : p.bitRate = bitRate.toNat := by
  unfold backendDeconvolver at built
  split at built
  · obtain ⟨q,new,same⟩ := Option.map_eq_some_iff.mp built
    have rate := newBitRate new
    rw [← same]
    exact rate
  · obtain ⟨q,new,same⟩ := Option.map_eq_some_iff.mp built
    have rate := newBitRate new
    rw [← same]
    exact rate

theorem builtFits (built : BuiltFor decode.data decode.prot decode.desc) : Fits decode := by
  obtain ⟨⟨p,calls,made,prot⟩,desc⟩ := id built
  refine ⟨built,?_,fun v => ?_⟩
  · rw [desc,disperseVectorLength]
  · rw [deconvolveLength,prot,(afterKeeps p calls).1,handlerBitRate made]

theorem builtDecoded {data : ChannelData} {prot : Protection} {desc : List Bool} (built : BuiltFor data prot desc)
    (input : Nat → Int) : BuiltFor data (processSubChannel data prot desc input).1 desc := by
  obtain ⟨⟨p,calls,made,rfl⟩,sequence⟩ := built
  exact ⟨⟨p,_,made,(afterSnoc p calls _).symm⟩,sequence⟩

structure CacheFits (fib : FibDecoder) (s : EtiGenerator) : Prop where
  protTable : s.protTable.length = 64
  descrambler : s.descrambler.length = 64
  built : ∀ subChId < 64, ∀ prot, s.protTable.getD subChId none = some prot →
    BuiltFor (fib.getSubChannelInfo subChId) prot ((s.descrambler.getD subChId none).getD [])

theorem decodedBuilt {s t : EtiGenerator} {input : Nat → Int} {subChId : Int}
    {bytes : List Nat} (fits : CacheFits fib s) (inside : 0 ≤ subChId ∧ subChId < 64)
    (decoded : Decoded s fib input subChId t decode bytes) : BuiltFor decode.data decode.prot decode.desc := by
  have objects := decoded.objects
  unfold protectionFor at objects
  split at objects
  · rename_i prot cached
    obtain ⟨same,desc⟩ := Prod.mk.inj (Option.some.inj objects)
    have built := fits.built subChId.toNat (by omega) _ cached
    rw [Int.toNat_of_nonneg inside.1,desc,same] at built
    rw [decoded.data]
    exact built
  · obtain ⟨p,made,same⟩ := Option.map_eq_some_iff.mp objects
    obtain ⟨prot,desc⟩ := Prod.mk.inj same
    exact ⟨⟨p,[],made,prot.symm⟩,desc.symm⟩

theorem decodedCache {s t : EtiGenerator} {input : Nat → Int} {subChId : Int}
    {bytes : List Nat} (fits : CacheFits fib s) (inside : 0 ≤ subChId ∧ subChId < 64)
    (decoded : Decoded s fib input subChId t decode bytes) : CacheFits fib t := by
  have used := builtDecoded (decodedBuilt fits inside decoded) input
  rw [decoded.state]
  refine ⟨?_,?_,?_⟩
  · exact length_set.trans fits.protTable
  · exact length_set.trans fits.descrambler
  · intro other small prot cached
    by_cases same : subChId.toNat = other
    · subst same
      rw [getD_eq_getElem?_getD,List.getElem?_set_self (by rw [fits.protTable]; exact small)] at cached
      rw [getD_eq_getElem?_getD,List.getElem?_set_self (by rw [fits.descrambler]; exact small)]
      cases cached
      rw [Int.toNat_of_nonneg inside.1,← decoded.data]
      exact used
    · rw [getD_eq_getElem?_getD,List.getElem?_set_ne same,← getD_eq_getElem?_getD] at cached
      rw [getD_eq_getElem?_getD,List.getElem?_set_ne same,← getD_eq_getElem?_getD]
      exact fits.built other small prot cached

theorem processCifFits (input : Nat → Int) {subChIds : List Int} (offset : Nat)
    (fits : CacheFits fib s) (ids : ∀ subChId ∈ subChIds, 0 ≤ subChId ∧ subChId < 64) :
    (∀ decode ∈ (processCif fib input subChIds s offset).decodes, Fits decode) ∧
      ∀ t data, (processCif fib input subChIds s offset).result = some (t, data) → CacheFits fib t := by
  induction subChIds generalizing s offset with
  | nil =>
    refine ⟨forall_mem_nil _,fun t data ok => ?_⟩
    cases ok
    exact fits
  | cons subChId subChIds ih =>
    unfold processCif
    cases head : s.decodeSubChannel fib input subChId with
    | none => exact ⟨forall_mem_nil _,fun t data ok => by cases ok⟩
    | some found =>
      obtain ⟨next,decode,bytes⟩ := found
      have decoded := decodeExact head
      have inside := ids subChId mem_cons_self
      obtain ⟨later,last⟩ := ih (offset + bytes.length) (decodedCache fits inside decoded)
        (fun other listed => ids other (mem_cons_of_mem _ listed))
      refine ⟨forall_mem_cons.mpr ⟨builtFits (decodedBuilt fits inside decoded),later⟩,?_⟩
      intro t data ok
      obtain ⟨⟨u,more⟩,rest,same⟩ := Option.map_eq_some_iff.mp ok
      cases same
      exact last _ _ rest

theorem writeFrameFits (fits : CacheFits fib s) (indexed : Indexed s) : (∀ decode ∈ (s.writeFrame fib).decodes, Fits decode) ∧
      ∀ t frame, (s.writeFrame fib).result = some (t, frame) → CacheFits fib t := by
  constructor
  · unfold writeFrame
    cases initEti fib s.subChIdList s.cifCountHi s.cifCountLo s.minor with
    | none => exact forall_mem_nil _
    | some header =>
      have decodes := (processCifFits (fun i => s.temp.getD i 0) (header.length + 96) fits indexed.ids).1
      dsimp only
      split <;> exact decodes
  · intro t frame ok
    obtain ⟨header,last,data,written⟩ := writeFrameExact ok
    have kept := (processCifFits (fun i => s.temp.getD i 0) (header.length + 96) fits indexed.ids).2 last data written.cif
    rw [written.state]
    exact ⟨kept.protTable,kept.descrambler,kept.built⟩

theorem finishCifFits (fits : CacheFits fib s) (indexed : Indexed s) : (∀ decode ∈ (s.finishCif fib).decodes, Fits decode) ∧
      ∀ t frame, (s.finishCif fib).result = some (t, frame) → CacheFits fib t := by
  have finished := finishCifCases s fib
  generalize s.finishCif fib = outcome at finished ⊢
  cases finished with
  | fills | uncounted =>
    refine ⟨forall_mem_nil _,fun t frame ok => ?_⟩
    cases ok
    exact ⟨fits.protTable,fits.descrambler,fits.built⟩
  | idle =>
    refine ⟨forall_mem_nil _,fun t frame ok => ?_⟩
    cases ok
    exact fits
  | writes => exact writeFrameFits fits indexed

theorem takeFits (fits : CacheFits fib s) (fic : FicData) (bits : Nat → Int)
    (ofdmSymbIdx : Nat) : CacheFits fib (s.takeSymbol fib fic bits ofdmSymbIdx) := by
  unfold takeSymbol
  obtain ⟨cifIn,same⟩ := storeExact (if ofdmSymbIdx = 4 then s.importFibs fib fic else s) bits ((ofdmSymbIdx - 4) % 18)
  rw [same]
  split <;> exact ⟨fits.protTable,fits.descrambler,fits.built⟩

theorem interleavedFits (fits : CacheFits fib s) : CacheFits fib s.interleaved := by
  obtain ⟨temp,cifVector,same⟩ := interleavedExact s
  rw [same]
  exact ⟨fits.protTable,fits.descrambler,fits.built⟩

theorem blockFits (fits : CacheFits fib s) (indexed : Indexed s) (sound : EtiSafety.Sound fib)
    (fic : FicData) (bits : Nat → Int) (ofdmSymbIdx : Nat) : (∀ decode ∈ (s.processBlock fib fic bits ofdmSymbIdx).decodes, Fits decode) ∧
      ∀ t frame, (s.processBlock fib fic bits ofdmSymbIdx).result = some (t, frame) → CacheFits fib t := by
  have processed := processBlockCases s fib fic bits ofdmSymbIdx
  have taken := takeFits fits fic bits ofdmSymbIdx
  have ready := interleavedIndexed (takeIndexed indexed sound fic bits ofdmSymbIdx)
  generalize s.processBlock fib fic bits ofdmSymbIdx = outcome at processed ⊢
  cases processed with
  | stopped =>
    refine ⟨forall_mem_nil _,fun t frame ok => ?_⟩
    cases ok
    exact fits
  | early =>
    refine ⟨forall_mem_nil _,fun t frame ok => ?_⟩
    cases ok
    unfold wake
    split
    · exact ⟨fits.protTable,fits.descrambler,fits.built⟩
    · exact fits
  | stores =>
    refine ⟨forall_mem_nil _,fun t frame ok => ?_⟩
    cases ok
    exact taken
  | completes =>
    simp only [completeCifResult,completeCifDecodes]
    exact finishCifFits (interleavedFits taken) ready

def parameters (data : ChannelData) : Bool × Int × Int := (data.uepFlag, data.bitrate, data.protlev)

def Steady (toQString : Nat → List Nat → List Nat) (s : EtiSystem) : EtiSystem.Event → Prop
  | .fib event => ∀ subChId < 64, s.eti.protTable.getD subChId none ≠ none →
      parameters ((FibDecoder.step toQString s.fib event).getSubChannelInfo subChId) =
        parameters (s.fib.getSubChannelInfo subChId)
  | _ => True

def SteadyRun (toQString : Nat → List Nat → List Nat) : EtiSystem → List EtiSystem.Event → Prop
  | _, [] => True
  | s, event :: events => Steady toQString s event ∧ SteadyRun toQString (EtiSystem.step toQString s event) events

theorem builtParameters {data other : ChannelData} {prot : Protection} {desc : List Bool}
    (same : parameters other = parameters data) (built : BuiltFor data prot desc) : BuiltFor other prot desc := by
  obtain ⟨form,rest⟩ := Prod.mk.inj same
  obtain ⟨rate,level⟩ := Prod.mk.inj rest
  unfold BuiltFor at *
  rw [form,rate,level]
  exact built

theorem resetFits (fib : FibDecoder) (s : EtiGenerator) : CacheFits fib s.reset := by
  refine ⟨length_replicate,length_replicate,fun subChId small prot cached => ?_⟩
  have empty : s.reset.protTable.getD subChId none = none := getD_replicate _ small
  rw [empty] at cached
  cases cached

theorem stepFits {toQString : Nat → List Nat → List Nat} {s : EtiSystem} {event : EtiSystem.Event}
    (system : SystemSound s) (fits : CacheFits s.fib s.eti) (steady : Steady toQString s event) :
    CacheFits (EtiSystem.step toQString s event).fib (EtiSystem.step toQString s event).eti := by
  cases event with
  | fib event =>
    refine ⟨fits.protTable,fits.descrambler,fun subChId small prot cached => ?_⟩
    have object : s.eti.protTable.getD subChId none = some prot := cached
    have kept := steady subChId small (by rw [object]; exact Option.some_ne_none prot)
    exact builtParameters kept (fits.built subChId small prot object)
  | block fic bits ofdmSymbIdx =>
    unfold EtiSystem.step
    dsimp only
    split
    · exact fits
    · split
      · exact fits
      · rename_i t frame ok
        exact (blockFits fits system.indexed system.sound fic bits ofdmSymbIdx).2 t frame ok
  | startEtiGenerator opened =>
    have reset := resetFits s.fib s.eti
    exact ⟨reset.protTable,reset.descrambler,reset.built⟩
  | stopEtiGenerator => exact ⟨fits.protTable,fits.descrambler,fits.built⟩
  | reset => exact resetFits s.fib s.eti

theorem runFits {toQString : Nat → List Nat → List Nat} {events : List EtiSystem.Event} {s : EtiSystem}
    (system : SystemSound s) (fits : CacheFits s.fib s.eti) (steady : SteadyRun toQString s events) :
    CacheFits (EtiSystem.run toQString s events).fib (EtiSystem.run toQString s events).eti := by
  induction events generalizing s with
  | nil => exact fits
  | cons event events ih =>
    exact ih (stepSystemSound toQString system event) (stepFits system fits steady.1) steady.2

theorem cacheConsistency (toQString : Nat → List Nat → List Nat) (events : List EtiSystem.Event)
    (steady : SteadyRun toQString {} events) (event : EtiSystem.Event) :
    ∀ decode ∈ (EtiSystem.run toQString {} events).decodes event, Fits decode := by
  have system := runSystemSound toQString events
  have start : CacheFits ({} : EtiSystem).fib ({} : EtiSystem).eti := by
    have reset := resetFits {} {}
    exact ⟨reset.protTable,reset.descrambler,reset.built⟩
  have fits := runFits ⟨⟨consistentKept.empty,consistentKept.empty⟩,⟨describedKept.empty,describedKept.empty⟩,
    by decide,nodup_nil,by simp⟩ start steady
  generalize EtiSystem.run toQString {} events = s at system fits ⊢
  cases event with
  | block fic bits ofdmSymbIdx =>
    unfold EtiSystem.decodes
    dsimp only
    split
    · exact forall_mem_nil _
    · exact (blockFits fits system.indexed system.sound fic bits ofdmSymbIdx).1
  | fib => exact forall_mem_nil _
  | startEtiGenerator => exact forall_mem_nil _
  | stopEtiGenerator => exact forall_mem_nil _
  | reset => exact forall_mem_nil _

section Change

variable {fib : FibDecoder} {subChId : Int} {prot : Protection} {desc : List Bool}

theorem writeFrameSingle {s : EtiGenerator} (list : s.subChIdList = [subChId])
    (inUse : (fib.getSubChannelInfo subChId).inUse = true) (rated : 0 ≤ (fib.getSubChannelInfo subChId).bitrate)
    (objects : protectionFor s (fib.getSubChannelInfo subChId) subChId.toNat = some (prot, desc)) :
    (s.writeFrame fib).decodes = [⟨fib.getSubChannelInfo subChId,prot,desc⟩] ∧
    ∃ t frame used, (s.writeFrame fib).result = some (t, frame) ∧ t.subChIdList = [subChId] ∧
      t.protTable = s.protTable.set subChId.toNat (some used) ∧ t.descrambler = s.descrambler.set subChId.toNat (some desc) := by
  have built : ∃ header, initEti fib s.subChIdList s.cifCountHi s.cifCountLo s.minor = some header := by
    unfold initEti
    rw [list]
    simp [inUse]
  obtain ⟨header,ok⟩ := built
  have decode := decodeMakes (fun i => s.temp.getD i 0) inUse rated objects
  unfold writeFrame
  rw [list] at ok ⊢
  simp only [ok]
  unfold processCif
  simp only [decode]
  exact ⟨rfl,_,_,_,rfl,list,rfl,rfl⟩

variable (toQString : Nat → List Nat → List Nat)

theorem systemDecodes {s : EtiSystem} {p : Nat} (paced : EtiRun.Paced p s.eti)
    (going : s.ended = false) (writes : EtiRun.Writes p) (list : s.eti.subChIdList = [subChId])
    (inUse : (s.fib.getSubChannelInfo subChId).inUse = true) (rated : 0 ≤ (s.fib.getSubChannelInfo subChId).bitrate)
    (objects : protectionFor s.eti (s.fib.getSubChannelInfo subChId) subChId.toNat = some (prot, desc)) (fic : FicData) (bits : Nat → Int) :
    s.decodes (.block fic bits (p % 75 + 1)) = [⟨s.fib.getSubChannelInfo subChId,prot,desc⟩] ∧
    ∃ t used, EtiSystem.step toQString s (.block fic bits (p % 75 + 1)) = { s with eti := t } ∧
      EtiRun.Paced (p + 1) t ∧ t.subChIdList = [subChId] ∧
      t.protTable = s.eti.protTable.set subChId.toNat (some used) ∧
      t.descrambler = s.eti.descrambler.set subChId.toNat (some desc) := by
  have four : p % 75 ≠ 3 := by
    have last := writes.2.1
    unfold EtiRun.fill at last
    omega
  have quiet := EtiRun.interleavedQuiet (EtiRun.takeQuiet p s.eti ⟨s.fib,fic,bits⟩)
  obtain ⟨result,decodes⟩ := EtiRun.blockWrites paced writes ⟨s.fib,fic,bits⟩
  generalize (s.eti.takeSymbol s.fib fic bits (p % 75 + 1)).interleaved = u at quiet result decodes
  have same : protectionFor u (s.fib.getSubChannelInfo subChId) subChId.toNat = some (prot, desc) := by
    rw [← objects]
    unfold protectionFor
    rw [quiet.protTable,quiet.descrambler]
  obtain ⟨single,t,frame,used,ok,kept,protTable,descrambler⟩ :=
    writeFrameSingle (quiet.list.trans ((if_neg four).trans list)) inUse rated same
  have written := result.trans ok
  have next := @EtiRun.blockPaced _ _ _ ⟨s.fib,fic,bits⟩ _ paced written
  rw [quiet.protTable] at protTable
  rw [quiet.descrambler] at descrambler
  dsimp only at written decodes
  refine ⟨?_,t,used,?_,next,kept,protTable,descrambler⟩
  · unfold EtiSystem.decodes
    simp only [going,Bool.false_eq_true,if_false]
    exact decodes.trans single
  · unfold EtiSystem.step
    simp only [going,written,Bool.false_eq_true,if_false]

def rateFib : Bits := fibOf [0x05,0x01,0x04,0x00,0x88,0x06,0xFF]

def nextFib : Bits := fibOf [0x05,0x81,0x04,0x00,0x88,0x0C,0x05,0x00,0x10,0x00,0xC0,0x00,0x00,0xFF]

def switchFib : Bits := fibOf [0x05,0x00,0x10,0x00,0x00,0x00,0x00,0xFF]

def startEvents : List EtiSystem.Event := [.fib (.fib rateFib),.startEtiGenerator true]

def zeros (_ : Nat) : Int := 0

theorem startRun : EtiSystem.run plainText {} startEvents =
    { fib := FibDecoder.processFib plainText {} rateFib, eti := EtiGenerator.startEtiGenerator {} true } := rfl

def firstEvents : List EtiSystem.Event := startEvents ++ EtiRun.blocks silence zeros 0 320

@[irreducible]
def firstDue : EtiSystem := EtiSystem.run plainText {} firstEvents

theorem firstDueRun : EtiSystem.run plainText {} firstEvents = firstDue := by
  unfold firstDue
  rfl

theorem firstDueExact : EtiRun.Paced 320 firstDue.eti ∧ firstDue.ended = false ∧
    firstDue.fib = FibDecoder.processFib plainText {} rateFib ∧ firstDue.eti.protTable = replicate 64 none ∧
    firstDue.eti.descrambler = replicate 64 none ∧ firstDue.eti.subChIdList = [1] := by
  have list : (FibDecoder.processFib plainText {} rateFib).getSubChannelIdList = [1] := by decide
  have run := EtiRun.warmUpRun plainText (FibDecoder.processFib plainText {} rateFib) silence zeros (le_refl 320)
  unfold firstDue firstEvents
  rw [EtiSystem.runAppend,startRun]
  exact ⟨run.1.paced,run.1.going,run.1.fib,run.1.protTable,run.1.descrambler,(run.2 (by decide)).trans list⟩

theorem writesFirst : EtiRun.Writes 320 := by
  unfold EtiRun.Writes
  decide

theorem writesSecond : EtiRun.Writes 338 := by
  unfold EtiRun.Writes
  decide

theorem firstDecodes : ∃ prot, firstDue.decodes (.block silence zeros 21) = [⟨⟨true,1,0,2,6,8,false⟩,prot,disperseVector 192⟩] ∧
    ∃ t used, EtiSystem.step plainText firstDue (.block silence zeros 21) = { firstDue with eti := t } ∧
      EtiRun.Paced 321 t ∧ t.subChIdList = [1] ∧ t.protTable = (replicate 64 none).set 1 (some used) ∧
      t.descrambler = (replicate 64 none).set 1 (some (disperseVector 192)) := by
  obtain ⟨paced,going,fib,protTable,descrambler,list⟩ := firstDueExact
  have info : firstDue.fib.getSubChannelInfo 1 = ⟨true,1,0,2,6,8,false⟩ := by
    rw [fib]
    decide
  have handler : backendDeconvolver false 8 2 = some (ofBlocks 8 (eepBlocks 8 2)) := Protection.eepOfBlocks 8 2
  have objects : protectionFor firstDue.eti (firstDue.fib.getSubChannelInfo 1) (1 : Int).toNat =
      some (ofBlocks 8 (eepBlocks 8 2), disperseVector 192) := by
    unfold protectionFor
    rw [protTable,info,getD_replicate _ (by decide)]
    dsimp only
    rw [handler]
    rfl
  have decodes := systemDecodes plainText paced going writesFirst list (by rw [info]) (by rw [info]; decide) objects silence zeros
  rw [info,protTable,descrambler] at decodes
  exact ⟨_,decodes⟩

def staleEvents : List EtiSystem.Event := firstEvents ++
  [.block silence zeros 21,.fib (.fib nextFib),.fib (.fib switchFib)] ++ EtiRun.blocks silence zeros 321 17

theorem staleDecodes : ∃ prot, (EtiSystem.run plainText {} staleEvents).decodes (.block silence zeros 39) =
    [⟨⟨true,1,0,2,12,16,false⟩,prot,disperseVector 192⟩] := by
  obtain ⟨_,_,t,used,first,paced,list,protTable,descrambler⟩ := firstDecodes
  obtain ⟨_,going,fib,_⟩ := firstDueExact
  obtain ⟨next,same⟩ : ∃ next, next = FibDecoder.processFib plainText (FibDecoder.processFib plainText firstDue.fib nextFib) switchFib :=
    ⟨_,rfl⟩
  have ids : next.getSubChannelIdList = [1] := by
    rw [same,fib]
    decide
  have info : next.getSubChannelInfo 1 = ⟨true,1,0,2,12,16,false⟩ := by
    rw [same,fib]
    decide
  have reached : EtiSystem.run plainText {} staleEvents =
      EtiSystem.run plainText { firstDue with fib := next, eti := t } (EtiRun.blocks silence zeros 321 17) := by
    unfold staleEvents
    rw [EtiSystem.runAppend,EtiSystem.runAppend,firstDueRun,EtiSystem.runCons,first,same]
    rfl
  have quiet : ∀ k < 17, ¬EtiRun.Writes (321 + k) := by
    unfold EtiRun.Writes
    decide
  obtain ⟨silent,listed⟩ := EtiRun.silentRun plainText (s := { firstDue with fib := next, eti := t }) paced going silence
    zeros quiet
  rw [← reached] at silent listed
  generalize EtiSystem.run plainText {} staleEvents = staleDue at silent listed ⊢
  have objects : protectionFor staleDue.eti (staleDue.fib.getSubChannelInfo 1) (1 : Int).toNat = some (used, disperseVector 192) := by
    unfold protectionFor
    rw [silent.protTable,silent.descrambler,protTable,descrambler]
    rfl
  have current : staleDue.fib.getSubChannelInfo 1 = ⟨true,1,0,2,12,16,false⟩ := by rw [silent.fib,info]
  have decodes := systemDecodes plainText silent.paced silent.going writesSecond
    ((listed (fun _ => list.trans ids.symm) (by decide)).trans ids) (by rw [current]) (by rw [current]; decide) objects silence zeros
  rw [current] at decodes
  exact ⟨used,decodes.1⟩

theorem steadyWithoutFib {events : List EtiSystem.Event}
    (others : ∀ event ∈ events, ∀ fib, event ≠ .fib fib) (s : EtiSystem) : SteadyRun toQString s events := by
  induction events generalizing s with
  | nil => trivial
  | cons event events ih =>
    refine ⟨?_,ih (fun later listed => others later (mem_cons_of_mem _ listed)) _⟩
    cases event with
    | fib event => exact absurd rfl (others _ mem_cons_self event)
    | block | startEtiGenerator | stopEtiGenerator | reset => trivial

theorem firstSteady : SteadyRun plainText {} firstEvents := by
  refine ⟨?_,steadyWithoutFib plainText ?_ _⟩
  · intro subChId small cached
    exact absurd (getD_replicate _ small) cached
  · intro event listed fib
    rcases mem_cons.mp listed with rfl | later
    · exact fun impossible => by cases impossible
    · obtain ⟨k,_,rfl⟩ := mem_map.mp later
      exact fun impossible => by cases impossible

theorem firstFits : ∃ decode ∈ (EtiSystem.run plainText {} firstEvents).decodes (.block silence zeros 21), Fits decode := by
  obtain ⟨prot,decodes,_⟩ := firstDecodes
  have listed : (⟨⟨true,1,0,2,6,8,false⟩,prot,disperseVector 192⟩ : Decode) ∈
      (EtiSystem.run plainText {} firstEvents).decodes (.block silence zeros 21) := by
    rw [firstDueRun,decodes]
    exact mem_singleton_self _
  exact ⟨_,listed,cacheConsistency plainText firstEvents firstSteady (.block silence zeros 21) _ listed⟩

theorem staleMisfit : ∃ decode ∈ (EtiSystem.run plainText {} staleEvents).decodes (.block silence zeros 39), ¬Fits decode := by
  obtain ⟨prot,decodes⟩ := staleDecodes
  rw [decodes]
  refine ⟨_,mem_singleton_self _,fun fits => ?_⟩
  have reads : 24 * 16 ≤ (disperseVector 192).length := fits.reads
  rw [disperseVectorLength] at reads
  exact absurd reads (by decide)

end Change

end DabStar.EtiCache
