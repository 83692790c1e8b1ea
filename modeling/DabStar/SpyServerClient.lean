import DabStar.Mp4Processor
import DabStar.RingBuffer
import DabStar.Lib.Accesses
import Mathlib.Data.Rat.Defs
import Mathlib.Tactic.Linarith
import Mathlib.Tactic.FieldSimp

/-! The sample path of the SpyServer device (devices/spy_server/spyserver_client.cpp, with the
liquid resampler): slot_data_ready takes batches from the ring buffer and resamples them.
Samples are pairs of rationals; a ratio is 1 for the nominal rate only. -/
namespace DabStar
open List Lib.Accesses

abbrev Cf32 := ℚ × ℚ

def inputRate : Nat := 2048000

/- What is used of the resampler library, which is not part of the source: it has the ratio
it was created for and gives at most ten samples more than that ratio of its input. -/
structure Liquid where
  State : Type
  create : ℚ → State
  executeBlock : State → List Cf32 → State × List Cf32
  ratio : State → ℚ
  createRatio : ∀ r, 0 < r → ratio (create r) = r
  executeRatio : ∀ s block, ratio (executeBlock s block).1 = ratio s
  bounded : ∀ s block, ((executeBlock s block).2.length : ℚ) ≤ ratio s * block.length + 10

inductive DeviceType where
  | airspyOne
  | airspyHf
  | rtlSdr
  | invalid
  deriving DecidableEq, Repr

structure DeviceInfo where
  deviceType : DeviceType
  minimumFrequency : Nat
  maximumFrequency : Nat
  maximumSampleRate : Nat
  decimationStageCount : Nat
  deriving DecidableEq, Repr

structure SSetting where
  sampleRate : Nat := 0
  resampleRatio : ℚ := 0
  desiredDecimStage : Nat := 0
  batchSize : Int := 0
  deriving DecidableEq, Repr

structure Tuning where
  desiredDecimStage : Nat
  resampleRatio : ℚ
  sampleRate : Nat
  deriving DecidableEq, Repr

def targetRate (maxSampRate i : Nat) : Int := ((maxSampRate / 2 ^ i : Nat) : Int).bmod (2 ^ 32)

def desiredStage (maxSampRate : Nat) : Nat → Nat → Option Tuning → Option Tuning
  | 0, _, best => best
  | left + 1, i, best =>
    let rate := targetRate maxSampRate i
    if rate = inputRate then some ⟨i,1,rate.toNat⟩
    else if rate > inputRate then desiredStage maxSampRate left (i + 1) (some ⟨i,inputRate / rate,rate.toNat⟩)
    else best

namespace DeviceInfo
variable (d : DeviceInfo)

def ValidDevice : Prop := d.deviceType = .airspyOne ∨ d.deviceType = .rtlSdr
  deriving Decidable

def OutOfRange : Prop := d.minimumFrequency > 174928000 ∨ d.maximumFrequency < 239200000
  deriving Decidable

def tuning : Option Tuning :=
  if ¬ d.ValidDevice ∨ d.OutOfRange ∨ d.maximumSampleRate = 0 then none
  else desiredStage d.maximumSampleRate d.decimationStageCount 0 none

end DeviceInfo

inductive SpyMemory where
  | byteBuffer
  | convBuffer
  | resampBuffer
  | resampler
  deriving DecidableEq, Repr

abbrev SpyAccess := Access SpyMemory

structure SpyServerClient (lib : Liquid) where
  settings : SSetting
  handler : Option Bool
  isRunning : Bool
  isConnected : Bool
  ringBuffer1 : RingBuffer U8
  ringBuffer2 : RingBuffer Cf32
  byteBuffer : List U8
  resampBuffer : List Cf32
  convBuffer : List Cf32
  convIndex : Int
  convBufferSize : Int
  liquidResampler : Option lib.State

namespace SpyServerClient
variable {lib : Liquid}

def newSpyServerClient : SpyServerClient lib where
  settings := { batchSize := 4096 }
  handler := none
  isRunning := false
  isConnected := false
  ringBuffer1 := .newRingBuffer (32 * 32768)
  ringBuffer2 := .newRingBuffer (32 * 32768)
  byteBuffer := replicate (4096 * 2) 0#8
  resampBuffer := []
  convBuffer := []
  convIndex := 0
  convBufferSize := 0
  liquidResampler := none

def resize (buffer : List Cf32) (size : Nat) : List Cf32 := buffer.take size ++ replicate (size - buffer.length) default

section Code
variable (s : SpyServerClient lib)

def stopReader : SpyServerClient lib :=
  match s.handler with
  | some true => if s.isConnected ∧ s.isRunning then { s with handler := some false, isRunning := false } else s
  | _ => s

def restartReader : SpyServerClient lib := if s.isConnected then { s with handler := some true, isRunning := true } else s

/- The buffers are sized only when the rate differs from the nominal one. -/
def setupConnection (t : Tuning) : SpyServerClient lib :=
  let settings := { s.settings with sampleRate := t.sampleRate, resampleRatio := t.resampleRatio, desiredDecimStage := t.desiredDecimStage }
  if t.resampleRatio ≠ 1 then
    let convBufferSize := toI16 (t.sampleRate / 1000 : Nat)
    { s with
      settings
      handler := some false
      liquidResampler := some (lib.create t.resampleRatio)
      resampBuffer := resize s.resampBuffer (2048 + 10)
      convBufferSize
      convBuffer := resize s.convBuffer (max (convBufferSize + 1) s.settings.batchSize).toNat }
  else { s with settings, handler := some false }

def slotHandleConnectButton (reply : Option DeviceInfo) : SpyServerClient lib :=
  if s.isConnected then { s.stopReader with isConnected := false, handler := none, settings := {} }
  else
    match reply with
    | none => { s with handler := none }
    | some d =>
      match d.tuning with
      | some t => { s.setupConnection t with isConnected := true }
      | none => { s with handler := if ¬ d.ValidDevice ∨ d.OutOfRange then some false else none }

def processData (theBody : List U8) : SpyServerClient lib := { s with ringBuffer1 := (s.ringBuffer1.putDataIntoRingBuffer theBody).1 }

def getSamples (size : Int) : SpyServerClient lib := { s with ringBuffer2 := (s.ringBuffer2.getDataFromRingBuffer size).1 }

def convTable (b : U8) : ℚ := ((b.toNat : ℚ) - 128) / 128

def sample (i : Nat) : Cf32 := (convTable (s.byteBuffer.getD (2 * i) 0#8), convTable (s.byteBuffer.getD (2 * i + 1) 0#8))

def resampleBlock : SpyServerClient lib × List SpyAccess :=
  let count := (s.convBufferSize % 2 ^ 32).toNat
  match s.liquidResampler with
  | none => ({ s with convIndex := 1 }, [.touch .resampler 0 0])
  | some r =>
    let result := lib.executeBlock r (s.convBuffer.take count)
    ({ s with
        liquidResampler := some result.1
        resampBuffer := Lib.Ring.copy s.resampBuffer 0 result.2
        ringBuffer2 := (s.ringBuffer2.putDataIntoRingBuffer result.2).1
        convBuffer := s.convBuffer.set 0 (s.convBuffer.getD s.convBufferSize.toNat default)
        convIndex := 1 },
      stretch .convBuffer s.convBuffer.length 0 count ++ stretch .resampBuffer s.resampBuffer.length 0 result.2.length ++
        [.touch .convBuffer s.convBufferSize s.convBuffer.length,.touch .convBuffer 0 s.convBuffer.length])

def storeSample (i : Nat) : SpyServerClient lib × List SpyAccess :=
  let stored := { s with convBuffer := s.convBuffer.set s.convIndex.toNat (s.sample i), convIndex := toI16 (s.convIndex + 1) }
  let accesses : List SpyAccess := [.touch .byteBuffer (2 * i : Nat) s.byteBuffer.length,.touch .byteBuffer (2 * i + 1 : Nat) s.byteBuffer.length,
    .touch .convBuffer s.convIndex s.convBuffer.length]
  if stored.convIndex > stored.convBufferSize then (stored.resampleBlock.1, accesses ++ stored.resampleBlock.2) else (stored, accesses)

def storeSamples (s : SpyServerClient lib) : List Nat → SpyServerClient lib × List SpyAccess
  | [] => (s, [])
  | i :: rest => (((s.storeSample i).1.storeSamples rest).1, (s.storeSample i).2 ++ ((s.storeSample i).1.storeSamples rest).2)

def passSamples (numSamples : Nat) : SpyServerClient lib × List SpyAccess :=
  let converted := (range numSamples).map s.sample
  ({ s with
      convBuffer := Lib.Ring.copy s.convBuffer 0 converted
      ringBuffer2 := (s.ringBuffer2.putDataIntoRingBuffer converted).1 },
    stretch .byteBuffer s.byteBuffer.length 0 (2 * numSamples) ++ stretch .convBuffer s.convBuffer.length 0 numSamples)

def takeBatch : SpyServerClient lib × List SpyAccess :=
  let (ringBuffer1, data, numRead) := s.ringBuffer1.getDataFromRingBuffer (2 * s.settings.batchSize)
  let taken := { s with ringBuffer1, byteBuffer := Lib.Ring.copy s.byteBuffer 0 data }
  let accesses := stretch SpyMemory.byteBuffer s.byteBuffer.length 0 numRead
  if ¬ s.isRunning then (taken, accesses)
  else if s.settings.resampleRatio ≠ 1 then
    ((taken.storeSamples (range (numRead / 2))).1, accesses ++ (taken.storeSamples (range (numRead / 2))).2)
  else ((taken.passSamples (numRead / 2)).1, accesses ++ (taken.passSamples (numRead / 2)).2)

def slotDataReady : Nat → SpyServerClient lib → Option (SpyServerClient lib × List SpyAccess)
  | 0, _ => none
  | fuel + 1, s =>
    if s.isConnected ∧ (s.ringBuffer1.getRingBufferReadAvailable : Int) > 2 * s.settings.batchSize then
      (slotDataReady fuel s.takeBatch.1).map fun (after, accesses) => (after, s.takeBatch.2 ++ accesses)
    else some (s, [])

end Code

inductive ClientEvent where
  | connectButton (reply : Option DeviceInfo)
  | restartReader
  | stopReader
  | processData (theBody : List U8)
  | getSamples (size : Int)
  | dataReady
  deriving DecidableEq, Repr

inductive Step (s : SpyServerClient lib) : ClientEvent → SpyServerClient lib → Prop where
  | connectButton (reply : Option DeviceInfo) : Step s (.connectButton reply) (s.slotHandleConnectButton reply)
  | restartReader : Step s .restartReader s.restartReader
  | stopReader : Step s .stopReader s.stopReader
  | processData (theBody : List U8) : Step s (.processData theBody) (s.processData theBody)
  | getSamples (size : Int) : Step s (.getSamples size) (s.getSamples size)
  | dataReady {fuel : Nat} {after : SpyServerClient lib} {accesses : List SpyAccess}
      (returns : slotDataReady fuel s = some (after, accesses)) : Step s .dataReady after

/- A device that is accepted is not the second one, has not the nominal rate, and its samples of a millisecond are counted by an i16. -/
def Suitable (s : SpyServerClient lib) : ClientEvent → Prop
  | .connectButton (some d) => s.isConnected = false → ∀ t, d.tuning = some t →
      s.settings.batchSize ≠ 0 ∧ t.sampleRate ≠ inputRate ∧ 0 ≤ toI16 (t.sampleRate / 1000 : Nat) ∧ toI16 (t.sampleRate / 1000 : Nat) < 32767
  | _ => True

inductive Reached : SpyServerClient lib → Prop where
  | start : Reached newSpyServerClient
  | next {s after : SpyServerClient lib} {e : ClientEvent} (before : Reached s) (suitable : s.Suitable e) (step : Step s e after) :
      Reached after

def Sound (s : SpyServerClient lib) : Prop :=
  ∃ fuel after accesses, slotDataReady fuel s = some (after, accesses) ∧ Inside accesses ∧
    ∃ batches : Nat, after.ringBuffer1.contents = s.ringBuffer1.contents.drop (batches * (2 * s.settings.batchSize).toNat)

structure Tuned (t : Tuning) : Prop where
  rate : inputRate ≤ t.sampleRate
  ratio : t.resampleRatio = inputRate / t.sampleRate

theorem desiredStageTuned {maxSampRate left i : Nat} {best : Option Tuning} {t : Tuning} (before : ∀ t, best = some t → Tuned t)
    (chosen : desiredStage maxSampRate left i best = some t) : Tuned t := by
  induction left generalizing i best with
  | zero => exact before t chosen
  | succ left ih =>
    unfold desiredStage at chosen
    dsimp only at chosen
    split at chosen
    · rename_i nominal
      obtain rfl := Option.some.inj chosen
      rw [nominal]
      exact ⟨Nat.le_refl _,by rw [Int.toNat_natCast]; norm_num [inputRate]⟩
    · split at chosen
      · rename_i above
        refine ih (fun t next => ?_) chosen
        obtain rfl := Option.some.inj next
        obtain ⟨rate,same⟩ : ∃ rate : Nat, targetRate maxSampRate i = rate := Int.eq_ofNat_of_zero_le (by omega)
        rw [same] at above ⊢
        exact ⟨by simpa using Int.le_of_lt above,by simp⟩
      · exact before t chosen

theorem tuningTuned {d : DeviceInfo} {t : Tuning} (accepted : d.tuning = some t) : Tuned t := by
  unfold DeviceInfo.tuning at accepted
  split at accepted
  · exact nomatch accepted
  · exact desiredStageTuned (fun t none => absurd none.symm (Option.some_ne_none t)) accepted

theorem Tuned.positive {t : Tuning} (tuned : Tuned t) : 0 < (t.sampleRate : ℚ) := by
  have rate := tuned.rate
  unfold inputRate at rate
  exact_mod_cast (by omega : 0 < t.sampleRate)

theorem Tuned.notOne {t : Tuning} (tuned : Tuned t) (other : t.sampleRate ≠ inputRate) : t.resampleRatio ≠ 1 := by
  rw [tuned.ratio]
  intro one
  have same : (inputRate : ℚ) = t.sampleRate := (div_eq_one_iff_eq tuned.positive.ne').mp one
  exact other (by exact_mod_cast same.symm)

theorem Tuned.millisecond {t : Tuning} (tuned : Tuned t) (low : 0 ≤ toI16 (t.sampleRate / 1000 : Nat)) :
    t.resampleRatio * (toI16 (t.sampleRate / 1000 : Nat) : ℚ) ≤ 2048 := by
  have few : toI16 (t.sampleRate / 1000 : Nat) * 1000 ≤ t.sampleRate := by
    unfold toI16 at low ⊢
    rw [Int.bmod_def] at low ⊢
    split at low <;> omega
  have bound : (toI16 (t.sampleRate / 1000 : Nat) : ℚ) * 1000 ≤ t.sampleRate := by exact_mod_cast few
  rw [tuned.ratio,div_mul_eq_mul_div,div_le_iff₀ tuned.positive]
  generalize (toI16 (t.sampleRate / 1000 : Nat) : ℚ) = c at bound
  norm_num [inputRate]
  linarith

structure Filled (s : SpyServerClient lib) : Prop where
  bytes : s.byteBuffer.length = 8192
  one : ∃ q, s.ringBuffer1.Holds q
  two : ∃ q, s.ringBuffer2.Holds q

structure Prepared (s : SpyServerClient lib) : Prop where
  batch : s.settings.batchSize = 4096
  ratio : s.settings.resampleRatio ≠ 1
  low : 0 ≤ s.convBufferSize
  high : s.convBufferSize < 32767
  conv : (s.convBuffer.length : Int) = max (s.convBufferSize + 1) 4096
  resamp : s.resampBuffer.length = 2058
  liquid : ∃ r, s.liquidResampler = some r ∧ lib.ratio r * s.convBufferSize ≤ 2048

theorem Prepared.room {s : SpyServerClient lib} (prepared : s.Prepared) :
    s.convBufferSize + 1 ≤ s.convBuffer.length ∧ 4096 ≤ s.convBuffer.length := by
  have conv := prepared.conv
  exact ⟨conv ▸ Int.le_max_left ..,by exact_mod_cast conv ▸ Int.le_max_right (s.convBufferSize + 1) 4096⟩

structure Indexed (s : SpyServerClient lib) : Prop where
  first : 0 ≤ s.convIndex
  last : s.convIndex ≤ 1 ∨ s.convIndex ≤ s.convBufferSize

variable {s after : SpyServerClient lib}

theorem Filled.carry (filled : s.Filled) (bytes : after.byteBuffer.length = s.byteBuffer.length) (one : after.ringBuffer1 = s.ringBuffer1)
    (two : after.ringBuffer2 = s.ringBuffer2) : after.Filled := ⟨bytes.trans filled.bytes,one ▸ filled.one,two ▸ filled.two⟩

theorem Prepared.carry (prepared : s.Prepared) (settings : after.settings = s.settings) (size : after.convBufferSize = s.convBufferSize)
    (conv : after.convBuffer.length = s.convBuffer.length) (resamp : after.resampBuffer.length = s.resampBuffer.length)
    (liquid : after.liquidResampler = s.liquidResampler) : after.Prepared := by
  refine ⟨?_,?_,?_,?_,?_,resamp.trans prepared.resamp,?_⟩
  · rw [settings,prepared.batch]
  · rw [settings]
    exact prepared.ratio
  · rw [size]
    exact prepared.low
  · rw [size]
    exact prepared.high
  · rw [conv,size,prepared.conv]
  · rw [liquid,size]
    exact prepared.liquid

theorem Indexed.carry (indexed : s.Indexed) (index : after.convIndex = s.convIndex) (size : after.convBufferSize = s.convBufferSize) :
    after.Indexed := by
  refine ⟨?_,?_⟩
  · rw [index]
    exact indexed.first
  · rw [index,size]
    exact indexed.last

theorem resizeLength (buffer : List Cf32) (size : Nat) : (resize buffer size).length = size := by
  simp [resize]
  omega

structure Goes (s after : SpyServerClient lib) : Prop where
  filled : after.Filled
  prepared : after.Prepared
  indexed : after.Indexed
  ring : after.ringBuffer1 = s.ringBuffer1
  settings : after.settings = s.settings
  connected : after.isConnected = s.isConnected

theorem Goes.trans {mid : SpyServerClient lib} (front : Goes s mid) (back : Goes mid after) : Goes s after :=
  ⟨back.filled,back.prepared,back.indexed,back.ring.trans front.ring,back.settings.trans front.settings,
    back.connected.trans front.connected⟩

theorem resampleGoes (filled : s.Filled) (prepared : s.Prepared) : Goes s s.resampleBlock.1 ∧ Inside s.resampleBlock.2 := by
  have low := prepared.low
  have high := prepared.high
  have conv := prepared.conv
  have room := prepared.room
  obtain ⟨r,given,bound⟩ := prepared.liquid
  have count : (s.convBufferSize % 2 ^ 32).toNat = s.convBufferSize.toNat := by omega
  have block : (s.convBuffer.take s.convBufferSize.toNat).length = s.convBufferSize.toNat := length_take_of_le (by omega)
  unfold resampleBlock
  rw [given,count]
  dsimp only
  have most := lib.bounded r (s.convBuffer.take s.convBufferSize.toNat)
  have kept := lib.executeRatio r (s.convBuffer.take s.convBufferSize.toNat)
  generalize lib.executeBlock r (s.convBuffer.take s.convBufferSize.toNat) = result at most kept
  have few : result.2.length ≤ 2058 := by
    have size : ((s.convBufferSize.toNat : Nat) : ℚ) = (s.convBufferSize : ℚ) := by exact_mod_cast Int.toNat_of_nonneg low
    rw [block,size] at most
    have total : (result.2.length : ℚ) ≤ 2058 := by linarith
    exact_mod_cast total
  obtain ⟨q,holds⟩ := filled.two
  refine ⟨⟨⟨filled.bytes,filled.one,⟨_,(holds.put result.2).2⟩⟩,
    ⟨prepared.batch,prepared.ratio,low,high,?_,?_,⟨result.1,rfl,by rw [kept]; exact bound⟩⟩,
    ⟨Int.one_nonneg,.inl (Int.le_refl _)⟩,rfl,rfl,rfl⟩,?_⟩
  · dsimp only
    rw [length_set,conv]
  · dsimp only
    rw [Lib.Ring.copyLength (by rw [prepared.resamp]; omega),prepared.resamp]
  · simp only [insideAppend,insideCons,insideNil,and_true,stretchInside,touchInside,prepared.resamp]
    omega

theorem storeGoes {i : Nat} (filled : s.Filled) (prepared : s.Prepared) (indexed : s.Indexed) (within : i < 4096) :
    Goes s (s.storeSample i).1 ∧ Inside (s.storeSample i).2 := by
  have low := prepared.low
  have high := prepared.high
  have conv := prepared.conv
  have room := prepared.room
  have first := indexed.first
  have last := indexed.last
  have bytes := filled.bytes
  have index : toI16 (s.convIndex + 1) = s.convIndex + 1 := by
    unfold toI16
    rw [Int.bmod_eq_of_le] <;> omega
  have reads : Inside ([.touch .byteBuffer (2 * i : Nat) s.byteBuffer.length,.touch .byteBuffer (2 * i + 1 : Nat) s.byteBuffer.length,
      .touch .convBuffer s.convIndex s.convBuffer.length] : List SpyAccess) := by
    simp only [insideCons,insideNil,and_true,touchInside]
    omega
  unfold storeSample
  dsimp only
  rw [index]
  have stored : Prepared { s with convBuffer := s.convBuffer.set s.convIndex.toNat (s.sample i), convIndex := s.convIndex + 1 } :=
    ⟨prepared.batch,prepared.ratio,low,high,by rw [length_set,conv],prepared.resamp,prepared.liquid⟩
  split
  · obtain ⟨goes,more⟩ := resampleGoes (by exact ⟨bytes,filled.one,filled.two⟩) stored
    exact ⟨⟨goes.filled,goes.prepared,goes.indexed,goes.ring,goes.settings,goes.connected⟩,insideAppend.mpr ⟨reads,more⟩⟩
  · exact ⟨⟨⟨bytes,filled.one,filled.two⟩,stored,⟨by dsimp only; omega,by dsimp only; omega⟩,rfl,rfl,rfl⟩,reads⟩

theorem storeAllGoes {places : List Nat} (filled : s.Filled) (prepared : s.Prepared) (indexed : s.Indexed) (within : ∀ i ∈ places, i < 4096) :
    Goes s (s.storeSamples places).1 ∧ Inside (s.storeSamples places).2 := by
  induction places generalizing s with
  | nil => exact ⟨⟨filled,prepared,indexed,rfl,rfl,rfl⟩,insideNil.mpr trivial⟩
  | cons i places ih =>
    obtain ⟨goes,reads⟩ := storeGoes filled prepared indexed (within i (.head _))
    obtain ⟨later,more⟩ := ih goes.filled goes.prepared goes.indexed fun j member => within j (.tail _ member)
    exact ⟨goes.trans later,insideAppend.mpr ⟨reads,more⟩⟩

theorem batchGoes {q : List U8} (filled : s.Filled) (prepared : s.Prepared) (indexed : s.Indexed) (holds : s.ringBuffer1.Holds q)
    (many : 8192 < q.length) : s.takeBatch.1.Filled ∧ s.takeBatch.1.Prepared ∧ s.takeBatch.1.Indexed ∧
      s.takeBatch.1.ringBuffer1.Holds (q.drop 8192) ∧ s.takeBatch.1.isConnected = s.isConnected ∧ Inside s.takeBatch.2 := by
  have bytes := filled.bytes
  have counted : (2 * s.settings.batchSize % 2 ^ 32).toNat = 8192 := by
    rw [prepared.batch]
    decide
  obtain ⟨result,next⟩ := holds.get (2 * s.settings.batchSize)
  rw [counted] at result next
  unfold takeBatch
  generalize s.ringBuffer1.getDataFromRingBuffer (2 * s.settings.batchSize) = got at result next
  obtain ⟨ringBuffer1,data,numRead⟩ := got
  obtain ⟨rfl,whole⟩ := Prod.mk.inj result
  have count : numRead = 8192 := by omega
  have written : (Lib.Ring.copy s.byteBuffer 0 (q.take 8192)).length = s.byteBuffer.length :=
    Lib.Ring.copyLength (by rw [length_take]; omega)
  have reads : Inside (stretch SpyMemory.byteBuffer s.byteBuffer.length 0 numRead) := by
    rw [stretchInside]
    omega
  dsimp only
  generalize same : { s with ringBuffer1, byteBuffer := Lib.Ring.copy s.byteBuffer 0 (q.take 8192) } = taken
  have filled' : taken.Filled := by
    rw [← same]
    exact ⟨written.trans bytes,⟨_,next⟩,filled.two⟩
  have prepared' : taken.Prepared := by
    rw [← same]
    exact prepared.carry rfl rfl rfl rfl rfl
  have indexed' : taken.Indexed := by
    rw [← same]
    exact indexed.carry rfl rfl
  have connected : taken.isConnected = s.isConnected := by rw [← same]
  have next' : taken.ringBuffer1.Holds (q.drop 8192) := by
    rw [← same]
    exact next
  by_cases running : s.isRunning = true
  · rw [if_neg (not_not_intro running),if_pos prepared.ratio]
    obtain ⟨goes,inside⟩ := @storeAllGoes lib taken (range (numRead / 2)) filled' prepared' indexed' fun i member => by
      have within := mem_range.mp member
      omega
    exact ⟨goes.filled,goes.prepared,goes.indexed,goes.ring ▸ next',goes.connected.trans connected,insideAppend.mpr ⟨reads,inside⟩⟩
  · rw [if_pos running]
    exact ⟨filled',prepared',indexed',next',connected,reads⟩

theorem slotIdle {fuel : Nat} (idle : ¬ (s.isConnected ∧ (s.ringBuffer1.getRingBufferReadAvailable : Int) > 2 * s.settings.batchSize)) :
    slotDataReady (fuel + 1) s = some (s, []) := if_neg idle

theorem slotGoes {q : List U8} (filled : s.Filled) (prepared : s.Prepared) (indexed : s.Indexed) (holds : s.ringBuffer1.Holds q)
    (connected : s.isConnected = true) : ∃ fuel after accesses, slotDataReady fuel s = some (after, accesses) ∧ Inside accesses ∧
      (after.Filled ∧ after.Prepared ∧ after.Indexed ∧ after.isConnected = true) ∧
      ∃ batches : Nat, after.ringBuffer1.Holds (q.drop (batches * 8192)) := by
  induction size : q.length using Nat.strong_induction_on generalizing s q with
  | _ size ih =>
    have available := holds.readAvailable
    have batch := prepared.batch
    by_cases many : 8192 < q.length
    · obtain ⟨filled',prepared',indexed',holds',connected',reads⟩ := batchGoes filled prepared indexed holds many
      obtain ⟨fuel,after,accesses,returns,inside,ready,batches,rest⟩ :=
        ih (q.drop 8192).length (by rw [length_drop]; omega) filled' prepared' indexed' holds' (connected'.trans connected) rfl
      refine ⟨fuel + 1,after,s.takeBatch.2 ++ accesses,?_,insideAppend.mpr ⟨reads,inside⟩,ready,batches + 1,?_⟩
      · unfold slotDataReady
        rw [if_pos ⟨connected,by omega⟩,returns]
        rfl
      · rwa [drop_drop,show 8192 + batches * 8192 = (batches + 1) * 8192 by omega] at rest
    · exact ⟨1,s,[],slotIdle (by omega),insideNil.mpr trivial,⟨filled,prepared,indexed,connected⟩,0,by simpa using holds⟩

theorem slotUnique {fuel fuel' : Nat} {one other : SpyServerClient lib × List SpyAccess} (left : slotDataReady fuel s = some one)
    (right : slotDataReady fuel' s = some other) : one = other := by
  induction fuel generalizing fuel' s one other with
  | zero => exact nomatch left
  | succ fuel ih =>
    cases fuel' with
    | zero => exact nomatch right
    | succ fuel' =>
      unfold slotDataReady at left right
      split at left
      · rename_i goes
        rw [if_pos goes] at right
        obtain ⟨first,returned,rfl⟩ := Option.map_eq_some_iff.mp left
        obtain ⟨second,returned',rfl⟩ := Option.map_eq_some_iff.mp right
        rw [ih returned returned']
      · rename_i idle
        rw [if_neg idle] at right
        exact Option.some.inj (left.symm.trans right)

/- What every step keeps when the devices are suitable. Before the first connection the
samples start at the front of the buffer, after a disconnection there is no other. -/
structure Kept (s : SpyServerClient lib) : Prop where
  filled : s.Filled
  connected : s.isConnected = true → s.Prepared ∧ s.Indexed
  fresh : s.isConnected = false → s.settings.batchSize ≠ 0 → s.settings.batchSize = 4096 ∧ s.convIndex = 0

theorem Kept.carry (kept : s.Kept) (filled : after.Filled) (settings : after.settings = s.settings)
    (connected : after.isConnected = s.isConnected) (size : after.convBufferSize = s.convBufferSize) (index : after.convIndex = s.convIndex)
    (conv : after.convBuffer = s.convBuffer) (resamp : after.resampBuffer = s.resampBuffer) (liquid : after.liquidResampler = s.liquidResampler) :
    after.Kept where
  filled := filled
  connected := fun yes =>
    have before := kept.connected (connected ▸ yes)
    ⟨before.1.carry settings size (by rw [conv]) (by rw [resamp]) liquid,before.2.carry index size⟩
  fresh := fun no => by
    rw [settings,index]
    exact kept.fresh (connected ▸ no)

theorem stopKept (kept : s.Kept) : s.stopReader.Kept := by
  unfold stopReader
  split
  · split
    · exact kept.carry (kept.filled.carry rfl rfl rfl) rfl rfl rfl rfl rfl rfl rfl
    · exact kept
  · exact kept

theorem restartKept (kept : s.Kept) : s.restartReader.Kept := by
  unfold restartReader
  split
  · exact kept.carry (kept.filled.carry rfl rfl rfl) rfl rfl rfl rfl rfl rfl rfl
  · exact kept

theorem setupKept {d : DeviceInfo} {t : Tuning} (kept : s.Kept) (free : s.isConnected = false) (accepted : d.tuning = some t)
    (suitable : s.Suitable (.connectButton (some d))) : Kept { s.setupConnection t with isConnected := true } := by
  obtain ⟨again,other,low,high⟩ := suitable free t accepted
  obtain ⟨batch,index⟩ := kept.fresh free again
  have tuned := tuningTuned accepted
  have ratio := tuned.notOne other
  have few := tuned.millisecond low
  have above : 0 < t.resampleRatio := by
    rw [tuned.ratio]
    exact div_pos (by norm_num [inputRate]) tuned.positive
  unfold setupConnection
  rw [if_pos ratio]
  dsimp only
  generalize toI16 (t.sampleRate / 1000 : Nat) = size at low high few
  refine ⟨kept.filled.carry rfl rfl rfl,fun _ => ⟨⟨batch,ratio,low,high,?_,?_,⟨_,rfl,?_⟩⟩,⟨?_,?_⟩⟩,fun no => nomatch no⟩
  · dsimp only
    rw [resizeLength,batch]
    omega
  · dsimp only
    rw [resizeLength]
  · dsimp only
    rw [lib.createRatio _ above]
    exact few
  · dsimp only
    omega
  · dsimp only
    omega

theorem buttonKept {reply : Option DeviceInfo} (kept : s.Kept) (suitable : s.Suitable (.connectButton reply)) :
    (s.slotHandleConnectButton reply).Kept := by
  unfold slotHandleConnectButton
  split
  · exact ⟨(stopKept kept).filled.carry rfl rfl rfl,(fun yes => nomatch yes),fun _ again => absurd rfl again⟩
  · rename_i free
    have free : s.isConnected = false := by simpa using free
    cases reply with
    | none => exact kept.carry (kept.filled.carry rfl rfl rfl) rfl rfl rfl rfl rfl rfl rfl
    | some d =>
      dsimp only
      cases accepted : d.tuning with
      | none => exact kept.carry (kept.filled.carry rfl rfl rfl) rfl rfl rfl rfl rfl rfl rfl
      | some t => exact setupKept kept free accepted suitable

theorem slotKept (kept : s.Kept) : s.Sound ∧ ∀ fuel after accesses, slotDataReady fuel s = some (after, accesses) → after.Kept := by
  by_cases connected : s.isConnected = true
  · obtain ⟨prepared,indexed⟩ := kept.connected connected
    obtain ⟨q,holds⟩ := kept.filled.one
    obtain ⟨fuel,after,accesses,returns,inside,⟨filled',prepared',indexed',connected'⟩,batches,rest⟩ :=
      slotGoes kept.filled prepared indexed holds connected
    refine ⟨⟨fuel,after,accesses,returns,inside,batches,?_⟩,fun fuel' after' accesses' returns' => ?_⟩
    · rw [rest.contentsHeld,holds.contentsHeld,prepared.batch]
      rfl
    · obtain ⟨rfl,-⟩ := Prod.mk.inj (slotUnique returns returns')
      exact ⟨filled',fun _ => ⟨prepared',indexed'⟩,fun no => absurd (connected'.symm.trans no) (by decide)⟩
  · have idle : slotDataReady 1 s = some (s, []) := slotIdle fun goes => connected goes.1
    refine ⟨⟨1,s,[],idle,insideNil.mpr trivial,0,by simp⟩,fun fuel after accesses returns => ?_⟩
    obtain ⟨rfl,-⟩ := Prod.mk.inj (slotUnique idle returns)
    exact kept

theorem stepKept {e : ClientEvent} (kept : s.Kept) (suitable : s.Suitable e) (step : Step s e after) : after.Kept := by
  cases step with
  | connectButton reply => exact buttonKept kept suitable
  | restartReader => exact restartKept kept
  | stopReader => exact stopKept kept
  | processData theBody =>
    obtain ⟨q,holds⟩ := kept.filled.one
    exact kept.carry ⟨kept.filled.bytes,⟨_,(holds.put theBody).2⟩,kept.filled.two⟩ rfl rfl rfl rfl rfl rfl rfl
  | getSamples size =>
    obtain ⟨q,holds⟩ := kept.filled.two
    exact kept.carry ⟨kept.filled.bytes,kept.filled.one,⟨_,(holds.get size).2⟩⟩ rfl rfl rfl rfl rfl rfl rfl
  | dataReady returns => exact (slotKept kept).2 _ _ _ returns

def silent : Liquid where
  State := ℚ
  create := id
  executeBlock := fun r _ => (r, [])
  ratio := fun r => |r|
  createRatio := fun _ above => abs_of_pos above
  executeRatio := fun _ _ => rfl
  bounded := fun r block => by
    show ((0 : Nat) : ℚ) ≤ _
    positivity

def fastDevice : DeviceInfo := ⟨.rtlSdr,0,240000000,2500000,1⟩

def connected : SpyServerClient silent := newSpyServerClient.slotHandleConnectButton (some fastDevice)

end SpyServerClient
end DabStar
