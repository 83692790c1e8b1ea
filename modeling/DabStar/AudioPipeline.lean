import DabStar.WavWriter

/-! From the audio decoder to the output (audio/audio_pipeline.cpp). While the output buffer is
too empty a stereo sample is doubled in every group of a hundred, while it is too full one is
left out. -/
namespace DabStar
open List

inductive ESampleAdaptMode where
  | idle
  | noChange
  | removeSamples
  | addSamples
  deriving DecidableEq, Repr

inductive EAudioDumpState where
  | stopped
  | waitForInit
  | running
  deriving DecidableEq, Repr

structure Transfer where
  first : Nat
  samples : List I16
  deriving DecidableEq, Repr

inductive AudioEvent where
  | setupAudioOutput (iSampleRate : BitVec 32)
  | flushRingBuffer
  | putDataIntoRingBuffer (transfer : Transfer)
  | audioDumpStateChanged (isDumping : Bool)
  deriving DecidableEq, Repr

structure AudioPipeline where
  mIsChannelRunning : Bool
  mpCurAudioFifo : Option (BitVec 32)
  mSampleAdaptMode : ESampleAdaptMode
  mRemainingSampleCount : Int
  mAudioQualFillState : Int
  mAudioDumpState : EAudioDumpState
  mWavWriter : WavWriter
  deriving DecidableEq, Repr

/- A call of slot_new_audio and what it meets: the samples of the decoder, the fill state of
the output buffer in percent, whether these samples have no room there, and whether a dump
file can be opened. -/
structure NewAudio where
  iNumSamples : Nat
  iAudioSampleRate : BitVec 32
  fromDecoder : List I16
  mAudioBufferFillFiltered : ℚ
  full : Bool
  opened : Bool

namespace AudioPipeline

def cInsertSamplesToPatchSampleRelation : Nat := 100 * 2

def new : AudioPipeline := ⟨false,none,.idle,0,0,.stopped,WavWriter.new⟩

section RateAdaption
variable (mode : ESampleAdaptMode) (mAudioTempBuffer : List I16)

def transfer (first count : Int) : Transfer := ⟨first.toNat,(range count.toNat).map fun i => mAudioTempBuffer.getD (first.toNat + i) 0#16⟩

def putGroup (locSampleCount : Int) : List Transfer :=
  match mode with
  | .addSamples =>
    [transfer mAudioTempBuffer locSampleCount 2,
     transfer mAudioTempBuffer locSampleCount cInsertSamplesToPatchSampleRelation]
  | .removeSamples => [transfer mAudioTempBuffer (locSampleCount + 2) (cInsertSamplesToPatchSampleRelation - 2)]
  | .idle | .noChange => []

def putRemaining (locSampleCount remainingSamples : Int) : List Transfer :=
  match mode with
  | .addSamples =>
    if remainingSamples ≥ 2 then
      [transfer mAudioTempBuffer locSampleCount 2,transfer mAudioTempBuffer locSampleCount remainingSamples]
    else []
  | .removeSamples =>
    if remainingSamples ≥ 4 then [transfer mAudioTempBuffer (locSampleCount + 2) (remainingSamples - 2)] else []
  | .idle | .noChange => []

def putGroups : Nat → Int → List Transfer × Int
  | 0, locSampleCount => ([], locSampleCount)
  | fuel + 1, locSampleCount =>
    if (mAudioTempBuffer.length : Int) - locSampleCount ≥ cInsertSamplesToPatchSampleRelation then
      let (transfers, last) := putGroups fuel (locSampleCount + cInsertSamplesToPatchSampleRelation)
      (putGroup mode mAudioTempBuffer locSampleCount ++ transfers, last)
    else ([], locSampleCount)

end RateAdaption

section Code
variable (s : AudioPipeline)

def pushRateAdaptiveSamplesToAudioBuffer (mAudioTempBuffer : List I16) : AudioPipeline × List Transfer :=
  let iAvailableBytes : Int := mAudioTempBuffer.length
  if s.mSampleAdaptMode = .noChange ∨ s.mSampleAdaptMode = .idle then
    (s, [transfer mAudioTempBuffer 0 iAvailableBytes])
  else
    let remaining := if s.mRemainingSampleCount > 0 then [transfer mAudioTempBuffer 0 s.mRemainingSampleCount] else []
    let locSampleCount := if s.mRemainingSampleCount > 0 then s.mRemainingSampleCount else 0
    let (groups, locSampleCount) := putGroups s.mSampleAdaptMode mAudioTempBuffer mAudioTempBuffer.length locSampleCount
    let remainingSamples := iAvailableBytes - locSampleCount
    ({ s with mRemainingSampleCount := cInsertSamplesToPatchSampleRelation - remainingSamples },
      remaining ++ groups ++ putRemaining s.mSampleAdaptMode mAudioTempBuffer locSampleCount remainingSamples)

def startAudioDumping (iFileName : List Char) (noFrameType : Bool) : AudioPipeline × List AudioEvent :=
  if noFrameType ∨ s.mAudioDumpState ≠ .stopped ∨ iFileName = [] then (s, [])
  else ({ s with mAudioDumpState := .waitForInit }, [.audioDumpStateChanged true])

end Code

def blocks (calls : List NewAudio) : List (List I16) :=
  (calls.filter fun call => call.fromDecoder.length ≥ call.iNumSamples).map (·.fromDecoder)

end AudioPipeline

end DabStar
