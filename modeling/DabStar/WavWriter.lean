import DabStar.Galois
import DabStar.Lib.Files

/-! The WAV files of the audio dump (support/wav_writer.cpp). The place of the data size is not
left free, so it is written over the first samples; and the size counts the values once more
for every channel. -/
namespace DabStar
open List Lib.Files

abbrev I16 := BitVec 16

structure WavWriter where
  mFilePointer : SeekFile
  mIsValid : Bool
  mNumChannels : Nat
  mNrElements : Nat
  mLocationCounter : Nat
  deriving DecidableEq, Repr

namespace WavWriter

def new : WavWriter := ⟨empty,false,0,0,0⟩

-- RIFF, WAVE, fmt and data
def cRiffStr : List U8 := [0x52#8,0x49#8,0x46#8,0x46#8]
def cWaveStr : List U8 := [0x57#8,0x41#8,0x56#8,0x45#8]
def cFmtStr : List U8 := [0x66#8,0x6D#8,0x74#8,0x20#8]
def cDataStr : List U8 := [0x64#8,0x61#8,0x74#8,0x61#8]

section Code
variable (w : WavWriter)

def put (data : List U8) : WavWriter :=
  { w with mFilePointer := w.mFilePointer.write data, mLocationCounter := w.mLocationCounter + data.length }

def bytesPerBlock (mNumChannels : Nat) : Nat := mNumChannels * 2 % 2 ^ 16

def bytesPerSecond (mNumChannels samplingRate : Nat) : Nat := bytesPerBlock mNumChannels * samplingRate % 2 ^ 32

def putFormat (iSampleRate : BitVec 32) : WavWriter :=
  let w := ((w.put cFmtStr).put (littleEndian 4 16)).put (littleEndian 2 1)
  let w := (w.put (littleEndian 2 w.mNumChannels)).put (littleEndian 4 iSampleRate.toNat)
  let w := w.put (littleEndian 4 (bytesPerSecond w.mNumChannels iSampleRate.toNat))
  (w.put (littleEndian 2 (bytesPerBlock w.mNumChannels))).put (littleEndian 2 16)

def init (opened : Bool) (iSampleRate : BitVec 32) (iNumChannels : BitVec 16) : WavWriter × Bool :=
  let w := { w with mIsValid := false }
  if opened then
    let w := { w with mFilePointer := empty, mNumChannels := iNumChannels.toNat, mLocationCounter := 0 }
    let w := w.put cRiffStr
    let w := { w with mFilePointer := w.mFilePointer.seekCur 4, mLocationCounter := w.mLocationCounter + 4 }
    let w := (w.put cWaveStr).putFormat iSampleRate
    let w := w.put cDataStr
    ({ w with mNrElements := 0, mIsValid := true }, true)
  else (w, false)

def sampleBytes (iBuffer : List I16) : List U8 := iBuffer.flatMap fun sample => littleEndian 2 sample.toNat

def write (iBuffer : List I16) : WavWriter :=
  if w.mIsValid then
    { w with mFilePointer := w.mFilePointer.write (sampleBytes iBuffer)
             mNrElements := (w.mNrElements + iBuffer.length) % 2 ^ 32 }
  else w

def close : WavWriter :=
  if w.mIsValid then
    let nrBytes := w.mNrElements * w.mNumChannels * 2 % 2 ^ 32
    let file := ((w.mFilePointer.seekSet w.mLocationCounter).write (littleEndian 4 nrBytes)).seekEnd
    let riffSize := (2 ^ 32 + file.position - 8) % 2 ^ 32
    { w with mFilePointer := ((file.seekSet 4).write (littleEndian 4 riffSize)).seekEnd, mIsValid := false }
  else w

end Code

structure WellFormed (bytes : List U8) (samples : List I16) : Prop where
  riff : bytes.take 4 = cRiffStr
  riffSize : (bytes.drop 4).take 4 = littleEndian 4 (bytes.length - 8)
  wave : (bytes.drop 8).take 4 = cWaveStr
  fmt : (bytes.drop 12).take 4 = cFmtStr
  data : (bytes.drop 36).take 4 = cDataStr
  dataSize : (bytes.drop 40).take 4 = littleEndian 4 (2 * samples.length)
  content : bytes.drop 44 = sampleBytes samples

section Files

@[simp] theorem sampleBytesLength (samples : List I16) : (sampleBytes samples).length = 2 * samples.length := by
  induction samples with
  | nil => rfl
  | cons sample samples ih =>
    rw [sampleBytes,flatMap_cons,length_append,littleEndianLength,length_cons]
    change 2 + (sampleBytes samples).length = _
    omega

def chunks (iSampleRate : BitVec 32) (iNumChannels : BitVec 16) : List U8 :=
  [cWaveStr,cFmtStr,littleEndian 4 16,littleEndian 2 1,littleEndian 2 iNumChannels.toNat,
    littleEndian 4 iSampleRate.toNat,littleEndian 4 (bytesPerSecond iNumChannels.toNat iSampleRate.toNat),
    littleEndian 2 (bytesPerBlock iNumChannels.toNat),littleEndian 2 16,cDataStr].flatten

@[simp] theorem chunksLength (iSampleRate : BitVec 32) (iNumChannels : BitVec 16) :
    (chunks iSampleRate iNumChannels).length = 32 := by simp [chunks,cWaveStr,cFmtStr,cDataStr]

def header (riffSize : Nat) (iSampleRate : BitVec 32) (iNumChannels : BitVec 16) : List U8 :=
  cRiffStr ++ littleEndian 4 riffSize ++ chunks iSampleRate iNumChannels

@[simp] theorem headerLength (riffSize : Nat) (iSampleRate : BitVec 32) (iNumChannels : BitVec 16) :
    (header riffSize iSampleRate iNumChannels).length = 40 := by simp [header,cRiffStr]

theorem putsFile (parts : List (List U8)) {w : WavWriter} (atEnd : w.mFilePointer.position = w.mFilePointer.bytes.length) :
    parts.foldl put w =
      { w with mFilePointer := ⟨w.mFilePointer.bytes ++ parts.flatten,w.mFilePointer.position + parts.flatten.length⟩
               mLocationCounter := w.mLocationCounter + parts.flatten.length } := by
  induction parts generalizing w with
  | nil => rw [foldl_nil,flatten_nil,append_nil]; rfl
  | cons data parts ih =>
    have once : w.put data =
        { w with mFilePointer := ⟨w.mFilePointer.bytes ++ data,w.mFilePointer.position + data.length⟩
                 mLocationCounter := w.mLocationCounter + data.length } := by
      rw [put,SeekFile.writeAtEnd atEnd]
    rw [foldl_cons,once,ih (by simp [atEnd]),flatten_cons,length_append]
    simp only [append_assoc,Nat.add_assoc]

variable (w : WavWriter) (iSampleRate : BitVec 32) (iNumChannels : BitVec 16)

theorem initFile : (w.init true iSampleRate iNumChannels).1 =
    { mFilePointer := ⟨header 0 iSampleRate iNumChannels,40⟩, mIsValid := true, mNumChannels := iNumChannels.toNat
      mNrElements := 0, mLocationCounter := 40 } := by
  let riff : WavWriter :=
    { w with mFilePointer := ⟨cRiffStr ++ littleEndian 4 0,8⟩, mIsValid := false, mNumChannels := iNumChannels.toNat
             mLocationCounter := 8 }
  let parts : List (List U8) := [cWaveStr,cFmtStr,littleEndian 4 16,littleEndian 2 1,littleEndian 2 iNumChannels.toNat,
    littleEndian 4 iSampleRate.toNat,littleEndian 4 (bytesPerSecond iNumChannels.toNat iSampleRate.toNat),
    littleEndian 2 (bytesPerBlock iNumChannels.toNat),littleEndian 2 16,cDataStr]
  have steps : (w.init true iSampleRate iNumChannels).1 =
      { parts.foldl put riff with mNrElements := 0, mIsValid := true } := rfl
  have length : parts.flatten.length = 32 := chunksLength iSampleRate iNumChannels
  rw [steps,putsFile parts (show riff.mFilePointer.position = riff.mFilePointer.bytes.length from rfl),length]
  rfl

theorem writesFile (writes : List (List I16)) :
    writes.foldl write (w.init true iSampleRate iNumChannels).1 =
      { mFilePointer := ⟨header 0 iSampleRate iNumChannels ++ sampleBytes writes.flatten,40 + 2 * writes.flatten.length⟩
        mIsValid := true, mNumChannels := iNumChannels.toNat, mNrElements := writes.flatten.length % 2 ^ 32
        mLocationCounter := 40 } := by
  induction writes using List.reverseRecOn with
  | nil =>
    rw [foldl_nil,initFile,flatten_nil,sampleBytes,flatMap_nil,append_nil]
    rfl
  | append_singleton writes iBuffer ih =>
    have all : (writes ++ [iBuffer]).flatten = writes.flatten ++ iBuffer := by simp
    rw [foldl_append,ih,foldl_cons,foldl_nil,write,if_pos rfl,all]
    dsimp only
    rw [SeekFile.writeAtEnd (by simp),append_assoc,sampleBytesLength,length_append,Nat.mod_add_mod,Nat.mul_add,Nat.add_assoc]
    simp [sampleBytes]

theorem sizeSet (size n p : Nat) (behind : List U8) :
    ((SeekFile.mk (cRiffStr ++ littleEndian 4 n ++ behind) p).seekSet 4).write (littleEndian 4 size) =
      ⟨cRiffStr ++ littleEndian 4 size ++ behind,8⟩ := by
  rw [SeekFile.seekSet,append_assoc,SeekFile.writeOver (show 4 = cRiffStr.length from rfl),littleEndianLength,
    drop_left' (littleEndianLength 4 n)]

theorem dataSizeSet (nrBytes p : Nat) (data : List U8) :
    ((SeekFile.mk (header 0 iSampleRate iNumChannels ++ data) p).seekSet 40).write (littleEndian 4 nrBytes) =
      ⟨header 0 iSampleRate iNumChannels ++ (littleEndian 4 nrBytes ++ data.drop 4),44⟩ := by
  rw [SeekFile.seekSet,SeekFile.writeOver (headerLength 0 iSampleRate iNumChannels).symm,littleEndianLength,append_assoc]

theorem closedFile (writes : List (List I16)) :
    (writes.foldl write (w.init true iSampleRate iNumChannels).1).close.mFilePointer.bytes =
      header ((2 ^ 32 + (44 + (2 * writes.flatten.length - 4)) - 8) % 2 ^ 32) iSampleRate iNumChannels ++
        (littleEndian 4 (writes.flatten.length % 2 ^ 32 * iNumChannels.toNat * 2 % 2 ^ 32) ++
        (sampleBytes writes.flatten).drop 4) := by
  rw [writesFile,close,if_pos rfl]
  dsimp only
  rw [dataSizeSet]
  generalize writes.flatten.length % 2 ^ 32 * iNumChannels.toNat * 2 % 2 ^ 32 = nrBytes
  have length : (header 0 iSampleRate iNumChannels ++ (littleEndian 4 nrBytes ++ (sampleBytes writes.flatten).drop 4)).length =
      44 + (2 * writes.flatten.length - 4) := by
    rw [length_append,headerLength,length_append,littleEndianLength,length_drop,sampleBytesLength,← Nat.add_assoc]
  dsimp only [SeekFile.seekEnd]
  rw [length,header,append_assoc (cRiffStr ++ littleEndian 4 0),sizeSet,header,append_assoc (cRiffStr ++ _)]

theorem wellFormedEmpty (writes : List (List I16)) :
    WellFormed (writes.foldl write (w.init true iSampleRate iNumChannels).1).close.mFilePointer.bytes writes.flatten ↔
      writes.flatten = [] := by
  rw [closedFile]
  constructor
  · intro formed
    have content := congrArg List.length formed.content
    rw [length_drop,length_append,length_append,headerLength,littleEndianLength,length_drop,sampleBytesLength] at content
    exact eq_nil_of_length_eq_zero (by omega)
  · intro none
    have size : (2 ^ 32 + (44 + (2 * ([] : List I16).length - 4)) - 8) % 2 ^ 32 = 36 := by decide
    have nrBytes : ([] : List I16).length % 2 ^ 32 * iNumChannels.toNat * 2 % 2 ^ 32 = 0 := by simp
    rw [none,size,nrBytes]
    constructor <;> rfl

theorem stereoSampleLost :
    let file := ([[1#16,2#16]].foldl write (new.init true 48000#32 2#16).1).close.mFilePointer.bytes
    file.length = 44 ∧ (file.drop 40).take 4 = littleEndian 4 8 ∧ ¬ WellFormed file [1#16,2#16] := by
  have lost : ([[1#16,2#16]].foldl write (new.init true 48000#32 2#16).1).close.mFilePointer.bytes.drop 44 = [] := by decide
  refine ⟨by decide,by decide,fun formed => ?_⟩
  have content := formed.content
  rw [lost] at content
  revert content
  decide

end Files

end WavWriter

end DabStar
