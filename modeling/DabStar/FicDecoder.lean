import DabStar.Backend
import DabStar.ChannelDecoding
import DabStar.MotHandler
import DabStar.FibDecoder
import DabStar.Lib.Ring

/-! The FIC decoder (decoder/fic_decoder.cpp). The soft bits of the symbols 1 to 3 of a frame
are cut into four blocks of 2304; each block gives three FIBs, and those with a right checksum
go to the FIB decoder. -/
namespace DabStar.Fic
open List Fib Fib.FibDecoder ChannelDecoding
open Backend (reverseDispersal)
open MotHandler (checkCrcBits)
open Lib.Ring (copy)

structure FicDecoder extends ChannelDecoding.FicDecoder where
  mpFibDecoder : FibDecoder := {}
  mFibBitsEntireFrame : List Bool := replicate 3072 false
  mFicViterbiSoftInput : List Int := replicate 2304 0
  mFicValid : List Bool := replicate 4 false
  mIndex : Nat := 0
  mFicIdx : Nat := 0
  mFicDecodeSuccessRatio : Nat := 0
  mIsRunning : Bool := false

def mPrbs : List Bool := disperseVector 768

def new : FicDecoder := { newFicDecoder with }

def fibsOf (fibBitsOf3Fibs : List Bool) : List (List Bool) := (range 3).map fun fibIdx => (fibBitsOf3Fibs.drop (fibIdx * 256)).take 256

section Code
variable (toQString : Nat → List Nat → List Nat) (fic : FicDecoder)

def takeFib (iFicIdx : Nat) (oneFib : List Bool) : FicDecoder :=
  if checkCrcBits oneFib then
    { fic with
      mpFibDecoder := processFib toQString fic.mpFibDecoder fun i => oneFib.getD i false
      mFicDecodeSuccessRatio := if fic.mFicDecodeSuccessRatio < 10 then fic.mFicDecodeSuccessRatio + 1 else fic.mFicDecodeSuccessRatio }
  else
    { fic with
      mFicValid := fic.mFicValid.set iFicIdx false
      mFicDecodeSuccessRatio := if fic.mFicDecodeSuccessRatio > 0 then fic.mFicDecodeSuccessRatio - 1 else fic.mFicDecodeSuccessRatio }

def processFicInput (iFicIdx : Nat) : FicDecoder :=
  if fic.mIsRunning then
    let (viterbi, word) := fic.toFicDecoder.deconvolve fun k => fic.mFicViterbiSoftInput.getD k 0
    let fibBitsOf3Fibs := reverseDispersal word mPrbs
    (fibsOf fibBitsOf3Fibs).foldl (fun fic oneFib => takeFib toQString fic iFicIdx oneFib)
      { fic with
        toFicDecoder := viterbi
        mFibBitsEntireFrame := copy fic.mFibBitsEntireFrame (iFicIdx * 768) fibBitsOf3Fibs
        mFicValid := fic.mFicValid.set iFicIdx true }
  else fic

def addSoftBit (softBit : Int) : FicDecoder :=
  let fic := { fic with mFicViterbiSoftInput := fic.mFicViterbiSoftInput.set fic.mIndex softBit, mIndex := fic.mIndex + 1 }
  if fic.mIndex ≥ 2304 then { processFicInput toQString fic fic.mFicIdx with mIndex := 0, mFicIdx := fic.mFicIdx + 1 } else fic

def processBlock (iOfdmSoftBits : List Int) (iOfdmSymbIdx : Nat) : FicDecoder :=
  iOfdmSoftBits.foldl (addSoftBit toQString) (if iOfdmSymbIdx = 1 then { fic with mIndex := 0, mFicIdx := 0 } else fic)

def stop : FicDecoder := { fic with mpFibDecoder := fic.mpFibDecoder.disconnectChannel, mIsRunning := false }

def restart : FicDecoder := { fic with mFicDecodeSuccessRatio := 0, mpFibDecoder := fic.mpFibDecoder.connectChannel, mIsRunning := true }

/- The three symbols of a frame, as the OFDM loop hands them over. -/
def receiveFrame (softBits : List Int) : FicDecoder :=
  let fic := processBlock toQString fic (softBits.take 3072) 1
  let fic := processBlock toQString fic ((softBits.drop 3072).take 3072) 2
  processBlock toQString fic (softBits.drop 6144) 3

end Code

variable {toQString : Nat → List Nat → List Nat} {fic : FicDecoder}

def fibEvents (fibs : List (List Bool)) : List Event := (fibs.filter checkCrcBits).map fun oneFib => .fib fun i => oneFib.getD i false

theorem takeFibs (iFicIdx : Nat) (fibs : List (List Bool)) : ∃ valid ratio,
    fibs.foldl (fun fic oneFib => takeFib toQString fic iFicIdx oneFib) fic =
      { fic with mpFibDecoder := run toQString fic.mpFibDecoder (fibEvents fibs), mFicValid := valid, mFicDecodeSuccessRatio := ratio } := by
  induction fibs generalizing fic with
  | nil => exact ⟨_,_,rfl⟩
  | cons oneFib fibs ih =>
    rw [foldl_cons,fibEvents,filter_cons,takeFib]
    split
    · exact ih
    · exact ih

theorem bitsCollected {l : List Int} (few : l.length < 2304) (start : fic.mIndex = 0) (size : fic.mFicViterbiSoftInput.length = 2304) :
    l.foldl (addSoftBit toQString) fic =
      { fic with mFicViterbiSoftInput := l ++ fic.mFicViterbiSoftInput.drop l.length, mIndex := l.length } := by
  induction l using List.reverseRecOn with
  | nil => rw [foldl_nil,nil_append,length_nil,drop_zero,← start]
  | append_singleton l bit ih =>
    rw [length_append,length_singleton] at few
    rw [foldl_append,ih (by omega),foldl_cons,foldl_nil,addSoftBit]
    dsimp only
    rw [if_neg (by omega),set_append_right _ _ (le_refl _),Nat.sub_self,drop_eq_getElem_cons (show l.length < _ by omega),
      set_cons_zero,append_assoc,length_append]
    rfl

theorem blockCollected {l : List Int} (full : l.length = 2304) (start : fic.mIndex = 0) (size : fic.mFicViterbiSoftInput.length = 2304) :
    l.foldl (addSoftBit toQString) fic =
      { processFicInput toQString { fic with mFicViterbiSoftInput := l, mIndex := 2304 } fic.mFicIdx with
        mIndex := 0, mFicIdx := fic.mFicIdx + 1 } := by
  obtain ⟨front,bit,rfl⟩ := (eq_nil_or_concat' l).resolve_left (ne_nil_of_length_pos (by omega))
  rw [length_append,length_singleton] at full
  have last : fic.mFicViterbiSoftInput.drop front.length = [fic.mFicViterbiSoftInput[front.length]] := by
    rw [drop_eq_getElem_cons (by omega),drop_of_length_le (by omega)]
  rw [foldl_append,bitsCollected (by omega) start size,foldl_cons,foldl_nil,addSoftBit]
  dsimp only
  rw [if_pos (by omega),set_append_right _ _ (le_refl _),Nat.sub_self,last,set_cons_zero,full]

section Air

/- The bits of three FIBs, and the four blocks of a frame. -/
abbrev Block := { word : List Bool // word.length = 768 }
abbrev Frame := { words : List Block // words.length = 4 }

def airBlock (word : Block) : List Int :=
  (range 2304).map (transmit newFicDecoder.viterbiBlockAddresses (reverseDispersal word.1 mPrbs))

def air (frame : Frame) : List Int := frame.1.flatMap airBlock

def Frame.fibs (frame : Frame) : List (List Bool) := frame.1.flatMap fun word => fibsOf word.1

structure Ready (fic : FicDecoder) : Prop where
  running : fic.mIsRunning = true
  viterbi : ∃ calls, fic.toFicDecoder = newFicDecoder.after calls
  size : fic.mFicViterbiSoftInput.length = 2304

/- What a state has become after some bits, and the FIBs that the FIB decoder got meanwhile. -/
structure Delivered (toQString : Nat → List Nat → List Nat) (fic next : FicDecoder) (fibs : List (List Bool)) : Prop where
  ready : Ready next
  start : next.mIndex = 0
  fibs : next.mpFibDecoder = run toQString fic.mpFibDecoder (fibEvents fibs)

theorem ficExact {word : List Bool} (length : word.length = 768) (calls : List (Nat → Int)) {v : Nat → Int}
    (sent : Transmitted newFicDecoder.viterbiBlockAddresses word v) : ((newFicDecoder.after calls).deconvolve v).2 = word := by
  rw [FicDecoder.newOfBlocks] at sent ⊢
  rw [FicDecoder.ofProtectionAddresses] at sent
  have received := depunctureReceived ficFills length calls sent
  unfold FicDecoder.deconvolve
  dsimp only
  rw [FicDecoder.afterOfProtection,FicDecoder.ofProtectionDepuncture,← length]
  exact ViterbiExact.deconvolveExact received

theorem ficAddresses : newFicDecoder.viterbiBlockAddresses.length = 2304 := by
  rw [FicDecoder.newOfBlocks,FicDecoder.ofProtectionAddresses,Protection.ofBlocksRegistered ficFills.1]
  decide

theorem airBlockLength (word : Block) : (airBlock word).length = 2304 := by rw [airBlock,length_map,length_range]

theorem airBlockTransmitted (word : Block) :
    Transmitted newFicDecoder.viterbiBlockAddresses (reverseDispersal word.1 mPrbs) fun k => (airBlock word).getD k 0 := by
  intro k inside
  rw [ficAddresses] at inside
  simp [airBlock,inside]

theorem blockDelivered (ready : Ready fic) (start : fic.mIndex = 0) (word : Block) :
    Delivered toQString fic ((airBlock word).foldl (addSoftBit toQString) fic) (fibsOf word.1) := by
  have size : word.1.length = mPrbs.length := by rw [word.2,mPrbs,disperseVectorLength]
  have length : (reverseDispersal word.1 mPrbs).length = 768 := by rw [reverseDispersal,length_zipWith,← size,word.2,Nat.min_self]
  obtain ⟨calls,same⟩ := ready.viterbi
  rw [blockCollected (airBlockLength word) start ready.size,processFicInput]
  dsimp only
  rw [if_pos ready.running,same,ficExact length calls (airBlockTransmitted word),Backend.dispersalUndone size]
  have next : ((newFicDecoder.after calls).deconvolve fun k => (airBlock word).getD k 0).1 =
      newFicDecoder.after (calls ++ [fun k => (airBlock word).getD k 0]) := by
    rw [FicDecoder.after,FicDecoder.after,foldl_append]
    rfl
  obtain ⟨valid,ratio,taken⟩ := takeFibs fic.mFicIdx (fibsOf word.1)
  rw [taken,next]
  exact ⟨⟨ready.running,⟨_,rfl⟩,by simpa only using airBlockLength word⟩,rfl,rfl⟩

theorem fibEventsAppend (l l' : List (List Bool)) : fibEvents (l ++ l') = fibEvents l ++ fibEvents l' := by
  rw [fibEvents,filter_append,map_append]
  rfl

theorem Delivered.trans {next last : FicDecoder} {l l' : List (List Bool)} (first : Delivered toQString fic next l)
    (second : Delivered toQString next last l') : Delivered toQString fic last (l ++ l') := by
  refine ⟨second.ready,second.start,?_⟩
  rw [second.fibs,first.fibs,fibEventsAppend]
  exact (foldl_append ..).symm

theorem blocksDelivered (ready : Ready fic) (start : fic.mIndex = 0) (words : List Block) :
    Delivered toQString fic ((words.flatMap airBlock).foldl (addSoftBit toQString) fic) (words.flatMap fun word => fibsOf word.1) := by
  induction words generalizing fic with
  | nil => exact ⟨ready,start,rfl⟩
  | cons word words ih =>
    have first : Delivered toQString _ _ _ := blockDelivered ready start word
    rw [flatMap_cons,flatMap_cons,foldl_append]
    exact first.trans (ih first.ready first.start)

theorem frameFolded (softBits : List Int) :
    receiveFrame toQString fic softBits = softBits.foldl (addSoftBit toQString) { fic with mIndex := 0, mFicIdx := 0 } := by
  -- only symbol 1 sets the counters back, so the borders of the symbols do not matter
  conv_rhs => rw [← take_append_drop 3072 softBits,← take_append_drop 3072 (softBits.drop 3072),drop_drop,foldl_append,foldl_append]
  rfl

theorem frameDelivered (ready : Ready fic) (frame : Frame) :
    Delivered toQString fic (receiveFrame toQString fic (air frame)) frame.fibs := by
  rw [frameFolded]
  have reset : Ready { fic with mIndex := 0, mFicIdx := 0 } := ⟨ready.running,ready.viterbi,ready.size⟩
  have whole : Delivered toQString _ _ _ := blocksDelivered reset rfl frame.1
  exact ⟨whole.ready,whole.start,whole.fibs⟩

theorem framesRun (ready : Ready fic) (frames : List Frame) :
    (frames.foldl (fun fic frame => receiveFrame toQString fic (air frame)) fic).mpFibDecoder =
      run toQString fic.mpFibDecoder (fibEvents (frames.flatMap Frame.fibs)) := by
  induction frames generalizing fic with
  | nil => rfl
  | cons frame frames ih =>
    have first : Delivered toQString _ _ _ := frameDelivered ready frame
    rw [foldl_cons,ih first.ready,first.fibs,flatMap_cons,fibEventsAppend]
    exact (foldl_append ..).symm

theorem framesDelivered (toQString : Nat → List Nat → List Nat) (frames : List Frame) :
    (frames.foldl (fun fic frame => receiveFrame toQString fic (air frame)) (restart new)).mpFibDecoder =
      run toQString {} (.connectChannel :: fibEvents (frames.flatMap Frame.fibs)) :=
  framesRun ⟨rfl,⟨[],rfl⟩,length_replicate⟩ frames

end Air

end DabStar.Fic
