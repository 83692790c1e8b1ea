import DabStar.FigReads
import DabStar.FigFraming

/-! Every loop of the FIB decoder ends: an entry is at least a byte long, a FIG has at most
31 of them, a FIB 30. So the reading programs return, and with what the handlers of the
model compute. -/
namespace DabStar.Fib.FibReads
open Lib.BitReader Lib.BitReader.Reader
open FibDecoder (EntryFig sIdWidth)
variable {s : FibDecoder}

def SizedApps (c : FibConfigFig0) : Prop := ∀ e ∈ c.fig0s13Vec, 24 ≤ e.sizeBits

abbrev Sized (s : FibDecoder) : Prop := FibDecoder.BothConfigs SizedApps s

theorem sizedAppsKept : FibDecoder.Invariant (fun _ => True) SizedApps where
  initial := fun _ member => nomatch member
  cleared := fun _ _ member => nomatch member
  clusters := fun _ sized => sized
  stored := by
    intro d s cnFlag c _ stored sized
    cases stored with
    | fig0s13 e service component large => exact FibDecoder.forallSnoc sized large
    | _ => exact sized

def entryReads : EntryFig → FibProc
  | .fig0s1 => subprocessFig0s1
  | .fig0s2 => subprocessFig0s2
  | .fig0s3 => subprocessFig0s3
  | .fig0s5 => subprocessFig0s5
  | .fig0s8 => subprocessFig0s8
  | .fig0s13 => subprocessFig0s13
  | .fig0s14 => subprocessFig0s14

theorem entryValue (f : EntryFig) (d : Bits) (s : FibDecoder) (used : Nat) (fh : FigHeader) :
    (entryReads f s used fh).run (getBits d) = some (f.subprocess s d used fh) := by
  cases f with
  | fig0s1 => exact fig0s1Value d s used fh
  | fig0s2 => exact fig0s2Value d s used fh
  | fig0s3 => exact fig0s3Value d s used fh
  | fig0s5 => exact fig0s5Value d s used fh
  | fig0s8 => exact fig0s8Value d s used fh
  | fig0s13 => exact fig0s13Value d s used fh
  | fig0s14 => exact fig0s14Value d s used fh

theorem entryForward {σ : Type} {lookup : Option σ} {own : σ} {store : σ → FibDecoder} {bytes : σ → Nat} {refused : Prop} {used : Nat} {next : FibDecoder × Nat} (long : 0 < bytes own) (longStored : ∀ e, lookup = some e → 0 < bytes e)
    (entry : FibDecoder.Entry lookup own store bytes refused s used next) : used < next.2 := by
  cases entry with
  | known found => exact Nat.lt_add_of_pos_right (longStored _ found)
  | stored | restarts => exact Nat.lt_add_of_pos_right long

theorem constantForward {σ : Type} {lookup : Option σ} {own : σ} {store : σ → FibDecoder} {size : Nat} {refused : Prop} {used : Nat} {next : FibDecoder × Nat} (long : 0 < size)
    (entry : FibDecoder.Entry lookup own store (fun _ => size) refused s used next) : used < next.2 :=
  entryForward long (fun _ _ => long) entry

theorem entryAdvances (f : EntryFig) (d : Bits) (sized : Sized s) (used : Nat) (fh : FigHeader) : used < (f.subprocess s d used fh).2 := by
  cases f with
  | fig0s1 =>
    have long (e : Fig0s1) : 0 < FibDecoder.entryBytes e := by
      unfold FibDecoder.entryBytes
      split <;> decide
    exact entryForward (long _) (fun e _ => long e) (FibDecoder.fig0s1Entry s d used fh)
  | fig0s2 =>
    show used < (8 * used + sIdWidth fh.pdFlag + 8 + 16 * getBits4 d (8 * used + sIdWidth fh.pdFlag + 4)) / 8
    omega
  | fig0s3 =>
    have long (e : Fig0s3) : 0 < FibDecoder.fig0s3Bytes e := by
      unfold FibDecoder.fig0s3Bytes
      split <;> decide
    exact entryForward (long _) (fun e _ => long e) (FibDecoder.fig0s3Entry s d used fh)
  | fig0s5 =>
    have long (e : Fig0s5) : 0 < FibDecoder.fig0s5Bytes e := by
      unfold FibDecoder.fig0s5Bytes
      split <;> decide
    exact constantForward (long _) (FibDecoder.fig0s5Entry s d used fh)
  | fig0s8 =>
    have long (e : Fig0s8) : 0 < FibDecoder.fig0s8Bytes fh.pdFlag e := by
      unfold FibDecoder.fig0s8Bytes
      split <;> omega
    exact constantForward (long _) (FibDecoder.fig0s8Entry s d used fh)
  | fig0s13 =>
    have own : 0 < FibDecoder.fig0s13Bytes (FibDecoder.readFig0s13 d fh.pdFlag (used * 8)) := by
      have forward := FibDecoder.userAppsForward d fh.pdFlag
        (List.range (min (getBits4 d (used * 8 + sIdWidth fh.pdFlag + 4)) 6)) ([], used * 8 + sIdWidth fh.pdFlag + 8)
      unfold FibDecoder.fig0s13Bytes FibDecoder.readFig0s13
      dsimp only at forward ⊢
      omega
    refine entryForward own (fun e found => ?_) (FibDecoder.fig0s13Entry s d used fh)
    have large := sized.1 e (List.mem_of_find?_eq_some found)
    unfold FibDecoder.fig0s13Bytes
    omega
  | fig0s14 => exact constantForward Nat.one_pos (FibDecoder.fig0s14Entry s d used fh)

theorem entryPassed (f : EntryFig) {d : Bits} (typed : getBits3 d 0 = 0) (extension : getBits5 d 11 = f.extension)
    (s : FibDecoder) (used : Nat) : FibDecoder.Passed [d] s (f.subprocess s d used (Fib.getFigHeader d)).1 := by
  have here : d ∈ [d] := List.mem_singleton_self d
  cases f with
  | fig0s1 => exact FibDecoder.fig0s1Passed here s used _
  | fig0s2 => exact .calm (FibDecoder.fig0s2Steps here s used _)
  | fig0s3 => exact .calm (FibDecoder.fig0s3Steps here s used _)
  | fig0s5 => exact .calm (FibDecoder.fig0s5Steps here s used (Fib.getFigHeader d))
  | fig0s8 => exact .calm (FibDecoder.fig0s8Steps here s used _)
  | fig0s13 => exact .calm (FibDecoder.fig0s13Steps here typed extension s used)
  | fig0s14 => exact .calm (FibDecoder.fig0s14Steps here s used _)

theorem entrySized (f : EntryFig) {d : Bits} (typed : getBits3 d 0 = 0) (extension : getBits5 d 11 = f.extension) (sized : Sized s) (used : Nat) : Sized (f.subprocess s d used (Fib.getFigHeader d)).1 :=
  FibDecoder.passedKeeps sizedAppsKept (fun _ _ => trivial) (entryPassed f typed extension s used) sized

section Loops
variable (d : Bits)

theorem lengthLt : (Fib.getFigHeader d).length < 32 := getBitsLt d 3 5

theorem entryStepValue (f : EntryFig) (fh : FigHeader) (s : FibDecoder) (used : Nat) :
    (entryStep (entryReads f) fh (s, used)).run (getBits d) = some (if used ≤ fh.length then
      if (f.subprocess s d used fh).1.restartFibDecoding then .inr (f.subprocess s d used fh).1 else .inl (f.subprocess s d used fh)
    else .inr s) := by
  simp only [entryStep,runIf,runBindOf (entryValue f d s used fh),runPure]
  split_ifs <;> rfl

theorem entryLoopValue (f : EntryFig) (typed : getBits3 d 0 = 0) (extension : getBits5 d 11 = f.extension)
    {s : FibDecoder} (sized : Sized s) :
    (processFig0Loop 32 (entryReads f) s).run (getBits d) = some (FibDecoder.processFig0Loop f.subprocess s d) := by
  have short := lengthLt d
  rw [processFig0Loop,runBindOf (headerValue d)]
  refine loopValue (I := fun x => Sized x.1) (fun x : FibDecoder × Nat => (Fib.getFigHeader d).length + 1 - x.2)
    (fun fuel x => FibDecoder.fig0Rounds f.subprocess d (Fib.getFigHeader d) fuel x.1 x.2) ?_ sized
    (show (Fib.getFigHeader d).length + 1 - 2 < 32 by omega)
  rintro ⟨t,used⟩ sizedNow
  refine ⟨_,entryStepValue d f _ t used,fun fuel => ?_,fun y going => ?_⟩
  · simp only [FibDecoder.fig0Rounds]
    split_ifs <;> rfl
  · split_ifs at going with inside restarts
    cases going
    have forward : used < (f.subprocess t d used (Fib.getFigHeader d)).2 := entryAdvances f d sizedNow used _
    refine ⟨entrySized f typed extension sizedNow used,?_⟩
    dsimp only at inside ⊢
    omega

theorem fig0s17StepValue (length : Nat) (s : FibDecoder) (offset : Nat) : (fig0s17Step length (s, offset)).run (getBits d) =
      some (if offset < length * 8 then .inl (s.fig0s17Entry d offset, offset + 32) else .inr s) := by
  simp only [fig0s17Step,FibDecoder.fig0s17Entry,runIf,runFieldBind,runPure]
  cases s.fig0Curr.getFig0s17OfSId (getBits d offset 16) <;> split_ifs <;> rfl

theorem fig0s17Value (s : FibDecoder) : (processFig0s17 32 s).run (getBits d) = some (s.processFig0s17 d) := by
  have short : getBits d 3 5 < 32 := lengthLt d
  rw [processFig0s17,runFieldBind]
  refine loopValue (I := fun _ => True) (fun x : FibDecoder × Nat => (getBits d 3 5 * 8 + 31 - x.2) / 32)
    (fun fuel x => FibDecoder.fig0s17Loop d (getBits d 3 5) fuel x.1 x.2) ?_ trivial (by dsimp only; omega)
  rintro ⟨t,offset⟩ -
  refine ⟨_,fig0s17StepValue d _ t offset,fun fuel => ?_,fun y going => ⟨trivial,?_⟩⟩
  · rw [FibDecoder.fig0s17Round]
    split_ifs <;> rfl
  · split_ifs at going with inside
    cases going
    dsimp only at inside ⊢
    omega

def clusterRound (d : Bits) (fh : FigHeader) (bitOffset : Nat) (s : FibDecoder) (i : Nat) : FibDecoder :=
  if getBits d (bitOffset + 40 + 8 * i) 8 = 0 then s
  else s.setCluster fh.cnFlag (getBits d (bitOffset + 40 + 8 * i) 8) (getBits d bitOffset 16) (getBits d (bitOffset + 16) 16)

theorem clusterValue (fh : FigHeader) (bitOffset : Nat) (s : FibDecoder) (i : Nat) :
    (fig0s18Cluster fh.cnFlag (bitOffset + 40) (getBits d bitOffset 16) (getBits d (bitOffset + 16) 16) s i).run (getBits d) =
      some (clusterRound d fh bitOffset s i) := by
  simp only [fig0s18Cluster,clusterRound,runFieldBind,runIf,runPure]
  split_ifs <;> rfl

theorem fig0s18StepValue (fh : FigHeader) (s : FibDecoder) (bitOffset : Nat) :
    (fig0s18Step fh (s, bitOffset)).run (getBits d) = some (if bitOffset ≤ fh.length * 8 then
      .inl ((List.range (getBits d (bitOffset + 37) 3)).foldl (clusterRound d fh bitOffset) s,
        bitOffset + 40 + getBits d (bitOffset + 37) 3 * 8) else .inr s) := by
  simp only [fig0s18Step,runIf,runFieldBind,runBindOf (runFold (clusterValue d fh bitOffset) _ _),runPure]
  split_ifs <;> rfl

theorem fig0s18Value (s : FibDecoder) : (processFig0s18 32 s).run (getBits d) = some (s.processFig0s18 d) := by
  have short := lengthLt d
  rw [processFig0s18,runBindOf (headerValue d)]
  refine loopValue (I := fun _ => True) (fun x : FibDecoder × Nat => ((Fib.getFigHeader d).length * 8 + 40 - x.2) / 40)
    (fun fuel x => FibDecoder.fig0s18Loop d (Fib.getFigHeader d) fuel x.1 x.2) ?_ trivial (by dsimp only; omega)
  rintro ⟨t,offset⟩ -
  refine ⟨_,fig0s18StepValue d _ t offset,fun fuel => ?_,fun y going => ⟨trivial,?_⟩⟩
  · simp only [FibDecoder.fig0s18Loop]
    split_ifs <;> rfl
  · split_ifs at going with inside
    cases going
    dsimp only at inside ⊢
    omega

theorem fig0s19StepValue (fh : FigHeader) (s : FibDecoder) (bitOffset : Nat) :
    (fig0s19Step fh (s, bitOffset)).run (getBits d) = some (if bitOffset ≤ fh.length * 8 then if s.fibLoadingState.rank < 4 then .inr s
      else .inl (s.switchAnnouncement fh.cnFlag (getBits d bitOffset 8) (getBits d (bitOffset + 8) 16) (getBits d (bitOffset + 26) 6),
        bitOffset + if getBits d (bitOffset + 25) 1 = 1 then 40 else 32) else .inr s) := by
  simp only [fig0s19Step,runIf,runFieldBind,runPure]
  split_ifs <;> rfl

theorem fig0s19Value (s : FibDecoder) : (processFig0s19 32 s).run (getBits d) = some (s.processFig0s19 d) := by
  have short := lengthLt d
  rw [processFig0s19,runBindOf (headerValue d)]
  refine loopValue (I := fun _ => True) (fun x : FibDecoder × Nat => ((Fib.getFigHeader d).length * 8 + 32 - x.2) / 32)
    (fun fuel x => FibDecoder.fig0s19Loop d (Fib.getFigHeader d) fuel x.1 x.2) ?_ trivial (by dsimp only; omega)
  rintro ⟨t,offset⟩ -
  refine ⟨_,fig0s19StepValue d _ t offset,fun fuel => ?_,fun y going => ⟨trivial,?_⟩⟩
  · simp only [FibDecoder.fig0s19Loop]
    split_ifs <;> rfl
  · split_ifs at going with inside loading region <;> cases going <;> dsimp only at inside ⊢ <;> omega

end Loops

section Alerts
variable (d : Bits)

theorem locationValue (bitOffset endOffset : Nat) : ∃ r, (getEwsLocationCode bitOffset endOffset).run (getBits d) = some r ∧
    ∀ behind, r = some behind → bitOffset + 16 ≤ behind ∧ behind ≤ endOffset := by
  simp only [getEwsLocationCode,runIf,runFieldBind,runBindOf (runFields 4 _),runPure]
  generalize getBits d (bitOffset + 8) 1 = scf
  generalize getBits d (bitOffset + 9) 3 = numDigits
  split_ifs <;> exact ⟨_,rfl,fun behind same => by cases same <;> omega⟩

theorem locationStepValue (endOffset bitOffset : Nat) : ∃ r, (ewsLocationStep endOffset bitOffset).run (getBits d) = some r ∧
    ∀ behind, r = .inl behind → bitOffset + 16 ≤ behind ∧ behind ≤ endOffset := by
  obtain ⟨code,value,bounds⟩ := locationValue d bitOffset endOffset
  simp only [ewsLocationStep,runIf,runBindOf value,runPure]
  split
  · cases code with
    | some behind => exact ⟨_,rfl,fun y same => by cases same; exact bounds behind rfl⟩
    | none => exact ⟨_,rfl,fun y same => nomatch same⟩
  · exact ⟨_,rfl,fun y same => nomatch same⟩

theorem locationsValue {endOffset bitOffset : Nat} (short : endOffset ≤ 256) :
    (loop (ewsLocationStep endOffset) 32 bitOffset).run (getBits d) = some () := by
  refine loopValue (I := fun _ => True) (fun x => (endOffset - x) / 16) (fun _ _ => ()) (fun x _ => ?_) trivial (by omega)
  obtain ⟨r,value,bounds⟩ := locationStepValue d endOffset x
  refine ⟨r,value,fun _ => rfl,fun y going => ⟨trivial,?_⟩⟩
  have inside := bounds y going
  omega

theorem ewsStartValue (oeFlag : Nat) : ∃ r, (ewsStart oeFlag).run (getBits d) = some r := by
  simp only [ewsStart,runIf,runFieldBind,runPure]
  split_ifs <;> exact ⟨_,rfl⟩

theorem fig0s15Value (s : FibDecoder) : (processFig0s15 32 s).run (getBits d) = some (s.processFig0s15 d) := by
  have short := lengthLt d
  obtain ⟨start,begins⟩ := ewsStartValue d (Fib.getFigHeader d).oeFlag
  simp only [processFig0s15,FibDecoder.processFig0s15,runBindOf (headerValue d),runIf,runBindOf begins,runFieldBind,
    runBindOf (locationsValue d (show ((Fib.getFigHeader d).length + 1) * 8 ≤ 256 by omega)),runPure]
  split_ifs <;> rfl

end Alerts

section Figs
variable (d : Bits) {s : FibDecoder} (sized : Sized s)
include sized

theorem extensionValue (typed : getBits3 d 0 = 0) :
    (processFig0Extension 32 s (getBits5 d 11)).run (getBits d) = some (s.processFig0Extension d (getBits5 d 11)) := by
  generalize same : getBits5 d 11 = extension
  match extension with
  | 0 => exact fig0s0Value d s
  | 1 => exact entryLoopValue d .fig0s1 typed same sized
  | 2 => exact entryLoopValue d .fig0s2 typed same sized
  | 3 => exact entryLoopValue d .fig0s3 typed same sized
  | 5 => exact entryLoopValue d .fig0s5 typed same sized
  | 7 => exact fig0s7Value d s
  | 8 => exact entryLoopValue d .fig0s8 typed same sized
  | 9 => exact fig0s9Value d s
  | 10 => exact fig0s10Value d s
  | 13 => exact entryLoopValue d .fig0s13 typed same sized
  | 14 => exact entryLoopValue d .fig0s14 typed same sized
  | 15 => exact fig0s15Value d s
  | 17 => exact fig0s17Value d s
  | 18 => exact fig0s18Value d s
  | 19 => exact fig0s19Value d s
  | 4 | 6 | 11 | 12 | 16 | _ + 20 => rfl

theorem fig0Value (typed : getBits3 d 0 = 0) : (processFig0 32 s).run (getBits d) = some (s.processFig0 d) := by
  have value : (processFig0Extension 32 s (getBits d 11 5)).run (getBits d) = _ := extensionValue d sized typed
  unfold FibDecoder.processFig0
  rw [processFig0,runFieldBind,runBindOf value,runIf]
  delta getBits5
  dsimp only
  split_ifs <;> rfl

variable (toQString : Nat → List Nat → List Nat)

theorem figValue : (processFig toQString 32 s (getBits3 d 0)).run (getBits d) = some (s.processFig toQString d) := by
  unfold FibDecoder.processFig
  generalize typed : getBits3 d 0 = figType
  match figType with
  | 0 => exact fig0Value d sized typed
  | 1 => exact fig1Value d toQString s
  | _ + 2 => rfl

theorem figSized : Sized (s.processFig toQString d) :=
  FibDecoder.passedKeeps sizedAppsKept (fun _ _ => trivial) (FibDecoder.figPassed (List.mem_singleton_self d) toQString s) sized

end Figs

section Fibs
variable (toQString : Nat → List Nat → List Nat) (fib : Bits)

theorem figAtBits (processedBytes first count : Nat) :
    getBits fib (8 * processedBytes + first) count = getBits (FibDecoder.figAt fib processedBytes) first count := by
  induction count with
  | zero => rfl
  | succ count ih => simp only [getBits,ih,FibDecoder.figAt,Nat.add_assoc]

theorem fibStepValue {s : FibDecoder} (sized : Sized s) (processedBytes : Nat) :
    (fibStep toQString 32 (s, processedBytes)).run (getBits fib) = some (if processedBytes < 30 then
        if FibDecoder.isEndMarker (FibDecoder.figAt fib processedBytes) then .inr s
        else if (s.processFig toQString (FibDecoder.figAt fib processedBytes)).restartFibDecoding then
          .inr (s.processFig toQString (FibDecoder.figAt fib processedBytes))
        else .inl (s.processFig toQString (FibDecoder.figAt fib processedBytes),
          processedBytes + getBits5 (FibDecoder.figAt fib processedBytes) 3 + 1) else .inr s) := by
  have header : getBits fib (8 * processedBytes) 3 = getBits3 (FibDecoder.figAt fib processedBytes) 0 := figAtBits fib processedBytes 0 3
  have length : getBits fib (8 * processedBytes + 3) 5 = getBits5 (FibDecoder.figAt fib processedBytes) 3 :=
    figAtBits fib processedBytes 3 5
  have shifted : ((processFig toQString 32 s (getBits3 (FibDecoder.figAt fib processedBytes) 0)).shift (8 * processedBytes)).run
      (getBits fib) = some (s.processFig toQString (FibDecoder.figAt fib processedBytes)) := by
    rw [runShift,← figValue (FibDecoder.figAt fib processedBytes) sized toQString]
    congr 1
    funext first count
    exact figAtBits fib processedBytes first count
  simp only [fibStep,runIf,runFieldBind,FibDecoder.isEndMarker,header,length,runBindOf shifted,runPure,decide_eq_true_eq]
  split_ifs <;> rfl

theorem fibRoundsEnough {fuel processedBytes : Nat} (enough : 30 ≤ processedBytes + fuel) (s : FibDecoder) :
    FibDecoder.fibRounds toQString fib (fuel + 1) s processedBytes = FibDecoder.fibRounds toQString fib fuel s processedBytes := by
  induction fuel generalizing s processedBytes with
  | zero =>
    have past : ¬ processedBytes < 30 := by omega
    simp only [FibDecoder.fibRounds,past,if_false]
  | succ fuel ih =>
    rw [FibDecoder.fibRounds,FibDecoder.fibRounds]
    simp only [ih (show 30 ≤ processedBytes + getBits5 (FibDecoder.figAt fib processedBytes) 3 + 1 + fuel by omega)]

theorem fibValue {s : FibDecoder} (sized : Sized s) :
    (processFib toQString 32 s).run (getBits fib) = some (s.processFib toQString fib) := by
  have enough : s.processFib toQString fib =
      FibDecoder.fibRounds toQString fib 32 { s with restartFibDecoding := false } 0 := by
    rw [fibRoundsEnough toQString fib (by decide),fibRoundsEnough toQString fib (by decide)]
    rfl
  rw [enough,processFib]
  refine loopValue (I := fun x => Sized x.1) (fun x : FibDecoder × Nat => 30 - x.2)
    (fun fuel x => FibDecoder.fibRounds toQString fib fuel x.1 x.2) ?_ sized (show 30 - 0 < 32 by decide)
  rintro ⟨t,processedBytes⟩ sizedNow
  refine ⟨_,fibStepValue toQString fib sizedNow processedBytes,fun fuel => ?_,fun y going => ?_⟩
  · simp only [FibDecoder.fibRounds]
    split_ifs <;> rfl
  · split_ifs at going with inside marker restarts
    cases going
    refine ⟨figSized _ sizedNow toQString,?_⟩
    dsimp only at inside ⊢
    omega

end Fibs

end DabStar.Fib.FibReads
