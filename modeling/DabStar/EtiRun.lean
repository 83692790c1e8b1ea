import DabStar.EtiGenerator

/-! Runs of complete DAB frames, from a start of the generator on. Call p brings symbol p % 75
+ 1, and the counters of the generator are a function of p. -/
namespace DabStar.EtiRun
open Fib EtiGenerator
variable {p : Nat} {s : EtiGenerator}

structure Call where
  fib : FibDecoder
  fic : FicData
  bits : Nat → Int

def cif (p : Nat) : Nat := 4 * (p / 75) + (p % 75 - 3) / 18

def fill (p : Nat) : Nat := (p % 75 - 3) % 18

theorem nextSymbol (p : Nat) : (p % 75 = 74 ∧ (p + 1) / 75 = p / 75 + 1 ∧ (p + 1) % 75 = 0) ∨
    (p % 75 < 74 ∧ (p + 1) / 75 = p / 75 ∧ (p + 1) % 75 = p % 75 + 1) := by omega

theorem cifNext (p : Nat) : cif (p + 1) = if 3 ≤ p % 75 ∧ fill p = 17 then cif p + 1 else cif p := by
  unfold cif fill
  rcases nextSymbol p with ⟨last,frame,symbol⟩ | ⟨inside,frame,symbol⟩
  · rw [frame,symbol,last]
    simp
    omega
  · rw [frame,symbol]
    generalize p % 75 = position at inside ⊢
    split <;> omega

theorem fillNext (p : Nat) : fill (p + 1) = if p % 75 < 3 ∨ fill p = 17 then 0 else fill p + 1 := by
  unfold fill
  rcases nextSymbol p with ⟨last,_,symbol⟩ | ⟨inside,_,symbol⟩
  · rw [symbol,last]
    simp
  · rw [symbol]
    generalize p % 75 = position at inside ⊢
    split <;> omega

theorem cifInFrame (p : Nat) : cif p % 4 = (p % 75 - 3) / 18 := by
  unfold cif
  omega

inductive Reached (call : Nat → Call) (start : EtiGenerator) : Nat → EtiGenerator → Prop where
  | first : Reached call start 0 start
  | next {p : Nat} {s t : EtiGenerator} {frame : Option (List Nat)} (before : Reached call start p s)
      (ok : (s.processBlock (call p).fib (call p).fic (call p).bits (p % 75 + 1)).result = some (t, frame)) :
      Reached call start (p + 1) t

def minorAt (p : Nat) : Int := if cif p % 4 = 0 ∨ 16 ≤ cif p then (cif p % 4 : Nat) else -1

/- The counters before call p. CIF 15 fills the store but advances no index, since its
frame had no FIBs imported after the warm-up. -/
structure Paced (p : Nat) (s : EtiGenerator) : Prop where
  file : s.etiFile = true
  running : 0 < p → s.running = true
  amount : s.amount = min (cif p) 15
  index : s.indexOut = if cif p ≤ 15 then cif p else (cif p - 1) % 16
  minor : 3 < p % 75 → s.minor = minorAt p
  counted : 3 < p % 75 → 0 ≤ s.cifCountHi ∧ 0 ≤ s.cifCountLo

theorem startPaced (s : EtiGenerator) : Paced 0 (s.startEtiGenerator true) := ⟨rfl,by simp,rfl,rfl,by simp,by simp⟩

theorem wakePaced (paced : Paced p s) (early : p % 75 < 3) : Paced (p + 1) (s.wake (p % 75 + 1)) := by
  have same : cif (p + 1) = cif p := by rw [cifNext,if_neg (by omega)]
  have symbol : (p + 1) % 75 ≤ 3 := by omega
  have on : (s.wake (p % 75 + 1)).running = true := by
    unfold wake
    split
    · rfl
    · rename_i awake
      cases off : s.running with
      | true => rfl
      | false =>
        have first : p = 0 := by
          by_contra later
          have running := paced.running (by omega)
          rw [off] at running
          cases running
        exact absurd ⟨off,paced.file,by omega⟩ awake
  obtain ⟨running,woken⟩ := s.wakeOthers (p % 75 + 1)
  rw [woken] at on ⊢
  refine ⟨paced.file,fun _ => on,?_,?_,fun late => absurd late (by omega),fun late => absurd late (by omega)⟩
  · rw [same]
    exact paced.amount
  · rw [same]
    exact paced.index

structure Ready (p : Nat) (s : EtiGenerator) : Prop where
  file : s.etiFile = true
  running : s.running = true
  amount : s.amount = min (cif p) 15
  index : s.indexOut = if cif p ≤ 15 then cif p else (cif p - 1) % 16
  minor : s.minor = minorAt p
  counted : 0 ≤ s.cifCountHi ∧ 0 ≤ s.cifCountLo

theorem finishPaced {s t : EtiGenerator} {fib : FibDecoder} {frame : Option (List Nat)} (ready : Ready p s)
    (last : 3 ≤ p % 75 ∧ fill p = 17) (ok : (s.finishCif fib).result = some (t, frame)) : Paced (p + 1) t := by
  have next : cif (p + 1) = cif p + 1 := by rw [cifNext,if_pos last]
  have amount := ready.amount
  have index := ready.index
  have minor := ready.minor
  have position : p % 75 = 18 * (cif p % 4) + 20 := by
    rw [cifInFrame]
    unfold fill at last
    omega
  unfold minorAt at minor
  have finished := finishCifCases s fib
  generalize s.finishCif fib = outcome at finished ok
  cases finished with
  | fills warming =>
    cases ok
    refine ⟨ready.file,fun _ => ready.running,?_,?_,?_,fun _ => ready.counted⟩
    · show s.amount + 1 = min (cif (p + 1)) 15
      omega
    · show (s.indexOut + 1) &&& 15 = _
      rw [Deinterleaver.maskSixteen,next]
      rw [if_pos (by omega)] at index ⊢
      omega
    · intro inside
      show (-1 : Int) = minorAt (p + 1)
      unfold minorAt
      rw [if_neg (by omega)]
  | uncounted filled unknown => exact absurd ready.counted (by omega)
  | idle filled early =>
    cases ok
    have fifteen : cif p = 15 := by split at minor <;> omega
    have closed : (p + 1) % 75 = 0 := by omega
    refine ⟨ready.file,fun _ => ready.running,?_,?_,fun inside => absurd inside (by omega),fun _ => ready.counted⟩
    · rw [next,amount,fifteen]
      rfl
    · rw [next,index,fifteen]
      rfl
  | writes filled started =>
    have late : 16 ≤ cif p := by split at minor <;> omega
    obtain ⟨protTable,descrambler,rfl⟩ := writeFrameState ok
    refine ⟨ready.file,fun _ => ready.running,?_,?_,?_,fun _ => ready.counted⟩
    · show s.amount = min (cif (p + 1)) 15
      omega
    · show (s.indexOut + 1) &&& 15 = _
      rw [Deinterleaver.maskSixteen,next,index]
      rw [if_neg (by omega),if_neg (by omega)]
      omega
    · intro inside
      show s.minor + 1 = minorAt (p + 1)
      unfold minorAt
      rw [if_pos (by omega)] at minor ⊢
      rcases nextSymbol p with ⟨_,_,symbol⟩ | ⟨earlier,_,_⟩
      · omega
      · have same : (cif p + 1) % 4 = cif p % 4 + 1 := by omega
        rw [next,same,minor]
        rfl

theorem takeReady (paced : Paced p s) (late : 3 ≤ p % 75) (call : Call) :
    Ready p (s.takeSymbol call.fib call.fic call.bits (p % 75 + 1)) := by
  have on := paced.running (by omega)
  have inFrame := cifInFrame p
  unfold takeSymbol
  obtain ⟨cifIn,same⟩ := storeExact (if p % 75 + 1 = 4 then s.importFibs call.fib call.fic else s) call.bits
    ((p % 75 + 1 - 4) % 18)
  rw [same]
  split
  · rename_i four
    have zero : cif p % 4 = 0 := by omega
    refine ⟨paced.file,on,paced.amount,paced.index,?_,Int.natCast_nonneg _,Int.natCast_nonneg _⟩
    unfold minorAt
    rw [zero]
    rfl
  · exact ⟨paced.file,on,paced.amount,paced.index,paced.minor (by omega),paced.counted (by omega)⟩

theorem readyInterleaved (ready : Ready p s) : Ready p s.interleaved := by
  obtain ⟨temp,cifVector,same⟩ := interleavedExact s
  rw [same]
  exact ⟨ready.file,ready.running,ready.amount,ready.index,ready.minor,ready.counted⟩

theorem readyPaced (ready : Ready p s) (inside : fill p ≠ 17) : Paced (p + 1) s := by
  have same : cif (p + 1) = cif p := by rw [cifNext,if_neg (by omega)]
  refine ⟨ready.file,fun _ => ready.running,?_,?_,fun _ => ?_,fun _ => ready.counted⟩
  · rw [same]
    exact ready.amount
  · rw [same]
    exact ready.index
  · unfold minorAt
    rw [same]
    exact ready.minor

theorem blockPaced {p : Nat} {s t : EtiGenerator} {call : Call} {frame : Option (List Nat)} (paced : Paced p s)
    (ok : (s.processBlock call.fib call.fic call.bits (p % 75 + 1)).result = some (t, frame)) : Paced (p + 1) t := by
  have processed := processBlockCases s call.fib call.fic call.bits (p % 75 + 1)
  generalize s.processBlock call.fib call.fic call.bits (p % 75 + 1) = outcome at processed ok
  cases processed with
  | stopped still off =>
    cases ok
    by_cases early : p % 75 < 3
    · rw [← still]
      exact wakePaced paced early
    · have on := paced.running (by omega)
      rw [off] at on
      cases on
  | early first =>
    cases ok
    exact wakePaced paced (by omega)
  | stores on late inside =>
    cases ok
    refine readyPaced (takeReady paced (by omega) call) ?_
    unfold fill
    omega
  | completes on late last =>
    simp only [completeCifResult] at ok
    refine finishPaced (readyInterleaved (takeReady paced (by omega) call)) ⟨by omega,?_⟩ ok
    unfold fill
    omega

theorem finishWrites (ready : Ready p s) (late : 16 ≤ cif p) (fib : FibDecoder) : s.finishCif fib = s.writeFrame fib := by
  have amount := ready.amount
  have minor := ready.minor
  have counted := ready.counted
  unfold minorAt at minor
  unfold finishCif
  rw [if_neg (by omega),if_neg (by omega),if_neg]
  rw [minor,if_pos (Or.inr late)]
  omega

def Writes (p : Nat) : Prop := 3 ≤ p % 75 ∧ fill p = 17 ∧ 16 ≤ cif p

structure Quiet (p : Nat) (fib : FibDecoder) (s t : EtiGenerator) : Prop where
  protTable : t.protTable = s.protTable
  descrambler : t.descrambler = s.descrambler
  list : t.subChIdList = if p % 75 = 3 then fib.getSubChannelIdList else s.subChIdList

theorem finishSilent (ready : Ready p s) (warming : cif p < 16) (fib : FibDecoder) :
    ∃ t, (s.finishCif fib).result = some (t, none) ∧ t.protTable = s.protTable ∧ t.descrambler = s.descrambler ∧
      t.subChIdList = s.subChIdList := by
  have finished := finishCifCases s fib
  generalize s.finishCif fib = outcome at finished ⊢
  cases finished with
  | fills | uncounted | idle => exact ⟨_,rfl,rfl,rfl,rfl⟩
  | writes filled started =>
    have amount := ready.amount
    have minor := ready.minor
    unfold minorAt at minor
    split at minor <;> omega

theorem takeQuiet (p : Nat) (s : EtiGenerator) (call : Call) :
    Quiet p call.fib s (s.takeSymbol call.fib call.fic call.bits (p % 75 + 1)) := by
  unfold takeSymbol
  obtain ⟨cifIn,same⟩ := storeExact (if p % 75 + 1 = 4 then s.importFibs call.fib call.fic else s) call.bits
    ((p % 75 + 1 - 4) % 18)
  rw [same]
  split
  · exact ⟨rfl,rfl,(if_pos (by omega)).symm⟩
  · exact ⟨rfl,rfl,(if_neg (by omega)).symm⟩

theorem blockSilent (paced : Paced p s) (silent : ¬Writes p) (call : Call) :
    ∃ t, (s.processBlock call.fib call.fic call.bits (p % 75 + 1)).result = some (t, none) ∧ Quiet p call.fib s t := by
  have processed := processBlockCases s call.fib call.fic call.bits (p % 75 + 1)
  have taken := takeQuiet p s call
  generalize s.processBlock call.fib call.fic call.bits (p % 75 + 1) = outcome at processed ⊢
  cases processed with
  | stopped still off =>
    refine ⟨_,rfl,rfl,rfl,(if_neg ?_).symm⟩
    intro four
    have on := paced.running (by omega)
    rw [off] at on
    cases on
  | early first =>
    obtain ⟨running,woken⟩ := s.wakeOthers (p % 75 + 1)
    rw [woken]
    exact ⟨_,rfl,rfl,rfl,(if_neg (by omega)).symm⟩
  | stores => exact ⟨_,rfl,taken⟩
  | completes on late last =>
    have warming : cif p < 16 := by
      unfold Writes fill at silent
      omega
    obtain ⟨t,ok,protTable,descrambler,list⟩ := finishSilent (readyInterleaved (takeReady paced (by omega) call)) warming call.fib
    obtain ⟨temp,cifVector,same⟩ := interleavedExact (s.takeSymbol call.fib call.fic call.bits (p % 75 + 1))
    simp only [same] at protTable descrambler list
    simp only [completeCifResult]
    exact ⟨t,ok,protTable.trans taken.protTable,descrambler.trans taken.descrambler,list.trans taken.list⟩

theorem blockWrites (paced : Paced p s) (writes : Writes p) (call : Call) :
    let u := (s.takeSymbol call.fib call.fic call.bits (p % 75 + 1)).interleaved
    (s.processBlock call.fib call.fic call.bits (p % 75 + 1)).result = (u.writeFrame call.fib).result ∧
      (s.processBlock call.fib call.fic call.bits (p % 75 + 1)).decodes = (u.writeFrame call.fib).decodes := by
  obtain ⟨late,last,warm⟩ := writes
  unfold fill at last
  have processed := processBlockCases s call.fib call.fic call.bits (p % 75 + 1)
  have finish := finishWrites (readyInterleaved (takeReady paced late call)) warm call.fib
  generalize s.processBlock call.fib call.fic call.bits (p % 75 + 1) = outcome at processed ⊢
  cases processed with
  | stopped _ off =>
    have on := paced.running (by omega)
    rw [off] at on
    cases on
  | early first | stores _ _ inside => omega
  | completes =>
    simp only [completeCifResult,completeCifDecodes,finish,and_self]

theorem interleavedQuiet {fib : FibDecoder} {s t : EtiGenerator} (quiet : Quiet p fib s t) : Quiet p fib s t.interleaved := by
  obtain ⟨temp,cifVector,same⟩ := interleavedExact t
  rw [same]
  exact ⟨quiet.protTable,quiet.descrambler,quiet.list⟩

def blocks (fic : FicData) (bits : Nat → Int) (p count : Nat) : List EtiSystem.Event :=
  (List.range count).map (fun k => .block fic bits ((p + k) % 75 + 1))

structure Silent (s : EtiSystem) (p : Nat) (t : EtiSystem) : Prop where
  paced : Paced p t.eti
  going : t.ended = false
  fib : t.fib = s.fib
  protTable : t.eti.protTable = s.eti.protTable
  descrambler : t.eti.descrambler = s.eti.descrambler

variable (toQString : Nat → List Nat → List Nat)

theorem silentStep {s t : EtiSystem} (before : Silent s p t) (silent : ¬Writes p) (fic : FicData) (bits : Nat → Int) :
    Silent s (p + 1) (EtiSystem.step toQString t (.block fic bits (p % 75 + 1))) ∧
      (EtiSystem.step toQString t (.block fic bits (p % 75 + 1))).eti.subChIdList =
        if p % 75 = 3 then s.fib.getSubChannelIdList else t.eti.subChIdList := by
  obtain ⟨u,ok,quiet⟩ := blockSilent before.paced silent ⟨t.fib,fic,bits⟩
  have paced := @blockPaced _ _ _ ⟨t.fib,fic,bits⟩ _ before.paced ok
  have list := quiet.list
  dsimp only at ok list
  unfold EtiSystem.step
  simp only [before.going,ok,Bool.false_eq_true,if_false]
  rw [before.fib] at list
  exact ⟨⟨paced,rfl,before.fib,quiet.protTable.trans before.protTable,quiet.descrambler.trans before.descrambler⟩,list⟩

theorem silentRun {s : EtiSystem} (paced : Paced p s.eti) (going : s.ended = false) (fic : FicData) (bits : Nat → Int) {count : Nat}
    (silent : ∀ k < count, ¬Writes (p + k)) : Silent s (p + count) (EtiSystem.run toQString s (blocks fic bits p count)) ∧
      ((3 < p → s.eti.subChIdList = s.fib.getSubChannelIdList) → 3 < p + count →
        (EtiSystem.run toQString s (blocks fic bits p count)).eti.subChIdList = s.fib.getSubChannelIdList) := by
  induction count with
  | zero => exact ⟨⟨paced,going,rfl,rfl,rfl⟩,fun listed => listed⟩
  | succ count ih =>
    obtain ⟨before,listed⟩ := ih (fun k less => silent k (by omega))
    have run : EtiSystem.run toQString s (blocks fic bits p (count + 1)) = EtiSystem.step toQString
        (EtiSystem.run toQString s (blocks fic bits p count)) (.block fic bits ((p + count) % 75 + 1)) := by
      unfold EtiSystem.run blocks
      rw [List.range_succ,List.map_append,List.foldl_append]
      rfl
    obtain ⟨after,list⟩ := silentStep toQString before (silent count (by omega)) fic bits
    rw [run]
    refine ⟨after,fun start late => ?_⟩
    rw [list]
    split
    · rfl
    · exact listed start (by omega)

theorem warmUpRun (toQString : Nat → List Nat → List Nat) (fib : FibDecoder) (fic : FicData) (bits : Nat → Int)
    {count : Nat} (warming : count ≤ 320) : let s : EtiSystem := { fib := fib, eti := EtiGenerator.startEtiGenerator {} true }
    Silent s count (EtiSystem.run toQString s (blocks fic bits 0 count)) ∧ (3 < count →
      (EtiSystem.run toQString s (blocks fic bits 0 count)).eti.subChIdList = fib.getSubChannelIdList) := by
  have quiet : ∀ k < count, ¬Writes (0 + k) := by
    intro k less
    unfold Writes cif fill
    omega
  have run := silentRun toQString (s := { fib := fib, eti := EtiGenerator.startEtiGenerator {} true }) (startPaced {}) rfl
    fic bits quiet
  rw [Nat.zero_add] at run
  exact ⟨run.1,run.2 (fun late => absurd late (by decide))⟩

end DabStar.EtiRun
