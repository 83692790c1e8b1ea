import DabStar.Lib.DelayLine
import DabStar.Mp4Processor

/-! Synchronisation to DAB+ superframes. Every superframe handed over is made of the last five
frames, and the sync counter tells the failures since the last success. The bytes of a frame
are counted in 16 bits. -/
namespace DabStar.Mp4Processor
open List

structure Same (s t : Mp4Processor) : Prop where
  mBitRate : t.mBitRate = s.mBitRate
  mRsDims : t.mRsDims = s.mRsDims
  mBlockFillIndex : t.mBlockFillIndex = s.mBlockFillIndex
  mBlocksInBuffer : t.mBlocksInBuffer = s.mBlocksInBuffer
  mSuperFrameSync : t.mSuperFrameSync = s.mSuperFrameSync
  mFrameByteVec : t.mFrameByteVec = s.mFrameByteVec
  mOutVec : t.mOutVec.length = s.mOutVec.length

section
variable (s : Mp4Processor)

theorem sameRefl : Same s s := ⟨rfl,rfl,rfl,rfl,rfl,rfl,rfl⟩

theorem sameTrans {s t u : Mp4Processor} (first : Same s t) (second : Same t u) : Same s u :=
  ⟨second.mBitRate.trans first.mBitRate,second.mRsDims.trans first.mRsDims,
    second.mBlockFillIndex.trans first.mBlockFillIndex,second.mBlocksInBuffer.trans first.mBlocksInBuffer,
    second.mSuperFrameSync.trans first.mSuperFrameSync,second.mFrameByteVec.trans first.mFrameByteVec,
    second.mOutVec.trans first.mOutVec⟩

variable (frameBytes : List U8)

theorem rsColumnSame (base : Int) (j : Nat) : Same s (s.rsColumn frameBytes base j).1 := by
  unfold rsColumn
  generalize mRsDecoder.dec (s.rsIn frameBytes base j) 135 = decoded
  generalize range 110 = cells
  obtain ⟨ler,rsOut⟩ := decoded
  dsimp only
  split
  · exact ⟨rfl,rfl,rfl,rfl,rfl,rfl,Lib.DelayLine.setLength _ _ _ _⟩
  · split <;> exact ⟨rfl,rfl,rfl,rfl,rfl,rfl,Lib.DelayLine.setLength _ _ _ _⟩

theorem rsColumnsSame (base : Int) (js : List Nat) (s : Mp4Processor) : Same s (rsColumns frameBytes base js s).1 := by
  induction js generalizing s with
  | nil => exact sameRefl s
  | cons j js ih => exact sameTrans (rsColumnSame s frameBytes base j) (ih _)

theorem reedSolomonSame (base : Int) : Same s (s.processReedSolomonFrame frameBytes base).2.1 := by
  have columns := rsColumnsSame frameBytes base (range s.mRsDims.toNat) s
  unfold processReedSolomonFrame
  exact sameTrans columns ⟨rfl,rfl,rfl,rfl,rfl,rfl,FirecodeChecker.correctLength _⟩

variable (backend : AacBackend)

theorem processUnitSame (sp : SStreamParms) (auIdx : Nat) (auStart auNext : Int) :
    Same s (s.processUnit backend sp auIdx auStart auNext).next := by
  unfold processUnit
  dsimp only
  split
  · exact ⟨rfl,rfl,rfl,rfl,rfl,rfl,rfl⟩
  · split
    · dsimp only
      split
      · exact ⟨rfl,rfl,rfl,rfl,rfl,rfl,rfl⟩
      · exact sameRefl s
    · exact ⟨rfl,rfl,rfl,rfl,rfl,rfl,rfl⟩

theorem countAacFrameSame (step : Step) : Same step.next (countAacFrame step).next := by
  unfold countAacFrame
  split <;> exact ⟨rfl,rfl,rfl,rfl,rfl,rfl,rfl⟩

theorem processUnitsSame (sp : SStreamParms) (starts : List Int) (auIdx : Nat) (s : Mp4Processor) :
    Same s (processUnits backend sp starts auIdx s).next := by
  induction starts generalizing auIdx s with
  | nil => exact sameRefl s
  | cons auStart rest ih =>
    cases rest with
    | nil => exact sameRefl s
    | cons auNext rest =>
      have unit := sameTrans (processUnitSame s backend sp auIdx auStart auNext) (countAacFrameSame _)
      exact sameTrans unit (ih (auIdx + 1) _)

theorem superFrameSame (frameBytes : List U8) (base : Int) : Same s (s.processSuperFrame backend frameBytes base).2.next := by
  have corrected := reedSolomonSame s frameBytes base
  unfold processSuperFrame
  generalize s.processReedSolomonFrame frameBytes base = out at corrected
  obtain ⟨ok,t,signals⟩ := out
  dsimp only
  split
  · exact sameTrans corrected (processUnitsSame backend _ _ 0 t)
  · exact corrected

theorem countFrameSame : Same s s.countFrame.1 := by
  unfold countFrame
  split <;> exact ⟨rfl,rfl,rfl,rfl,rfl,rfl,rfl⟩

end

theorem sameBase {s t : Mp4Processor} (same : Same s t) : t.iBase = s.iBase := by
  unfold iBase numBytes
  rw [same.mBlockFillIndex,same.mBitRate]

structure Moves (s : Mp4Processor) (iV : List Bool) (t : Mp4Processor) : Prop where
  mBitRate : t.mBitRate = s.mBitRate
  mRsDims : t.mRsDims = s.mRsDims
  mBlockFillIndex : t.mBlockFillIndex = (s.mBlockFillIndex + 1) % 5
  mFrameByteVec : t.mFrameByteVec = (s.storeFrame iV).mFrameByteVec

inductive Added (s : Mp4Processor) (iV : List Bool) (o : Outcome) : Prop where
  | stores (few : s.mBlocksInBuffer < 4) (attempted : o.attempted = false) (handed : o.handed = none)
      (blocks : o.next.mBlocksInBuffer = s.mBlocksInBuffer + 1) (sync : o.next.mSuperFrameSync = s.mSuperFrameSync)
  | misses (full : 4 ≤ s.mBlocksInBuffer) (unsynced : s.mSuperFrameSync = 0)
      (header : FirecodeChecker.check (slice (s.storeFrame iV).mFrameByteVec (s.storeFrame iV).iBase 11) = false)
      (attempted : o.attempted = true) (handed : o.handed = none) (blocks : o.next.mBlocksInBuffer = 4) (sync : o.next.mSuperFrameSync = 0)
  | succeeds (full : 4 ≤ s.mBlocksInBuffer) (attempted : o.attempted = true)
      (handed : o.handed = some ⟨(s.storeFrame iV).mFrameByteVec,(s.storeFrame iV).iBase,true⟩)
      (blocks : o.next.mBlocksInBuffer = 0) (sync : o.next.mSuperFrameSync = 4)
  | fails (full : 4 ≤ s.mBlocksInBuffer) (attempted : o.attempted = true)
      (handed : o.handed = some ⟨(s.storeFrame iV).mFrameByteVec,(s.storeFrame iV).iBase,false⟩)
      (blocks : o.next.mBlocksInBuffer = if o.next.mSuperFrameSync = 0 then 4 else 0)
      (sync : o.next.mSuperFrameSync = (if s.mSuperFrameSync = 0 then 4 else s.mSuperFrameSync) - 1)

theorem addedSignals {s : Mp4Processor} {iV : List Bool} {o : Outcome} (added : Added s iV o) (signals : List Mp4Signal) :
    Added s iV { o with signals := signals } := by
  cases added with
  | stores few attempted handed blocks sync => exact .stores few attempted handed blocks sync
  | misses full unsynced header attempted handed blocks sync =>
    exact .misses full unsynced header attempted handed blocks sync
  | succeeds full attempted handed blocks sync => exact .succeeds full attempted handed blocks sync
  | fails full attempted handed blocks sync => exact .fails full attempted handed blocks sync

theorem acceptedExact (s : Mp4Processor) : s.accepted.1.mSuperFrameSync = 4 ∧ Same { s with mSuperFrameSync := 4 } s.accepted.1 := by
  unfold accepted
  dsimp only
  split <;> exact ⟨rfl,rfl,rfl,rfl,rfl,rfl,rfl,rfl⟩

theorem rejectedExact (s : Mp4Processor) : s.rejected.mSuperFrameSync = s.mSuperFrameSync - 1 ∧
    s.rejected.mBlocksInBuffer = (if s.mSuperFrameSync - 1 = 0 then 4 else s.mBlocksInBuffer) ∧
    s.rejected.mBitRate = s.mBitRate ∧ s.rejected.mRsDims = s.mRsDims ∧
    s.rejected.mBlockFillIndex = s.mBlockFillIndex ∧ s.rejected.mFrameByteVec = s.mFrameByteVec := by
  unfold rejected
  dsimp only
  split <;> exact ⟨rfl,rfl,rfl,rfl,rfl,rfl⟩

theorem handOverCases {s : Mp4Processor} {iV : List Bool} {t : Mp4Processor} (moves : Moves s iV t)
    (full : 4 ≤ s.mBlocksInBuffer) (base : t.iBase = (s.storeFrame iV).iBase)
    (sync : t.mSuperFrameSync = if s.mSuperFrameSync = 0 then 4 else s.mSuperFrameSync) (backend : AacBackend) :
    Moves s iV (t.handOver backend).next ∧ Added s iV (t.handOver backend) := by
  have same := superFrameSame { t with mBlocksInBuffer := 0 } backend t.mFrameByteVec t.iBase
  unfold handOver
  dsimp only
  rw [show ({ t with mBlocksInBuffer := 0 } : Mp4Processor).iBase = t.iBase from rfl]
  generalize ({ t with mBlocksInBuffer := 0 } : Mp4Processor).processSuperFrame backend t.mFrameByteVec t.iBase = out at *
  obtain ⟨ok,step⟩ := out
  cases ok with
  | true =>
    obtain ⟨counter,rest⟩ := acceptedExact step.next
    refine ⟨⟨?_,?_,?_,?_⟩,.succeeds full rfl ?_ ?_ counter⟩
    · exact rest.mBitRate.trans (same.mBitRate.trans moves.mBitRate)
    · exact rest.mRsDims.trans (same.mRsDims.trans moves.mRsDims)
    · exact rest.mBlockFillIndex.trans (same.mBlockFillIndex.trans moves.mBlockFillIndex)
    · exact rest.mFrameByteVec.trans (same.mFrameByteVec.trans moves.mFrameByteVec)
    · rw [← moves.mFrameByteVec,← base]
    · exact rest.mBlocksInBuffer.trans same.mBlocksInBuffer
  | false =>
    obtain ⟨counter,blocks,bitRate,dims,fill,vec⟩ := rejectedExact step.next
    have counted : step.next.mSuperFrameSync = t.mSuperFrameSync := same.mSuperFrameSync
    refine ⟨⟨?_,?_,?_,?_⟩,.fails full rfl ?_ ?_ ?_⟩
    · exact bitRate.trans (same.mBitRate.trans moves.mBitRate)
    · exact dims.trans (same.mRsDims.trans moves.mRsDims)
    · exact fill.trans (same.mBlockFillIndex.trans moves.mBlockFillIndex)
    · exact vec.trans (same.mFrameByteVec.trans moves.mFrameByteVec)
    · rw [← moves.mFrameByteVec,← base]
    · show step.next.rejected.mBlocksInBuffer = if step.next.rejected.mSuperFrameSync = 0 then 4 else 0
      rw [blocks,counter,same.mBlocksInBuffer]
    · show step.next.rejected.mSuperFrameSync = _
      rw [counter,counted,sync]

theorem addToFrameCases (s : Mp4Processor) (backend : AacBackend) (iV : List Bool) :
    Moves s iV (s.addToFrame backend iV).next ∧ Added s iV (s.addToFrame backend iV) := by
  have counted := countFrameSame (s.storeFrame iV)
  unfold addToFrame
  dsimp only
  split
  · rename_i full
    have full : 4 ≤ s.mBlocksInBuffer := Nat.le_of_succ_le_succ full
    generalize (s.storeFrame iV).countFrame = out at counted
    obtain ⟨t,signals⟩ := out
    have moves : Moves s iV t := ⟨counted.mBitRate,counted.mRsDims,counted.mBlockFillIndex,counted.mFrameByteVec⟩
    have sync : t.mSuperFrameSync = s.mSuperFrameSync := counted.mSuperFrameSync
    have base := sameBase counted
    dsimp only at counted ⊢
    by_cases unsynced : t.mSuperFrameSync = 0
    · by_cases header : FirecodeChecker.check (slice t.mFrameByteVec t.iBase 11) = true
      · have found : t.search = { t with mSuperFrameSync := 4 } := by
          unfold search
          rw [if_pos unsynced,if_pos header]
        have synced : ({ t with mSuperFrameSync := 4 } : Mp4Processor).mSuperFrameSync ≠ 0 := four_ne_zero
        have moved : Moves s iV { t with mSuperFrameSync := 4 } :=
          ⟨moves.mBitRate,moves.mRsDims,moves.mBlockFillIndex,moves.mFrameByteVec⟩
        have handed := handOverCases moved full base (by rw [if_pos (sync.symm.trans unsynced)]) backend
        rw [found,if_pos synced]
        exact ⟨handed.1,addedSignals handed.2 _⟩
      · have missed : t.search = { t with mBlocksInBuffer := 4 } := by
          unfold search
          rw [if_pos unsynced,if_neg header]
        rw [missed,if_neg (not_not.mpr unsynced)]
        exact ⟨⟨moves.mBitRate,moves.mRsDims,moves.mBlockFillIndex,moves.mFrameByteVec⟩,
          .misses full (sync.symm.trans unsynced) (by rwa [← moves.mFrameByteVec,← base,← Bool.not_eq_true]) rfl rfl rfl
            unsynced⟩
    · have kept : t.search = t := by
        unfold search
        rw [if_neg unsynced]
      have handed := handOverCases moves full base (by rw [sync,if_neg (sync ▸ unsynced)]) backend
      rw [kept,if_pos unsynced]
      exact ⟨handed.1,addedSignals handed.2 _⟩
  · rename_i few
    have few : s.mBlocksInBuffer < 4 := Nat.lt_of_succ_lt_succ (not_le.mp few)
    exact ⟨⟨rfl,rfl,rfl,rfl⟩,.stores few rfl rfl rfl rfl⟩

section Runs
variable {s : Mp4Processor}

def before (iBitRate : Int) (backend : Nat → AacBackend) (x : Nat → List Bool) : Nat → Mp4Processor
  | 0 => newMp4Processor iBitRate
  | n + 1 => ((before iBitRate backend x n).addToFrame (backend n) (x n)).next

def outcome (iBitRate : Int) (backend : Nat → AacBackend) (x : Nat → List Bool) (n : Nat) : Outcome :=
  (before iBitRate backend x n).addToFrame (backend n) (x n)

def lastFive (x : Nat → List Bool) (n size i : Nat) : U8 := frameByte (x (n - 4 + i / size)) (i % size)

variable {iBitRate : Int} {backend : Nat → AacBackend} {x : Nat → List Bool} {n size : Nat}

structure Buffered (x : Nat → List Bool) (size n : Nat) (s : Mp4Processor) : Prop where
  numBytes : s.numBytes = size
  dims : 24 * s.mRsDims = size
  fill : s.mBlockFillIndex = n % 5
  length : s.mFrameByteVec.length = 5 * size
  frames : ∀ i < size, Lib.DelayLine.Holds 5 (fun k => s.mFrameByteVec.getD (k * size + i) 0#8)
    (fun h => if h < 5 then 0#8 else frameByte (x (h - 5)) i) n

theorem newBuffered (positive : 0 < iBitRate) (eights : iBitRate % 8 = 0) (small : iBitRate ≤ 1365) (x : Nat → List Bool) :
    Buffered x (3 * iBitRate).toNat 0 (newMp4Processor iBitRate) := by
  have rate : toI16 iBitRate = iBitRate := Int.bmod_eq_of_le (by omega) (by omega)
  have bits : toI16 (24 * iBitRate) = 24 * iBitRate := Int.bmod_eq_of_le (by omega) (by omega)
  have dims : (newMp4Processor iBitRate).mRsDims = iBitRate / 8 := by
    show (toI16 iBitRate).tdiv 8 = iBitRate / 8
    rw [rate,Int.tdiv_eq_ediv_of_nonneg (by omega)]
  have bytes : (newMp4Processor iBitRate).numBytes = 3 * iBitRate := by
    show (toI16 (24 * toI16 iBitRate)).tdiv 8 = 3 * iBitRate
    rw [rate,bits,Int.tdiv_eq_ediv_of_nonneg (by omega)]
    omega
  have vec : (newMp4Processor iBitRate).mFrameByteVec = replicate ((newMp4Processor iBitRate).mRsDims * 120).toNat 0#8 := rfl
  refine ⟨by omega,by omega,rfl,?_,?_⟩
  · rw [vec,length_replicate]
    omega
  · intro i inside
    rw [vec]
    refine Lib.DelayLine.holdsStart (fun k slot => ?_)
    rw [if_pos slot,getD_eq_getElem?_getD,getElem?_replicate]
    split <;> rfl

theorem storeBuffered (buffered : Buffered x size n s) : (s.storeFrame (x n)).mFrameByteVec.length = 5 * size ∧
    ∀ i < size, Lib.DelayLine.Holds 5 (fun k => (s.storeFrame (x n)).mFrameByteVec.getD (k * size + i) 0#8)
      (fun h => if h < 5 then 0#8 else frameByte (x (h - 5)) i) (n + 1) := by
  have slot : n % 5 < 5 := Nat.mod_lt n (by decide)
  have bytes : (s.storeFrame (x n)).mFrameByteVec = (range size).foldl (fun vec i =>
      vec.set (n % 5 * size + i) (frameByte (x n) i)) s.mFrameByteVec := by
    unfold storeFrame
    rw [buffered.numBytes,buffered.fill,Int.toNat_natCast]
  have room : n % 5 * size + size ≤ s.mFrameByteVec.length := by
    rw [buffered.length]
    nlinarith
  have cells := fun j => Lib.DelayLine.storeCells (frameByte (x n)) (n % 5 * size) room j 0#8
  rw [bytes]
  refine ⟨(Lib.DelayLine.setLength _ _ _ _).trans buffered.length,fun i inside => ?_⟩
  refine Lib.DelayLine.holdsWrite (buffered.frames i inside) ?_ (fun k small other => ?_)
  · rw [cells,if_pos ⟨Nat.le_add_right _ _,by omega⟩,if_neg (by omega),Nat.add_sub_cancel_left,Nat.add_sub_cancel]
  · rw [cells,if_neg]
    rintro ⟨low,high⟩
    rcases Nat.lt_or_gt_of_ne other with less | more
    · have apart : (k + 1) * size ≤ n % 5 * size := Nat.mul_le_mul_right size less
      rw [Nat.add_mul] at apart
      omega
    · have apart : (n % 5 + 1) * size ≤ k * size := Nat.mul_le_mul_right size more
      rw [Nat.add_mul] at apart
      omega

theorem storedBase (buffered : Buffered x size n s) : (s.storeFrame (x n)).iBase = (((n + 1) % 5 * size : Nat) : Int) := by
  have fill : (s.storeFrame (x n)).mBlockFillIndex = (n + 1) % 5 := by
    show (s.mBlockFillIndex + 1) % 5 = (n + 1) % 5
    rw [buffered.fill]
    omega
  have bytes : (s.storeFrame (x n)).numBytes = size := buffered.numBytes
  unfold iBase
  rw [fill,bytes]
  push_cast
  rfl

theorem storedLastFive (buffered : Buffered x size n s) (late : 4 ≤ n) {i : Nat} (inside : i < 5 * size) :
    byteOf (s.storeFrame (x n)).mFrameByteVec (((s.storeFrame (x n)).iBase + i) % (5 * size)) = lastFive x n size i := by
  have frame : i / size < 5 := Nat.div_lt_of_lt_mul (by rwa [Nat.mul_comm])
  have byte : i % size < size := Nat.mod_lt i (by omega)
  have parts : size * (i / size) + i % size = i := Nat.div_add_mod i size
  have base := storedBase buffered
  have place : ((n + 1) % 5 * size + i) % (5 * size) = (n + 1 + i / size) % 5 * size + i % size := by
    have turns : (n + 1) % 5 * size + i = 5 * size * (((n + 1) % 5 + i / size) / 5) + ((n + 1 + i / size) % 5 * size + i % size) := by
      have whole : (n + 1) % 5 + i / size = 5 * (((n + 1) % 5 + i / size) / 5) + (n + 1 + i / size) % 5 := by omega
      calc (n + 1) % 5 * size + i = ((n + 1) % 5 + i / size) * size + i % size := by
            rw [Nat.add_mul,Nat.mul_comm (i / size),Nat.add_assoc,parts]
        _ = (5 * (((n + 1) % 5 + i / size) / 5) + (n + 1 + i / size) % 5) * size + i % size := by rw [← whole]
        _ = _ := by ring
    have last : (n + 1 + i / size) % 5 < 5 := Nat.mod_lt _ (by decide)
    rw [turns,Nat.mul_add_mod,Nat.mod_eq_of_lt (by nlinarith)]
  have cell := (storeBuffered buffered).2 (i % size) byte (i / size) frame
  rw [base,show (((n + 1) % 5 * size : Nat) : Int) + i = (((n + 1) % 5 * size + i : Nat) : Int) by push_cast; rfl,
    show (5 * size : Int) = ((5 * size : Nat) : Int) by push_cast; rfl,← Int.natCast_emod,place]
  unfold byteOf lastFive
  rw [if_neg (by omega),Int.toNat_natCast]
  refine cell.trans ?_
  dsimp only
  generalize i / size = arrival
  rw [if_neg (by omega),show n + 1 + arrival - 5 = n - 4 + arrival by omega]

/- Before frame n: without sync every frame from the fifth on is tried; with sync the
last attempt is as old as the blocks since then, and the counter tells the failures. -/
structure Tracked (iBitRate : Int) (backend : Nat → AacBackend) (x : Nat → List Bool) (n : Nat) (s : Mp4Processor) :
    Prop where
  blocks : s.mBlocksInBuffer ≤ 4
  sync : 0 ≤ s.mSuperFrameSync ∧ s.mSuperFrameSync ≤ 4
  searching : s.mSuperFrameSync = 0 → s.mBlocksInBuffer = min n 4
  following : s.mSuperFrameSync ≠ 0 → ∃ last, n = last + 1 + s.mBlocksInBuffer ∧ 4 ≤ last ∧
    ∀ k : Nat, s.mSuperFrameSync + k < 4 → 5 * k ≤ last ∧
      ∃ f, (outcome iBitRate backend x (last - 5 * k)).handed = some f ∧ f.ok = false

theorem fullLate (tracked : Tracked iBitRate backend x n s) (full : 4 ≤ s.mBlocksInBuffer) : 4 ≤ n := by
  by_cases unsynced : s.mSuperFrameSync = 0
  · have blocks := tracked.searching unsynced
    omega
  · obtain ⟨last,now,late,_⟩ := tracked.following unsynced
    omega

theorem outcomeAdded (iBitRate : Int) (backend : Nat → AacBackend) (x : Nat → List Bool) (n : Nat) :
    Added (before iBitRate backend x n) (x n) (outcome iBitRate backend x n) := (addToFrameCases _ _ _).2

theorem failsTracked (tracked : Tracked iBitRate backend x n s)
    (full : 4 ≤ s.mBlocksInBuffer) {f : SuperFrame} (handed : (outcome iBitRate backend x n).handed = some f)
    (rejected : f.ok = false) {sync : Int}
    (counted : sync = (if s.mSuperFrameSync = 0 then 4 else s.mSuperFrameSync) - 1) (k : Nat) (failures : sync + k < 4) :
    5 * k ≤ n ∧ ∃ f, (outcome iBitRate backend x (n - 5 * k)).handed = some f ∧ f.ok = false := by
  cases k with
  | zero => exact ⟨Nat.zero_le n,f,handed,rejected⟩
  | succ k =>
    have range := tracked.sync
    by_cases unsynced : s.mSuperFrameSync = 0
    · rw [if_pos unsynced] at counted
      omega
    · rw [if_neg unsynced] at counted
      obtain ⟨last,now,late,earlier⟩ := tracked.following unsynced
      have blocks := tracked.blocks
      obtain ⟨room,failed⟩ := earlier k (by omega)
      refine ⟨by omega,?_⟩
      rwa [show n - 5 * (k + 1) = last - 5 * k by omega]

theorem beforeTracked (iBitRate : Int) (backend : Nat → AacBackend) (x : Nat → List Bool) (n : Nat) :
    Tracked iBitRate backend x n (before iBitRate backend x n) := by
  induction n with
  | zero => exact ⟨Nat.zero_le 4,⟨le_refl 0,Int.zero_le_ofNat 4⟩,fun _ => rfl,fun synced => absurd rfl synced⟩
  | succ n ih =>
    have added := outcomeAdded iBitRate backend x n
    have failures := failsTracked ih
    show Tracked iBitRate backend x (n + 1) (outcome iBitRate backend x n).next
    have range := ih.sync
    cases added with
    | stores few _ _ blocks sync =>
      refine ⟨by omega,by omega,fun unsynced => ?_,fun synced => ?_⟩
      · have waiting := ih.searching (by omega)
        omega
      · obtain ⟨last,now,late,earlier⟩ := ih.following (by omega)
        exact ⟨last,by omega,late,fun k more => earlier k (by omega)⟩
    | misses full unsynced _ _ _ blocks sync =>
      have late := fullLate ih full
      exact ⟨by omega,by omega,fun _ => by omega,fun synced => absurd sync synced⟩
    | succeeds full _ _ blocks sync =>
      have late := fullLate ih full
      exact ⟨by omega,by omega,fun unsynced => by omega,fun _ => ⟨n,by omega,late,fun k more => by omega⟩⟩
    | fails full _ handed blocks sync =>
      have late := fullLate ih full
      have counter : 0 ≤ (outcome iBitRate backend x n).next.mSuperFrameSync ∧ (outcome iBitRate backend x n).next.mSuperFrameSync ≤ 3 := by
        rw [sync]
        split <;> omega
      refine ⟨by rw [blocks]; split <;> omega,by omega,fun unsynced => ?_,fun synced => ?_⟩
      · rw [blocks,if_pos unsynced]
        omega
      · rw [if_neg synced] at blocks
        exact ⟨n,by omega,late,fun k more => failures full handed rfl sync k more⟩

theorem beforeBuffered (positive : 0 < iBitRate) (eights : iBitRate % 8 = 0) (small : iBitRate ≤ 1365)
    (backend : Nat → AacBackend) (x : Nat → List Bool) (n : Nat) : Buffered x (3 * iBitRate).toNat n (before iBitRate backend x n) := by
  induction n with
  | zero => exact newBuffered positive eights small x
  | succ n ih =>
    have moves := (addToFrameCases (before iBitRate backend x n) (backend n) (x n)).1
    obtain ⟨length,frames⟩ := storeBuffered ih
    show Buffered x _ (n + 1) (outcome iBitRate backend x n).next
    change Moves _ _ (outcome iBitRate backend x n).next at moves
    refine ⟨?_,?_,?_,?_,?_⟩
    · rw [← ih.numBytes]
      unfold numBytes
      rw [moves.mBitRate]
    · rw [moves.mRsDims,ih.dims]
    · rw [moves.mBlockFillIndex,ih.fill]
      omega
    · rw [moves.mFrameByteVec,length]
    · rw [moves.mFrameByteVec]
      exact frames

theorem attemptedIff (iBitRate : Int) (backend : Nat → AacBackend) (x : Nat → List Bool) (n : Nat) :
    (outcome iBitRate backend x n).attempted = true ↔ 4 ≤ (before iBitRate backend x n).mBlocksInBuffer := by
  have added := outcomeAdded iBitRate backend x n
  cases added with
  | stores few attempted =>
    rw [attempted]
    exact ⟨fun impossible => absurd impossible Bool.false_ne_true,fun full => by omega⟩
  | misses full _ _ attempted | succeeds full attempted | fails full attempted => exact ⟨fun _ => full,fun _ => attempted⟩

theorem blocksAfter (attempted : (outcome iBitRate backend x n).attempted = true)
    (synced : (outcome iBitRate backend x n).next.mSuperFrameSync ≠ 0) {k : Nat} (inside : k < 5) :
    (before iBitRate backend x (n + 1 + k)).mBlocksInBuffer = k ∧
      (before iBitRate backend x (n + 1 + k)).mSuperFrameSync = (outcome iBitRate backend x n).next.mSuperFrameSync := by
  induction k with
  | zero =>
    have added := outcomeAdded iBitRate backend x n
    refine ⟨?_,rfl⟩
    show (outcome iBitRate backend x n).next.mBlocksInBuffer = 0
    cases added with
    | stores _ other =>
      rw [other] at attempted
      cases attempted
    | misses _ _ _ _ _ _ sync => exact absurd sync synced
    | succeeds _ _ _ blocks => exact blocks
    | fails _ _ _ blocks => rw [blocks,if_neg synced]
  | succ k ih =>
    obtain ⟨blocks,sync⟩ := ih (by omega)
    have added := (addToFrameCases (before iBitRate backend x (n + 1 + k)) (backend (n + 1 + k)) (x (n + 1 + k))).2
    cases added with
    | stores _ _ _ more kept => exact ⟨more.trans (by rw [blocks]),kept.trans sync⟩
    | misses full | succeeds full | fails full => omega

structure Synchronised (iBitRate : Int) (backend : Nat → AacBackend) (x : Nat → List Bool) (n : Nat) : Prop where
  bounds : (outcome iBitRate backend x n).next.mBlockFillIndex < 5 ∧
    (outcome iBitRate backend x n).next.mBlocksInBuffer ≤ 4 ∧
    0 ≤ (outcome iBitRate backend x n).next.mSuperFrameSync ∧ (outcome iBitRate backend x n).next.mSuperFrameSync ≤ 4
  superFrame : ∀ f, (outcome iBitRate backend x n).handed = some f → 4 ≤ n ∧ ∀ i < (15 * iBitRate).toNat,
    byteOf f.frameBytes ((f.iBase + i) % (15 * iBitRate)) = lastFive x n (3 * iBitRate).toNat i
  columns : ∀ f, (outcome iBitRate backend x n).handed = some f → ∀ j < (iBitRate / 8).toNat, ∀ k < 120,
    ((before iBitRate backend x n).rsIn f.frameBytes f.iBase j).getD k 0#8 =
      lastFive x n (3 * iBitRate).toNat (j + k * (iBitRate / 8).toNat)
  following : (outcome iBitRate backend x n).attempted = true → (outcome iBitRate backend x n).next.mSuperFrameSync ≠ 0 →
    ∀ k < 5, ((outcome iBitRate backend x (n + 1 + k)).attempted = true ↔ k = 4)
  dropped : (before iBitRate backend x n).mSuperFrameSync ≠ 0 → (outcome iBitRate backend x n).next.mSuperFrameSync = 0 →
    ∀ k < 4, 5 * k ≤ n ∧ ∃ f, (outcome iBitRate backend x (n - 5 * k)).handed = some f ∧ f.ok = false
  searching : (before iBitRate backend x n).mSuperFrameSync = 0 →
    ((outcome iBitRate backend x n).attempted = true ↔ 4 ≤ n)

theorem handedExact {f : SuperFrame} (handed : (outcome iBitRate backend x n).handed = some f) :
    4 ≤ n ∧ f.frameBytes = ((before iBitRate backend x n).storeFrame (x n)).mFrameByteVec ∧
      f.iBase = ((before iBitRate backend x n).storeFrame (x n)).iBase := by
  have tracked := beforeTracked iBitRate backend x n
  have added := outcomeAdded iBitRate backend x n
  cases added with
  | stores _ _ none | misses _ _ _ _ none =>
    rw [none] at handed
    cases handed
  | succeeds full _ given | fails full _ given =>
    rw [given] at handed
    cases handed
    exact ⟨fullLate tracked full,rfl,rfl⟩

theorem superFrameSync (positive : 0 < iBitRate) (eights : iBitRate % 8 = 0) (small : iBitRate ≤ 1365)
    (backend : Nat → AacBackend) (x : Nat → List Bool) (n : Nat) : Synchronised iBitRate backend x n := by
  have buffered := beforeBuffered positive eights small backend x n
  have tracked := beforeTracked iBitRate backend x n
  have next := beforeTracked iBitRate backend x (n + 1)
  have dims := buffered.dims
  refine ⟨⟨?_,next.blocks,next.sync⟩,fun f handed => ?_,fun f handed j column k cell => ?_,fun attempted synced k inside => ?_,
    fun synced lost => ?_,fun unsynced => ?_⟩
  · have fill := (beforeBuffered positive eights small backend x (n + 1)).fill
    exact lt_of_eq_of_lt fill (Nat.mod_lt _ (by decide))
  · obtain ⟨late,bytes,base⟩ := handedExact handed
    refine ⟨late,fun i inside => ?_⟩
    have five := storedLastFive buffered late (show i < 5 * (3 * iBitRate).toNat by omega)
    rw [bytes,base,show 15 * iBitRate = 5 * ((3 * iBitRate).toNat : Int) by omega]
    exact five
  · obtain ⟨late,bytes,base⟩ := handedExact handed
    have rate : ((iBitRate / 8).toNat : Int) = (before iBitRate backend x n).mRsDims := by omega
    have place : k * (iBitRate / 8).toNat ≤ 119 * (iBitRate / 8).toNat := Nat.mul_le_mul_right _ (by omega)
    have five := storedLastFive buffered late (show j + k * (iBitRate / 8).toNat < 5 * (3 * iBitRate).toNat by omega)
    have origin := storedBase buffered
    unfold rsIn
    rw [getD_eq_getElem?_getD,getElem?_map,getElem?_range cell,Option.map_some,Option.getD_some,bytes,base,
      ← rate,Int.tmod_eq_emod_of_nonneg (by rw [origin]; positivity),← five,
      show ((iBitRate / 8).toNat : Int) * 120 = 5 * ((3 * iBitRate).toNat : Int) by omega,Int.add_assoc]
    push_cast
    rfl
  · rw [attemptedIff,(blocksAfter attempted synced inside).1]
    omega
  · have added := (addToFrameCases (before iBitRate backend x n) (backend n) (x n)).2
    change Added _ _ (outcome iBitRate backend x n) at added
    cases added with
    | stores _ _ _ _ sync => exact absurd (sync.symm.trans lost) synced
    | misses _ unsynced => exact absurd unsynced synced
    | succeeds _ _ _ _ sync => omega
    | fails full _ handed _ sync =>
      intro k few
      exact failsTracked tracked full handed rfl sync k (by omega)
  · rw [attemptedIff,tracked.searching unsynced]
    omega

def quiet (_ : Nat) : AacBackend := ⟨false,fun _ => 0⟩

theorem silentFrames : Synchronised 64 quiet (fun _ => replicate 1536 false) 4 :=
  superFrameSync (by decide) (by decide) (by decide) quiet _ 4

def onesFrame (_ : Nat) : List Bool := replicate 41472 true

structure Unwritten (n : Nat) (s : Mp4Processor) : Prop where
  mBitRate : s.mBitRate = 1728
  fill : s.mBlockFillIndex = n % 5
  blocks : s.mBlocksInBuffer = n
  sync : s.mSuperFrameSync = 0
  vec : s.mFrameByteVec = replicate 25920 0#8

theorem unwrittenStore (unwritten : Unwritten n s) (iV : List Bool) : (s.storeFrame iV).mFrameByteVec = replicate 25920 0#8 := by
  have none : s.numBytes.toNat = 0 := by
    unfold numBytes
    rw [unwritten.mBitRate]
    decide
  unfold storeFrame
  rw [none]
  exact unwritten.vec

theorem onesUnwritten {n : Nat} (few : n ≤ 4) : Unwritten n (before 1728 quiet onesFrame n) := by
  induction n with
  | zero => exact ⟨rfl,rfl,rfl,rfl,rfl⟩
  | succ n ih =>
    have now := ih (by omega)
    obtain ⟨moves,added⟩ := addToFrameCases (before 1728 quiet onesFrame n) (quiet n) (onesFrame n)
    have blocks := now.blocks
    cases added with
    | stores _ _ _ more kept =>
      exact ⟨moves.mBitRate.trans now.mBitRate,moves.mBlockFillIndex.trans (by rw [now.fill]; omega),
        more.trans (by rw [blocks]),kept.trans now.sync,moves.mFrameByteVec.trans (unwrittenStore now _)⟩
    | misses full | succeeds full | fails full => omega

theorem byteOfZeros (count : Nat) (index : Int) : byteOf (replicate count 0#8) index = 0#8 := by
  unfold byteOf
  split
  · rfl
  · rw [getD_eq_getElem?_getD,getElem?_replicate]
    split <;> rfl

/- The number of bytes of a frame is negative here: nothing is stored, and the superframe
handed over with the fifth frame holds the zeros the buffer was made with. -/
theorem wideFramesUnstored : ¬Synchronised 1728 quiet onesFrame 4 := by
  intro promised
  have now := onesUnwritten (le_refl 4)
  obtain ⟨moves,added⟩ := addToFrameCases (before 1728 quiet onesFrame 4) (quiet 4) (onesFrame 4)
  have vec := unwrittenStore now (onesFrame 4)
  change Added _ _ (outcome 1728 quiet onesFrame 4) at added
  have zeros : ∀ first, slice (replicate 25920 0#8) first 11 = replicate 11 0#8 := by
    intro first
    unfold slice
    simp only [byteOfZeros]
    rfl
  have handed : ∃ f, (outcome 1728 quiet onesFrame 4).handed = some f ∧ f.frameBytes = replicate 25920 0#8 := by
    cases added with
    | stores few =>
      have blocks := now.blocks
      omega
    | misses _ _ header =>
      rw [vec,zeros] at header
      exact absurd header (by decide)
    | succeeds _ _ handed => exact ⟨_,handed,vec⟩
    | fails _ _ handed => exact ⟨_,handed,vec⟩
  obtain ⟨f,given,bytes⟩ := handed
  have first := (promised.superFrame f given).2 0 (by decide)
  rw [bytes,byteOfZeros] at first
  have ones : lastFive onesFrame 4 (3 * 1728 : Int).toNat 0 = 0xff#8 := by decide
  rw [ones] at first
  exact absurd first (by decide)

end Runs

end DabStar.Mp4Processor
