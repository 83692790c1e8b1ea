import DabStar.Deinterleaver
import DabStar.SubChannel

/-! The backend of one sub-channel (backend/backend.cpp, the build without threads): time
de-interleaving, deconvolution and energy dispersal of the fragments of the CIFs. -/
namespace DabStar
open List Lib Deinterleaver SubChannel

def disperseStep (acc : List Bool × List Bool) : List Bool × List Bool :=
  let b := acc.1.getD 8 false ^^ acc.1.getD 4 false
  (b :: acc.1.take 8, acc.2 ++ [b])

def disperseVector (size : Nat) : List Bool := ((range size).foldl (fun acc _ => disperseStep acc) (replicate 9 true, [])).2

theorem disperseVectorLength (size : Nat) : (disperseVector size).length = size := by
  have step : ∀ acc, (disperseStep acc).2.length = acc.2.length + 1 := fun acc => length_append
  unfold disperseVector
  induction size with
  | zero => rfl
  | succ size ih => rw [range_succ,foldl_append,foldl_cons,foldl_nil,step,ih]

structure DescriptorType where
  cuStartAddr : Int
  cuSize : Int
  bitRate : Int
  shortForm : Bool
  protLevel : Int
  deriving DecidableEq, Repr

structure Backend where
  deconvolver : Protection
  fragmentSize : Nat
  bitRate : Nat
  interleaveData : List (List Int)
  countforInterleaver : Nat
  interleaverIndex : Nat
  tempX : List Int
  disperse : List Bool
  deriving DecidableEq, Repr

namespace Backend
variable {b : Backend} {x : Nat → Nat → Int}

def newBackend (d : DescriptorType) : Option Backend :=
  (backendDeconvolver d.shortForm d.bitRate d.protLevel).map (fun p =>
    let fragmentSize := (d.cuSize * 64).toNat
    { deconvolver := p
      fragmentSize := fragmentSize
      bitRate := d.bitRate.toNat
      interleaveData := replicate 16 (replicate fragmentSize 0)
      countforInterleaver := 0
      interleaverIndex := 0
      tempX := replicate fragmentSize 0
      disperse := disperseVector (24 * d.bitRate.toNat) })

def reverseDispersal (out disperse : List Bool) : List Bool := List.zipWith (fun bit b => bit ^^ b) out disperse

theorem dispersalUndone {word disperse : List Bool} (same : word.length = disperse.length) :
    reverseDispersal (reverseDispersal word disperse) disperse = word := by
  apply ext_getElem
  · simp [reverseDispersal,same]
  · intro i _ _
    simp [reverseDispersal]

def processSegment (b : Backend) (data : Nat → Int) : Backend × Option (List Bool) :=
  let (tempX, interleaveData) := deinterleave b.fragmentSize b.interleaverIndex data b.tempX b.interleaveData
  let b := { b with
    tempX := tempX, interleaveData := interleaveData, interleaverIndex := (b.interleaverIndex + 1) &&& 15 }
  if b.countforInterleaver ≤ 15 then ({ b with countforInterleaver := b.countforInterleaver + 1 }, none)
  else
    let (p, out) := b.deconvolver.deconvolve (fun k => tempX.getD k 0)
    ({ b with deconvolver := p }, some (reverseDispersal out b.disperse))

def before (b : Backend) (x : Nat → Nat → Int) : Nat → Backend
  | 0 => b
  | t + 1 => ((before b x t).processSegment (x t)).1

def history (x : Nat → Nat → Int) (i k : Nat) : Int := if k < 16 then 0 else x (k - 16) i

structure Streams (b : Backend) (size : Nat) (x : Nat → Nat → Int) (t : Nat) : Prop where
  fragment : b.fragmentSize = size
  index : b.interleaverIndex = t % 16
  count : b.countforInterleaver = min t 16
  shape : Shape size b.tempX b.interleaveData
  holds : ∀ i < size, DelayLine.Holds 16 (fun slot => cell b.interleaveData slot i) (history x i) t

theorem newStreams {d : DescriptorType} (built : newBackend d = some b) (x : Nat → Nat → Int) : Streams b b.fragmentSize x 0 := by
  unfold newBackend at built
  obtain ⟨p,_,rfl⟩ := Option.map_eq_some_iff.mp built
  refine ⟨rfl,rfl,rfl,⟨length_replicate,length_replicate,?_⟩,?_⟩
  · intro slot inside
    rw [getD_replicate _ inside,length_replicate]
  · intro i small
    refine DelayLine.holdsStart (fun k inside => ?_)
    unfold cell history
    rw [getD_replicate _ inside,getD_replicate _ small,if_pos inside]

theorem segmentFields (b : Backend) (data : Nat → Int) :
    let out := deinterleave b.fragmentSize b.interleaverIndex data b.tempX b.interleaveData
    let next := (b.processSegment data).1
    next.tempX = out.1 ∧ next.interleaveData = out.2 ∧ next.fragmentSize = b.fragmentSize ∧
      next.interleaverIndex = (b.interleaverIndex + 1) &&& 15 ∧
      next.countforInterleaver = if b.countforInterleaver ≤ 15 then b.countforInterleaver + 1 else b.countforInterleaver := by
  unfold processSegment
  dsimp only
  split <;> exact ⟨rfl,rfl,rfl,rfl,rfl⟩

theorem segmentStreams {size t : Nat} (streams : Streams b size x t) : Streams (b.processSegment (x t)).1 size x (t + 1) := by
  obtain ⟨temp,data,fragment,index,count⟩ := segmentFields b (x t)
  rw [streams.fragment] at temp data
  obtain ⟨shape,through⟩ := deinterleaveSpec streams.shape b.interleaverIndex (x t)
  rw [← temp,← data] at shape through
  refine ⟨fragment.trans streams.fragment,?_,?_,shape,?_⟩
  · rw [index,streams.index,maskSixteen]
    omega
  · rw [count,streams.count]
    split <;> omega
  · intro i small
    have slot : t % 16 < 16 := Nat.mod_lt _ (by decide)
    refine DelayLine.holdsWrite (streams.holds i small) ?_ ?_
    · rw [through.replaced _ slot i,streams.index,if_pos ⟨rfl,small⟩]
      unfold history
      rw [if_neg (by omega),Nat.add_sub_cancel]
    · intro k inside other
      rw [through.replaced k inside i,streams.index,if_neg (fun both => other both.1)]

theorem beforeStreams {size : Nat} (start : Streams b size x 0) (t : Nat) : Streams (b.before x t) size x t := by
  induction t with
  | zero => exact start
  | succ t ih => exact segmentStreams ih

theorem segmentReads {size t : Nat} (streams : Streams b size x t) (late : 16 ≤ t) {i : Nat} (small : i < size) :
    (b.processSegment (x t)).1.tempX.getD i 0 = x (t - 16 + depth i) i := by
  obtain ⟨temp,_⟩ := segmentFields b (x t)
  rw [streams.fragment] at temp
  obtain ⟨_,through⟩ := deinterleaveSpec streams.shape b.interleaverIndex (x t)
  have slot : (b.interleaverIndex + depth i) % 16 = (t + depth i) % 16 := by
    rw [streams.index]
    omega
  have held := streams.holds i small (depth i) (depthLt i)
  rw [temp,through.read i small,slot]
  refine held.trans ?_
  unfold history
  rw [if_neg (by omega)]
  congr 1
  omega

def delivered (b : Backend) (x : Nat → Nat → Int) (t : Nat) : Option (List Bool) := ((b.before x t).processSegment (x t)).2

def passed (b : Backend) (x : Nat → Nat → Int) (t : Nat) : List Int := (b.before x (t + 1)).tempX

theorem deliveredEarly (start : Streams b b.fragmentSize x 0) {t : Nat} (early : t < 16) : b.delivered x t = none := by
  have streams := beforeStreams start t
  have count : (b.before x t).countforInterleaver ≤ 15 := by
    rw [streams.count]
    omega
  unfold delivered processSegment
  dsimp only
  rw [if_pos count]

theorem deliveredLate (start : Streams b b.fragmentSize x 0) {t : Nat} (late : 16 ≤ t) : b.delivered x t = some (reverseDispersal
      ((b.before x t).deconvolver.deconvolve (fun k => (b.passed x t).getD k 0)).2 (b.before x t).disperse) := by
  have streams := beforeStreams start t
  have count : ¬ (b.before x t).countforInterleaver ≤ 15 := by
    rw [streams.count]
    omega
  obtain ⟨temp,_⟩ := segmentFields (b.before x t) (x t)
  have passes : b.passed x t = _ := temp
  rw [passes]
  unfold delivered processSegment
  dsimp only
  rw [if_neg count]

theorem beforeKeeps (b : Backend) (x : Nat → Nat → Int) (t : Nat) :
    (b.before x t).disperse = b.disperse ∧ ∃ calls, (b.before x t).deconvolver = b.deconvolver.after calls := by
  induction t with
  | zero => exact ⟨rfl,[],rfl⟩
  | succ t ih =>
    obtain ⟨disperse,calls,deconvolver⟩ := ih
    show ((b.before x t).processSegment (x t)).1.disperse = _ ∧ ∃ calls, ((b.before x t).processSegment (x t)).1.deconvolver = _
    unfold processSegment
    dsimp only
    split
    · exact ⟨disperse,calls,deconvolver⟩
    · rw [deconvolver]
      exact ⟨disperse,_,(Protection.afterSnoc b.deconvolver calls _).symm⟩

theorem timeDeinterleaving {d : DescriptorType} {b : Backend} (built : newBackend d = some b) (x : Nat → Nat → Int) :
    (∀ t < 16, b.delivered x t = none) ∧ (∀ t, 16 ≤ t → (∃ frame, b.delivered x t = some frame ∧ frame = reverseDispersal
        ((b.before x t).deconvolver.deconvolve (fun k => (b.passed x t).getD k 0)).2 (b.before x t).disperse) ∧
      (∀ i < b.fragmentSize, (b.passed x t).getD i 0 = x (t - 16 + depth i) i)) ∧
    ∀ u : Nat → Nat → Int, (∀ s i, depth i ≤ s → x s i = u (s - depth i) i) →
      ∀ t, 16 ≤ t → ∀ i < b.fragmentSize, (b.passed x t).getD i 0 = u (t - 16) i := by
  have start := newStreams built x
  have reads : ∀ t, 16 ≤ t → ∀ i < b.fragmentSize, (b.passed x t).getD i 0 = x (t - 16 + depth i) i :=
    fun t late i small => segmentReads (beforeStreams start t) late small
  refine ⟨fun t early => deliveredEarly start early,?_,?_⟩
  · intro t late
    exact ⟨⟨_,deliveredLate start late,rfl⟩,reads t late⟩
  · intro u delayed t late i small
    rw [reads t late i small,delayed _ i (Nat.le_add_left _ _),Nat.add_sub_cancel]

def smallDescriptor : DescriptorType := ⟨0,6,8,false,2⟩

theorem smallBuilt : ∃ b, newBackend smallDescriptor = some b ∧ b.fragmentSize = 384 := by
  have handler : backendDeconvolver false 8 2 = some _ := Protection.eepOfBlocks 8 2
  unfold newBackend smallDescriptor
  rw [handler]
  exact ⟨_,rfl,rfl⟩

theorem smallDeinterleaving : ∃ b, newBackend smallDescriptor = some b ∧
    ∀ x : Nat → Nat → Int, b.delivered x 15 = none ∧ (b.passed x 16).getD 1 0 = x 8 1 := by
  obtain ⟨b,built,fragment⟩ := smallBuilt
  refine ⟨b,built,fun x => ?_⟩
  obtain ⟨early,late,_⟩ := timeDeinterleaving built x
  exact ⟨early 15 (by decide),(late 16 (le_refl _)).2 1 (by rw [fragment]; decide)⟩

end Backend
end DabStar
