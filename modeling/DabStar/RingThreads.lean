import DabStar.RingBuffer
import Mathlib.Logic.Relation

/-! One thread puts, another one gets (common/ringbuffer.h). A call is no single step: it looks
at the indices once, copies element by element and publishes its own index at the end. The
steps of the two threads come in any order. -/
namespace DabStar.RingBuffer
open List Lib.Ring Relation

def Regions.cell (r : Regions) (k : Nat) : Nat := if k < r.size1 then r.index + k else k - r.size1

structure Putting (β : Type) where
  regions : Regions
  data : List β
  copied : Nat

structure Getting (β : Type) where
  regions : Regions
  copied : List β

structure Threads (β : Type) where
  rb : RingBuffer β
  putting : Option (Putting β) := none
  getting : Option (Getting β) := none
  accepted : List β := []
  delivered : List β := []

variable {β : Type} [Inhabited β]

inductive Step : Threads β → Threads β → Prop where
  | beginPut {t : Threads β} (idle : t.putting = none) (data : List β) :
      Step t { t with putting := some ⟨t.rb.getRingBufferWriteRegions data.length,data,0⟩ }
  | copyIn {t : Threads β} {p : Putting β} (busy : t.putting = some p) (left : p.copied < p.regions.elementCount) :
      Step t { t with
        rb := { t.rb with buffer := copy t.rb.buffer (p.regions.cell p.copied) [p.data.getD p.copied default] }
        putting := some { p with copied := p.copied + 1 } }
  | endPut {t : Threads β} {p : Putting β} (busy : t.putting = some p) (done : p.copied = p.regions.elementCount) :
      Step t { t with
        rb := t.rb.advanceRingBufferWriteIndex p.regions.elementCount
        putting := none
        accepted := t.accepted ++ p.data.take p.regions.elementCount }
  | beginGet {t : Threads β} (idle : t.getting = none) (elementCount : Int) :
      Step t { t with getting := some ⟨t.rb.getRingBufferReadRegions (elementCount % 2 ^ 32).toNat,[]⟩ }
  | copyOut {t : Threads β} {g : Getting β} (busy : t.getting = some g) (left : g.copied.length < g.regions.elementCount) :
      Step t { t with
        getting := some { g with copied := g.copied ++ [t.rb.buffer.getD (g.regions.cell g.copied.length) default] } }
  | endGet {t : Threads β} {g : Getting β} (busy : t.getting = some g) (done : g.copied.length = g.regions.elementCount) :
      Step t { t with
        rb := t.rb.advanceRingBufferReadIndex g.regions.elementCount
        getting := none
        delivered := t.delivered ++ g.copied }

/- What was granted stays free, whatever the other thread does. -/
structure Putting.Fits (p : Putting β) (rb : RingBuffer β) (q : List β) : Prop where
  room : q.length + p.regions.elementCount ≤ rb.bufferSize
  enough : p.regions.elementCount ≤ p.data.length
  place : ∀ k < p.regions.elementCount, p.regions.cell k = (rb.writeIndex + k) % rb.bufferSize
  filled : window rb.buffer rb.writeIndex p.copied = p.data.take p.copied

structure Getting.Fits (g : Getting β) (rb : RingBuffer β) (q : List β) : Prop where
  few : g.regions.elementCount ≤ q.length
  progress : g.copied.length ≤ g.regions.elementCount
  place : ∀ k < g.regions.elementCount, g.regions.cell k = (rb.readIndex + k) % rb.bufferSize
  copied : g.copied = q.take g.copied.length

structure Safe (t : Threads β) (q : List β) : Prop where
  holds : Holds t.rb q
  parts : t.delivered ++ q = t.accepted
  putting : ∀ p ∈ t.putting, p.Fits t.rb q
  getting : ∀ g ∈ t.getting, g.Fits t.rb q

variable {t : Threads β} {q : List β} {p : Putting β} {g : Getting β}

theorem regionsPlace {rb : RingBuffer β} (holds : Holds rb q) {available : Nat} (few : available ≤ rb.bufferSize) (start n : Nat) :
    (rb.regions available (start % rb.bufferSize) n).elementCount = min n available ∧
      ∀ k < min n available, (rb.regions available (start % rb.bufferSize) n).cell k = (start + k) % rb.bufferSize := by
  have bounds := holds.bounds
  have inside := Nat.mod_lt start bounds.1
  have clipped : (if n > available then available else n) = min n available := by split <;> omega
  unfold regions
  simp only [clipped]
  rw [Nat.mod_eq_of_lt (show _ < 2 ^ 32 by omega)]
  refine ⟨by split <;> rfl,fun k small => ?_⟩
  rw [← Nat.mod_add_mod start]
  generalize start % rb.bufferSize = index at inside
  unfold Regions.cell
  split
  · dsimp only
    split
    · rw [Nat.mod_eq_of_lt (by omega)]
    · rw [Nat.mod_eq_sub_mod (by omega),Nat.mod_eq_of_lt (by omega)]
      omega
  · dsimp only
    rw [Nat.mod_eq_of_lt (by omega)]

section Steps
variable (safe : Safe t q)
include safe

theorem beginPutSafe (data : List β) : Safe { t with putting := some ⟨t.rb.getRingBufferWriteRegions data.length,data,0⟩ } q := by
  have short := safe.holds.short
  obtain ⟨count,place⟩ := regionsPlace safe.holds (show t.rb.bufferSize - q.length ≤ _ by omega) t.rb.writeIndex data.length
  unfold getRingBufferWriteRegions
  rw [safe.holds.writeAvailable,safe.holds.smallMod]
  refine ⟨safe.holds,safe.parts,fun p same => ?_,safe.getting⟩
  cases same
  rw [← count] at place
  refine ⟨?_,?_,place,rfl⟩ <;> dsimp only <;> omega

theorem beginGetSafe (n : Nat) : Safe { t with getting := some ⟨t.rb.getRingBufferReadRegions n,[]⟩ } q := by
  obtain ⟨count,place⟩ := regionsPlace safe.holds safe.holds.short t.rb.readIndex n
  unfold getRingBufferReadRegions
  rw [safe.holds.readAvailable,safe.holds.smallMod]
  refine ⟨safe.holds,safe.parts,safe.putting,fun g same => ?_⟩
  cases same
  rw [← count] at place
  refine ⟨?_,Nat.zero_le _,place,rfl⟩
  dsimp only
  omega

theorem copyInSafe (busy : t.putting = some p) (left : p.copied < p.regions.elementCount) : Safe { t with
    rb := { t.rb with buffer := copy t.rb.buffer (p.regions.cell p.copied) [p.data.getD p.copied default] }
    putting := some { p with copied := p.copied + 1 } } q := by
  have holds := safe.holds
  have cells := holds.cells
  obtain ⟨room,enough,place,filled⟩ := safe.putting p busy
  have more : p.copied < p.data.length := Nat.lt_of_lt_of_le left enough
  -- the cell behind what is filled, counted from either index
  have behind : p.regions.cell p.copied = (t.rb.writeIndex + p.copied) % t.rb.buffer.length := by rw [cells,place _ left]
  have ahead : p.regions.cell p.copied = (t.rb.readIndex + (q.length + p.copied)) % t.rb.buffer.length := by
    rw [behind,cells,← Nat.mod_add_mod,holds.writeIndexMod,Nat.mod_add_mod,Nat.add_assoc]
  have copyIn := windowPush t.rb.writeIndex (show p.copied < t.rb.buffer.length by omega) (p.data.getD p.copied default)
  have kept := windowPush t.rb.readIndex (show q.length + p.copied < t.rb.buffer.length by omega) (p.data.getD p.copied default)
  rw [← behind] at copyIn
  rw [← ahead] at kept
  refine ⟨⟨holds.sized,holds.small,holds.big,?_,holds.reading,holds.writing,holds.short,?_⟩,safe.parts,fun p' same => ?_,
    fun g member => ?_⟩
  · rw [← cells,behind]
    exact copyLength (Nat.mod_lt _ (by omega))
  · show window _ t.rb.readIndex _ = _
    rw [← windowTake (show q.length ≤ q.length + p.copied + 1 by omega),kept,take_append_of_le_length (by simp),
      windowTake (Nat.le_add_right _ _),holds.contents]
  · cases same
    refine ⟨room,enough,place,copyIn.trans ?_⟩
    rw [filled,getD_eq_getElem _ _ more]
    exact (take_succ_eq_append_getElem more).symm
  · obtain ⟨few,progress,place,copied⟩ := safe.getting g member
    exact ⟨few,progress,place,copied⟩

theorem endPutSafe (busy : t.putting = some p) (done : p.copied = p.regions.elementCount) : Safe { t with
    rb := t.rb.advanceRingBufferWriteIndex p.regions.elementCount
    putting := none
    accepted := t.accepted ++ p.data.take p.regions.elementCount } (q ++ p.data.take p.regions.elementCount) := by
  have holds := safe.holds
  obtain ⟨room,enough,-,filled⟩ := safe.putting p busy
  have count : (p.data.take p.regions.elementCount).length = p.regions.elementCount := length_take_of_le enough
  rw [done] at filled
  refine ⟨⟨holds.sized,holds.small,holds.big,holds.cells,holds.reading,?_,?_,?_⟩,?_,by simp,fun g member => ?_⟩
  · show (_ + _) % 2 ^ 32 &&& t.rb.bigMask = _
    rw [holds.bigMod,holds.writing,Nat.mod_add_mod,length_append,count,Nat.add_assoc]
    rfl
  · rw [length_append,count]
    exact room
  · show window t.rb.buffer t.rb.readIndex _ = _
    rw [length_append,windowAdd,holds.contents,count,← filled]
    exact congrArg _ (windowShift (by rw [holds.cells,holds.writeIndexMod]))
  · show t.delivered ++ (_ ++ _) = t.accepted ++ _
    rw [← append_assoc,safe.parts]
  · obtain ⟨few,progress,place,copied⟩ := safe.getting g member
    refine ⟨by rw [length_append]; omega,progress,place,?_⟩
    rw [take_append_of_le_length (by omega)]
    exact copied

theorem copyOutSafe (busy : t.getting = some g) (left : g.copied.length < g.regions.elementCount) : Safe { t with
    getting := some { g with copied := g.copied ++ [t.rb.buffer.getD (g.regions.cell g.copied.length) default] } } q := by
  obtain ⟨few,-,place,copied⟩ := safe.getting g busy
  have inside : g.copied.length < q.length := by omega
  have element : t.rb.buffer.getD (g.regions.cell g.copied.length) default = q[g.copied.length] := by
    have contents := congrArg (fun l => l[g.copied.length]?) safe.holds.contents
    rw [place _ left,← safe.holds.cells]
    simpa [window,inside] using contents
  refine ⟨safe.holds,safe.parts,safe.putting,fun g' same => ?_⟩
  cases same
  refine ⟨few,by rw [length_append]; exact left,place,?_⟩
  rw [length_append,length_singleton,take_succ_eq_append_getElem inside,← copied,element]

theorem endGetSafe (busy : t.getting = some g) (done : g.copied.length = g.regions.elementCount) : Safe { t with
    rb := t.rb.advanceRingBufferReadIndex g.regions.elementCount
    getting := none
    delivered := t.delivered ++ g.copied } (q.drop g.regions.elementCount) := by
  obtain ⟨few,-,-,copied⟩ := safe.getting g busy
  rw [done] at copied
  refine ⟨safe.holds.advanceRead few,?_,fun p member => ?_,by simp⟩
  · show (_ ++ _) ++ _ = t.accepted
    rw [append_assoc,copied,take_append_drop,safe.parts]
  · obtain ⟨room,enough,place,filled⟩ := safe.putting p member
    refine ⟨?_,enough,place,filled⟩
    rw [length_drop]
    show _ ≤ t.rb.bufferSize
    omega

end Steps

theorem stepSafe {t' : Threads β} (step : Step t t') (safe : ∃ q, Safe t q) : ∃ q, Safe t' q := by
  obtain ⟨q,safe⟩ := safe
  cases step with
  | beginPut idle data => exact ⟨q,beginPutSafe safe data⟩
  | copyIn busy left => exact ⟨q,copyInSafe safe busy left⟩
  | endPut busy done => exact ⟨_,endPutSafe safe busy done⟩
  | beginGet idle elementCount => exact ⟨q,beginGetSafe safe _⟩
  | copyOut busy left => exact ⟨q,copyOutSafe safe busy left⟩
  | endGet busy done => exact ⟨_,endGetSafe safe busy done⟩

theorem interleavedFifo {requested : Nat} (least : 1 ≤ requested) (most : requested ≤ 2 ^ 30)
    (run : ReflTransGen Step { rb := newRingBuffer requested } t) :
    t.delivered ++ t.rb.contents = t.accepted ∧ t.rb.contents.length ≤ t.rb.bufferSize ∧
      ∀ p ∈ t.putting, ∀ g ∈ t.getting, ∀ i < p.regions.elementCount, ∀ j < g.regions.elementCount,
        p.regions.cell i ≠ g.regions.cell j := by
  have start : Safe { rb := (newRingBuffer requested : RingBuffer β) } [] := ⟨newHolds least most,rfl,by simp,by simp⟩
  obtain ⟨q,safe⟩ : ∃ q, Safe t q := by
    induction run with
    | refl => exact ⟨[],start⟩
    | tail _ step ih => exact stepSafe step ih
  have contents := safe.holds.contentsHeld
  refine ⟨by rw [contents,safe.parts],by rw [contents]; exact safe.holds.short,fun p putting g getting i early j late same => ?_⟩
  obtain ⟨room,-,write,-⟩ := safe.putting p putting
  obtain ⟨few,-,read,-⟩ := safe.getting g getting
  rw [write i early,read j late,← Nat.mod_add_mod,safe.holds.writeIndexMod,Nat.mod_add_mod] at same
  have apart := Nat.sub_mod_eq_zero_of_mod_eq same
  rw [Nat.mod_eq_of_lt (by omega)] at apart
  omega

theorem putInterleaved : ∃ t : Threads Nat, t.putting.isSome ∧ t.getting.isSome ∧ t.delivered ++ t.rb.contents = t.accepted := by
  have run : ReflTransGen Step { rb := (newRingBuffer 1 : RingBuffer Nat) } _ :=
    ((ReflTransGen.refl.tail (.beginPut rfl [7])).tail (.beginGet rfl 1)).tail (.copyIn rfl (by decide))
  exact ⟨_,rfl,rfl,(interleavedFifo (by decide) (by decide) run).1⟩

end DabStar.RingBuffer
