import DabStar.MotDirectories
import DabStar.Lib.Accesses

/-! Which memory add_MSC_data_group touches: the bits of the data group, the vector built
from them, and the mark array, segment store and component table of the directory. The
traces follow the source read by read. -/
namespace DabStar
open List Lib.Accesses

inductive MotMemory where
  | group
  | vector
  | marks
  | store
  | components
  deriving DecidableEq, Repr

abbrev MotAccess := Access MotMemory

namespace MotObject

section HeaderReads
variable (segment : List U8)

def byteReads (bitOffset numBits : Nat) : List Nat := (range ((bitOffset + numBits - 1) / 8 + 1 - bitOffset / 8)).map (bitOffset / 8 + ·)

def nameReads (pointer paramId length : Nat) : List Nat :=
  if paramId = 0x0C then (range (length - 1)).map (fun i => pointer + i + 1) else []

def extensionReads (pointer : Nat) : List Nat :=
  let byte := (segment.getD pointer 0#8).toNat
  let next := (segment.getD (pointer + 1) 0#8).toNat
  match (byte &&& 0xC0) >>> 6 with
  | 3 =>
    if next &&& 0x80 ≠ 0 then
      let length := ((next &&& 0x7F) <<< 8) ||| (segment.getD (pointer + 2) 0#8).toNat
      [pointer,pointer + 1,pointer + 2] ++ nameReads (pointer + 3) (byte &&& 0x3F) length
    else [pointer,pointer + 1] ++ nameReads (pointer + 2) (byte &&& 0x3F) (next &&& 0x7F)
  | _ => [pointer]

def parameterPositions (headerSize : Nat) : Nat → List U8 × Nat → List Nat
  | 0, _ => []
  | fuel + 1, acc =>
    if acc.2 < headerSize then acc.2 :: parameterPositions headerSize fuel (processHeaderExtension segment acc.1 acc.2) else []

def parameters : List Nat :=
  let headerSize := (readHeaderCore segment).headerSize
  parameterPositions segment headerSize headerSize ([], 7)

def headerReads : List Nat :=
  byteReads (55 - 55) 28 ++ byteReads (55 - 27) 13 ++ byteReads (55 - 14) 6 ++ byteReads (55 - 8) 9 ++
    (parameters segment).flatMap (extensionReads segment)

def parameterEnd (pointer : Nat) : Nat :=
  let byte := (segment.getD pointer 0#8).toNat
  let next := (segment.getD (pointer + 1) 0#8).toNat
  let named := fun (begin length : Nat) => if byte &&& 0x3F = 0x0C ∧ 2 ≤ length then begin + length else begin
  match (byte &&& 0xC0) >>> 6 with
  | 3 =>
    if next &&& 0x80 ≠ 0 then named (pointer + 3) (((next &&& 0x7F) <<< 8) ||| (segment.getD (pointer + 2) 0#8).toNat)
    else named (pointer + 2) (next &&& 0x7F)
  | _ => pointer + 1

def HeaderFits : Prop := 7 ≤ segment.length ∧ ∀ pointer ∈ parameters segment, parameterEnd segment pointer ≤ segment.length
  deriving Decidable

theorem namedBelow {bound begin paramId length : Nat} {front : List Nat} (below : (∀ i ∈ front, i < bound) ↔ begin ≤ bound) :
    (∀ i ∈ front ++ nameReads begin paramId length, i < bound) ↔
      (if paramId = 0x0C ∧ 2 ≤ length then begin + length else begin) ≤ bound := by
  rw [forall_mem_append,below]
  unfold nameReads
  by_cases name : paramId = 0x0C
  · rw [if_pos name,forall_mem_map]
    by_cases long : 2 ≤ length
    · rw [if_pos ⟨name,long⟩]
      constructor
      · rintro ⟨-,all⟩
        have last := all (length - 2) (mem_range.mpr (by omega))
        omega
      · intro fits
        refine ⟨by omega,fun i member => ?_⟩
        have small := mem_range.mp member
        omega
    · rw [if_neg (fun both => long both.2)]
      refine ⟨And.left,fun fits => ⟨fits,fun i member => ?_⟩⟩
      have small := mem_range.mp member
      omega
  · rw [if_neg name,if_neg (fun both => name both.1)]
    exact ⟨And.left,fun fits => ⟨fits,fun i member => nomatch member⟩⟩

theorem extensionBelow {bound pointer : Nat} :
    (∀ i ∈ extensionReads segment pointer, i < bound) ↔ parameterEnd segment pointer ≤ bound := by
  unfold extensionReads parameterEnd
  dsimp only
  split
  · split
    · refine namedBelow ?_
      simp only [forall_mem_cons,not_mem_nil,false_imp_iff,implies_true,and_true]
      omega
    · refine namedBelow ?_
      simp only [forall_mem_cons,not_mem_nil,false_imp_iff,implies_true,and_true]
      omega
  · simp only [forall_mem_cons,not_mem_nil,false_imp_iff,implies_true,and_true]
    omega

theorem headerBelow {bound : Nat} : (∀ i ∈ headerReads segment, i < bound) ↔
    7 ≤ bound ∧ ∀ pointer ∈ parameters segment, parameterEnd segment pointer ≤ bound := by
  have core : (∀ i ∈ byteReads (55 - 55) 28 ++ byteReads (55 - 27) 13 ++ byteReads (55 - 14) 6 ++ byteReads (55 - 8) 9,
      i < bound) ↔ 7 ≤ bound := by
    have bytes : byteReads (55 - 55) 28 ++ byteReads (55 - 27) 13 ++ byteReads (55 - 14) 6 ++ byteReads (55 - 8) 9 =
      [0,1,2,3,3,4,5,5,5,6] := by decide
    rw [bytes]
    simp only [forall_mem_cons,not_mem_nil,false_imp_iff,implies_true,and_true]
    omega
  unfold headerReads
  rw [forall_mem_append,core,forall_mem_flatMap]
  exact and_congr_right fun _ => forall₂_congr fun pointer _ => extensionBelow segment

end HeaderReads

def headerAccesses {Memory : Type} (memory : Memory) (vec : List U8) (start : Nat) : List (Access Memory) :=
  (headerReads (vec.drop start)).map (fun i : Nat => .touch memory (start + i : Nat) vec.length)

theorem headerInside {Memory : Type} {memory : Memory} {vec : List U8} {start : Nat} :
    Inside (headerAccesses memory vec start) ↔ HeaderFits (vec.drop start) := by
  unfold headerAccesses Inside HeaderFits
  rw [forall_mem_map,← headerBelow]
  refine forall₂_congr fun i _ => ?_
  rw [touchInside,length_drop]
  omega

def takes (h : MotObject) (segmentNumber : Nat) (transportId : Int) : Bool :=
  decide (segmentNumber < 8192) &&
    !Lib.SortedMap.contains (if h.mTransportId ≠ transportId then h.reset else h).mMotMap segmentNumber

end MotObject

section Groups
open Fib (Bits getBits getBits1 getBits4)
open MotHandler (checkCrcBits)
variable (msc : List Bool)

def groupAccesses : List MotAccess :=
  let data : Bits := fun i => msc.getD i false
  let size := msc.length
  let extensionFlag := getBits1 data 0 ≠ 0
  let crcFlag := getBits1 data 1 ≠ 0
  let segmentFlag := getBits1 data 2 ≠ 0
  let userAccessFlag := getBits1 data 3 ≠ 0
  stretch MotMemory.group size 0 12 ++
  if msc.length ≤ 0 then []
  else
    (if crcFlag then stretch MotMemory.group size 0 size else []) ++
    if crcFlag ∧ ¬ checkCrcBits msc then []
    else
      let next : Nat := 16 + if extensionFlag then 16 else 0
      (if segmentFlag then stretch MotMemory.group size next 16 else []) ++
      let next : Nat := next + if segmentFlag then 16 else 0
      let transportIdFlag := userAccessFlag ∧ getBits1 data (next + 3) ≠ 0
      (if userAccessFlag then stretch MotMemory.group size (next + 3 : Nat) 5 else []) ++
      (if transportIdFlag then stretch MotMemory.group size (next + 8 : Nat) 16 else []) ++
      let next : Nat := next + if userAccessFlag then 8 + getBits4 data (next + 4) * 8 else 0
      let sizeInBits : Int := msc.length - next - if crcFlag then 16 else 0
      if ¬ transportIdFlag then []
      else
        [Access.resize MotMemory.vector (sizeInBits.tdiv 8)] ++ stretch MotMemory.group size next (8 * (sizeInBits.tdiv 8).toNat) ++
          stretch MotMemory.vector (sizeInBits.tdiv 8).toNat 0 2

def GroupFits : Prop :=
  let data : Bits := fun i => msc.getD i false
  let extensionFlag := getBits1 data 0 ≠ 0
  let crcFlag := getBits1 data 1 ≠ 0
  let segmentFlag := getBits1 data 2 ≠ 0
  let userAccessFlag := getBits1 data 3 ≠ 0
  let segmentField := 16 + if extensionFlag then 16 else 0
  let userField := segmentField + if segmentFlag then 16 else 0
  12 ≤ msc.length ∧ (¬ (crcFlag ∧ ¬ checkCrcBits msc) →
    (segmentFlag → segmentField + 16 ≤ msc.length) ∧ (userAccessFlag → userField + 8 ≤ msc.length) ∧
    (userAccessFlag ∧ getBits1 data (userField + 3) ≠ 0 →
      userField + 8 + getBits4 data (userField + 4) * 8 + 16 + (if crcFlag then 16 else 0) ≤ msc.length))
  deriving Decidable

theorem vectorInside {size next crc : Nat} : Inside ([Access.resize MotMemory.vector (((size : Int) - next - crc).tdiv 8)] ++
      stretch MotMemory.group size next (8 * (((size : Int) - next - crc).tdiv 8).toNat) ++
      stretch MotMemory.vector (((size : Int) - next - crc).tdiv 8).toNat 0 2) ↔ next + 16 + crc ≤ size := by
  rw [insideAppend,insideAppend,stretchInside,stretchInside,insideCons,resizeInside]
  simp only [insideNil,and_true]
  rcases le_or_gt 0 ((size : Int) - next - crc) with positive | negative
  · rw [Int.tdiv_eq_ediv_of_nonneg positive]
    omega
  · have none : ((size : Int) - next - crc).tdiv 8 ≤ 0 := by
      rw [Int.tdiv_eq_ediv,show Int.sign 8 = 1 from rfl]
      split <;> omega
    omega

theorem groupInside : Inside (groupAccesses msc) ↔ GroupFits msc := by
  unfold groupAccesses GroupFits
  extract_lets data size extensionFlag crcFlag segmentFlag userAccessFlag segmentField userField transportIdFlag next sizeInBits
  rw [insideAppend,stretchInside]
  have crcBits : (if crcFlag then 16 else 0 : Int) = ((if crcFlag then 16 else 0 : Nat) : Int) := by split <;> rfl
  have header : (12 = 0 ∨ (0 : Int) ≤ 0 ∧ (0 : Int) + (12 : Nat) ≤ size) ↔ 12 ≤ size := by omega
  rw [header]
  refine and_congr_right fun long => ?_
  have bits : Inside (if crcFlag then stretch MotMemory.group size 0 size else []) :=
    insideWhen.mpr fun _ => stretchInside.mpr (.inr ⟨le_rfl,by omega⟩)
  rw [if_neg (by show ¬ size ≤ 0; omega),insideAppend,and_iff_right bits]
  by_cases wrong : crcFlag ∧ ¬ checkCrcBits msc = true
  · rw [if_pos wrong]
    exact iff_of_true (insideNil.mpr trivial) (fun right => absurd wrong right)
  rw [if_neg wrong,imp_iff_right wrong,insideAppend,insideAppend,insideAppend,insideWhen,insideWhen,insideWhen]
  by_cases named : transportIdFlag
  · have user : userAccessFlag := named.1
    have behind : next = userField + (8 + getBits4 data (userField + 4) * 8) := by
      show userField + (if userAccessFlag then _ else 0) = _
      rw [if_pos user]
    have vector := @vectorInside size next (if crcFlag then 16 else 0)
    rw [← crcBits] at vector
    rw [if_neg (not_not_intro named)]
    refine and_congr ?_ ?_
    · exact imp_congr_right fun _ => by rw [stretchInside]; omega
    · constructor
      · rintro ⟨⟨field,-⟩,rest⟩
        have fits := vector.mp rest
        have inside := stretchInside.mp (field user)
        exact ⟨fun _ => by omega,fun _ => by omega⟩
      · rintro ⟨field,rest⟩
        have fits := rest named
        refine ⟨⟨fun _ => stretchInside.mpr (by omega),fun _ => stretchInside.mpr (by omega)⟩,vector.mpr (by omega)⟩
  · rw [if_pos named]
    refine and_congr (imp_congr_right fun _ => by rw [stretchInside]; omega) ?_
    constructor
    · rintro ⟨⟨field,-⟩,-⟩
      refine ⟨fun user => ?_,fun wanted => absurd wanted named⟩
      have inside := stretchInside.mp (field user)
      omega
    · rintro ⟨field,-⟩
      refine ⟨⟨fun user => stretchInside.mpr ?_,fun wanted => absurd wanted named⟩,insideNil.mpr trivial⟩
      have fits := field user
      omega

end Groups

namespace MotDirectory
variable {d : MotDirectory}

def componentScan (d : MotDirectory) (stop : Option MotComponent → Bool) : List MotAccess :=
  (scan (fun i => stop (d.motComponents.getD i none)) d.numObjects.toNat 0).map
    (fun k : Nat => Access.touch MotMemory.components k d.motComponents.length)

def analyseObjectsAccesses : Nat → Nat → MotDirectory → List MotAccess
  | 0, _, _ => []
  | count + 1, currentBase, d =>
    let transportId := be16 d.dirSegments currentBase
    stretch MotMemory.store d.dirSegments.length currentBase 2 ++
    if transportId = 0 then []
    else
      let handle := MotObject.newMotObjectWithHeader true false transportId (d.dirSegments.drop (currentBase + 2))
      MotObject.headerAccesses MotMemory.store d.dirSegments (currentBase + 2) ++ d.componentScan Option.isNone ++
        analyseObjectsAccesses count (currentBase + (2 + handle.getHeaderSize)) (d.setHandle handle transportId)

def analyseTheDirectoryAccesses (d : MotDirectory) : List MotAccess :=
  stretch MotMemory.store d.dirSegments.length 11 2 ++ analyseObjectsAccesses d.numObjects.toNat (11 + (2 + be16 d.dirSegments 11)) d

def ObjectsFit (bytes : List U8) : Nat → Nat → Prop
  | 0, _ => True
  | count + 1, base => base + 2 ≤ bytes.length ∧ (be16 bytes base ≠ 0 → MotObject.HeaderFits (bytes.drop (base + 2)) ∧
      ObjectsFit bytes count (base + (2 + (MotObject.readHeaderCore (bytes.drop (base + 2))).headerSize)))

def DirectoryFits (bytes : List U8) (numObjects : Nat) : Prop := 13 ≤ bytes.length ∧ ObjectsFit bytes numObjects (11 + (2 + be16 bytes 11))

structure Allocated (d : MotDirectory) : Prop where
  components : d.motComponents.length = d.numObjects.toNat
  marks : d.marked.length = 512
  count : d.numDirSegments ≤ 512
  size : 0 ≤ d.dirSegmentSize

theorem setHandleLength (h : MotObject) (transportId : Nat) :
    (d.setHandle h transportId).motComponents.length = d.motComponents.length := by
  unfold setHandle
  split
  · exact length_set ..
  · rfl

theorem analysedLength (count base : Nat) : (analyseObjects count base d).motComponents.length = d.motComponents.length := by
  induction count generalizing base d with
  | zero => rfl
  | succ count ih =>
    unfold analyseObjects
    dsimp only
    split
    · rfl
    · exact (ih _).trans (setHandleLength _ _)

theorem analysedAllocated (allocated : Allocated d) : Allocated d.analyseTheDirectory := by
  have length := analysedLength (d := d) d.numObjects.toNat (11 + (2 + be16 d.dirSegments 11))
  obtain ⟨components,same⟩ := analysedFields d.numObjects.toNat (11 + (2 + be16 d.dirSegments 11)) d
  unfold analyseTheDirectory
  rw [same] at length ⊢
  exact ⟨length.trans allocated.components,allocated.marks,allocated.count,allocated.size⟩

theorem scanInsideComponents (components : d.motComponents.length = d.numObjects.toNat) (stop : Option MotComponent → Bool) :
    Inside (d.componentScan stop) := scanInside components.ge

theorem objectsInside {count base : Nat} (components : d.motComponents.length = d.numObjects.toNat) :
    Inside (analyseObjectsAccesses count base d) ↔ ObjectsFit d.dirSegments count base := by
  induction count generalizing base d with
  | zero => exact insideNil
  | succ count ih =>
    unfold analyseObjectsAccesses ObjectsFit
    dsimp only
    rw [insideAppend,stretchInside]
    refine and_congr (by omega) ?_
    by_cases zero : be16 d.dirSegments base = 0
    · rw [if_pos zero]
      exact iff_of_true (insideNil.mpr trivial) (fun other => absurd zero other)
    · rw [if_neg zero,imp_iff_right zero,insideAppend,insideAppend,MotObject.headerInside,
        and_iff_left (scanInsideComponents components _)]
      refine and_congr_right fun _ => ?_
      obtain ⟨list,same⟩ := setHandleFields d (MotObject.newMotObjectWithHeader true false
        (be16 d.dirSegments base) (d.dirSegments.drop (base + 2))) (be16 d.dirSegments base)
      have length := setHandleLength (d := d) (MotObject.newMotObjectWithHeader true false
        (be16 d.dirSegments base) (d.dirSegments.drop (base + 2))) (be16 d.dirSegments base)
      rw [same] at length ⊢
      exact ih (d := { d with motComponents := list }) (length.trans components)

theorem analyseInside (components : d.motComponents.length = d.numObjects.toNat) :
    Inside d.analyseTheDirectoryAccesses ↔ DirectoryFits d.dirSegments d.numObjects.toNat := by
  unfold analyseTheDirectoryAccesses DirectoryFits
  rw [insideAppend,stretchInside,objectsInside components]
  exact and_congr_left fun _ => by omega

def started (transportId : Nat) (segmentSize : Int) (dirSize : Nat) (objects : Int) (segment : List U8) : MotDirectory :=
  { transportId := transportId, numDirSegments := -1, numObjects := objects, dirSegmentSize := segmentSize
    dirSegments := overwrite (replicate dirSize 0#8) 0 (Mp4Processor.slice segment 0 segmentSize)
    motComponents := replicate objects.toNat none, marked := (replicate 512 false).set 0 true }

def newMotDirectoryAccesses (transportId : Nat) (segmentSize : Int) (dirSize : Nat) (objects : Int) (vector : List U8) :
    List MotAccess :=
  stretch MotMemory.marks 512 0 512 ++ [Access.resize MotMemory.store dirSize,Access.resize MotMemory.components objects] ++
    stretch MotMemory.components objects.toNat 0 objects.toNat ++ stretch MotMemory.vector vector.length 2 segmentSize.toNat ++
    stretch MotMemory.store dirSize 0 segmentSize.toNat ++ [Access.touch MotMemory.marks 0 512] ++
    if segmentSize ≥ dirSize then (started transportId segmentSize dirSize objects (vector.drop 2)).analyseTheDirectoryAccesses else []

def placed (d : MotDirectory) (segment : List U8) (segmentNumber : Nat) (segmentSize : Int) (lastSegment : Bool) : MotDirectory :=
  { d with
    numDirSegments := if lastSegment then toI16 (segmentNumber + 1) else d.numDirSegments
    marked := d.marked.set segmentNumber true
    dirSegments := overwrite d.dirSegments (segmentNumber * d.dirSegmentSize).toNat (Mp4Processor.slice segment 0 segmentSize) }

def AllMarked (d : MotDirectory) : Prop :=
  d.numDirSegments ≠ -1 ∧ (range d.numDirSegments.toNat).all (fun i => d.marked.getD i false) = true
  deriving Decidable

def directorySegmentAccesses (d : MotDirectory) (vector : List U8) (segmentNumber segmentSize : Nat) (lastSegment : Bool) :
    List MotAccess :=
  let e := d.placed (vector.drop 2) segmentNumber segmentSize lastSegment
  [Access.touch MotMemory.marks segmentNumber d.marked.length] ++
  if d.marked.getD segmentNumber false then []
  else
    [Access.touch MotMemory.marks segmentNumber d.marked.length] ++ stretch MotMemory.vector vector.length 2 segmentSize ++
    stretch MotMemory.store d.dirSegments.length (segmentNumber * d.dirSegmentSize) segmentSize ++
    (if e.numDirSegments ≠ -1 then
      (scan (fun i => !e.marked.getD i false) e.numDirSegments.toNat 0).map (fun k : Nat => Access.touch MotMemory.marks k e.marked.length)
    else []) ++ if e.AllMarked then e.analyseTheDirectoryAccesses else []

/- The segment has a mark, and unless it is there already it lies in the data group and
finds its place in the store. -/
def SegmentFits (d : MotDirectory) (segment : List U8) (segmentNumber segmentSize : Nat) (lastSegment : Bool) : Prop :=
  let e := d.placed segment segmentNumber segmentSize lastSegment
  segmentNumber < 512 ∧ (¬ d.marked.getD segmentNumber false = true → segmentSize ≤ segment.length ∧
    (segmentSize = 0 ∨ segmentNumber * d.dirSegmentSize + segmentSize ≤ d.dirSegments.length) ∧
    (e.AllMarked → DirectoryFits e.dirSegments d.numObjects.toNat))

theorem placedAllocated (allocated : Allocated d) {segment : List U8} {segmentNumber : Nat} {segmentSize : Int} {lastSegment : Bool}
    (small : segmentNumber < 512) : Allocated (d.placed segment segmentNumber segmentSize lastSegment) := by
  refine ⟨allocated.components,(length_set ..).trans allocated.marks,?_,allocated.size⟩
  show (if lastSegment then toI16 (segmentNumber + 1) else d.numDirSegments) ≤ 512
  split
  · rw [toI16Small (by omega) (by omega)]
    omega
  · exact allocated.count

theorem segmentInside (allocated : Allocated d) {vector : List U8} {segmentNumber segmentSize : Nat} {lastSegment : Bool} :
    Inside (d.directorySegmentAccesses vector segmentNumber segmentSize lastSegment) ↔
      d.SegmentFits (vector.drop 2) segmentNumber segmentSize lastSegment := by
  unfold directorySegmentAccesses SegmentFits
  dsimp only
  rw [insideAppend,insideCons,touchInside,allocated.marks,and_iff_left (insideNil.mpr trivial)]
  by_cases small : segmentNumber < 512
  swap
  · exact iff_of_false (fun inside => small (by have := inside.1.2; omega)) (fun fits => small fits.1)
  rw [and_iff_right ⟨by omega,by omega⟩,and_iff_right small]
  by_cases known : d.marked.getD segmentNumber false = true
  · rw [if_pos known]
    exact iff_of_true (insideNil.mpr trivial) (fun new => absurd known new)
  rw [if_neg known,imp_iff_right known]
  have placed := @placedAllocated d allocated (vector.drop 2) segmentNumber segmentSize lastSegment small
  have objects : (d.placed (vector.drop 2) segmentNumber segmentSize lastSegment).numObjects = d.numObjects := rfl
  have place : 0 ≤ (segmentNumber : Int) * d.dirSegmentSize := Int.mul_nonneg (by omega) allocated.size
  generalize d.placed (vector.drop 2) segmentNumber segmentSize lastSegment = e at placed objects ⊢
  have marks : Inside (if e.numDirSegments ≠ -1 then (scan (fun i => !e.marked.getD i false) e.numDirSegments.toNat 0).map
      (fun k : Nat => Access.touch MotMemory.marks k e.marked.length) else []) :=
    insideWhen.mpr fun _ => scanInside (by rw [placed.marks]; have := placed.count; omega)
  have read : Inside (stretch MotMemory.vector vector.length 2 segmentSize) ↔ segmentSize ≤ (vector.drop 2).length := by
    rw [stretchInside,length_drop]
    omega
  have written : Inside (stretch MotMemory.store d.dirSegments.length (segmentNumber * d.dirSegmentSize) segmentSize) ↔
      segmentSize = 0 ∨ segmentNumber * d.dirSegmentSize + segmentSize ≤ d.dirSegments.length := by
    rw [stretchInside,and_iff_right place]
  have mark : Inside [Access.touch MotMemory.marks segmentNumber 512] := insideCons.mpr ⟨⟨by omega,by omega⟩,insideNil.mpr trivial⟩
  rw [insideAppend,insideAppend,insideAppend,insideAppend,and_iff_right mark,and_iff_left marks,insideWhen,
    read,written,analyseInside placed.components,objects,and_assoc]

theorem segmentAllocated (allocated : Allocated d) {transportId : Nat} {segment : List U8} {segmentNumber : Nat}
    {segmentSize : Int} {lastSegment : Bool} (small : segmentNumber < 512) :
    Allocated (d.directorySegment transportId segment segmentNumber segmentSize lastSegment).1 := by
  have placed := @placedAllocated d allocated segment segmentNumber segmentSize lastSegment small
  have step : d.directorySegment transportId segment segmentNumber segmentSize lastSegment =
      if d.transportId ≠ transportId then (d, [])
      else if d.marked.getD segmentNumber false then (d, [])
      else
        let e := d.placed segment segmentNumber segmentSize lastSegment
        if e.AllMarked then (e.analyseTheDirectory, [e.dirSegments]) else (e, []) := rfl
  rw [step]
  dsimp only
  split
  · exact allocated
  · split
    · exact allocated
    · split
      · exact analysedAllocated placed
      · exact placed

section New
variable {transportId segmentSize dirSize objects : Nat} {vector : List U8}

theorem startedBytes {segment : List U8} {objects : Int} (inside : dirSize ≤ segment.length) :
    (started transportId dirSize dirSize objects segment).dirSegments = segment.take dirSize := by
  have slice : Mp4Processor.slice segment 0 (dirSize : Int) = segment.take dirSize := by
    refine extGetD ?_ (fun i here => ?_)
    · unfold Mp4Processor.slice
      rw [length_map,length_range,length_take,Nat.min_eq_left inside]
      rfl
    · rw [length_take] at here
      rw [sliceGetD (by omega),getD_eq_getElem?_getD,getD_eq_getElem?_getD,List.getElem?_take_of_lt (by omega)]
  have length : (segment.take dirSize).length = dirSize := by rw [length_take,Nat.min_eq_left inside]
  show overwrite (replicate dirSize 0#8) 0 (Mp4Processor.slice segment 0 dirSize) = _
  rw [slice]
  unfold overwrite
  rw [take_zero,nil_append,length_replicate,Nat.sub_zero,take_of_length_le length.le,Nat.zero_add,length,
    drop_of_length_le (by rw [length_replicate]),append_nil]

theorem newInside : Inside (newMotDirectoryAccesses transportId segmentSize dirSize (toI16 objects) vector) ↔
      0 ≤ toI16 objects ∧ segmentSize ≤ (vector.drop 2).length ∧ segmentSize ≤ dirSize ∧
        (segmentSize = dirSize → DirectoryFits ((vector.drop 2).take dirSize) (toI16 objects).toNat) := by
  unfold newMotDirectoryAccesses
  have marks : Inside (stretch MotMemory.marks 512 0 512) := stretchInside.mpr (.inr ⟨le_rfl,by decide⟩)
  have table : Inside (stretch MotMemory.components (toI16 objects).toNat 0 (toI16 objects).toNat) :=
    stretchInside.mpr (.inr ⟨le_rfl,by omega⟩)
  have read : Inside (stretch MotMemory.vector vector.length 2 (segmentSize : Int).toNat) ↔ segmentSize ≤ (vector.drop 2).length := by
    rw [stretchInside,length_drop]
    omega
  have written : Inside (stretch MotMemory.store dirSize 0 (segmentSize : Int).toNat) ↔ segmentSize ≤ dirSize := by
    rw [stretchInside]
    omega
  have zero : Inside [Access.touch MotMemory.marks 0 512] := by decide
  have sizes : Inside [Access.resize MotMemory.store dirSize,Access.resize MotMemory.components (toI16 objects)] ↔ 0 ≤ toI16 objects := by
    simp
  simp only [insideAppend,insideWhen,sizes,read,written,and_iff_right marks,and_iff_left table,and_iff_left zero,and_assoc]
  refine and_congr_right fun _ => and_congr_right fun inside => and_congr_right fun small => ?_
  by_cases whole : segmentSize = dirSize
  · subst whole
    have table : (started transportId segmentSize segmentSize (toI16 objects) (vector.drop 2)).motComponents =
        replicate (toI16 objects).toNat none := by simp only [started]
    have count : (started transportId segmentSize segmentSize (toI16 objects) (vector.drop 2)).numObjects = toI16 objects := by
      simp only [started]
    rw [imp_iff_right le_rfl,imp_iff_right rfl,analyseInside (by rw [table,count,length_replicate]),startedBytes inside,count]
  · exact iff_of_true (fun large => absurd (by omega) whole) (fun same => absurd same whole)

theorem newAllocated {segmentSize objects : Int} {segment : List U8} (size : 0 ≤ segmentSize) :
    Allocated (newMotDirectory transportId segmentSize dirSize objects segment).1 := by
  have allocated : Allocated (started transportId segmentSize dirSize objects segment) := by
    unfold started
    exact ⟨length_replicate,(length_set ..).trans length_replicate,by dsimp only; omega,size⟩
  have step : newMotDirectory transportId segmentSize dirSize objects segment =
      if segmentSize ≥ dirSize then ((started transportId segmentSize dirSize objects segment).analyseTheDirectory,
        [(started transportId segmentSize dirSize objects segment).dirSegments])
      else (started transportId segmentSize dirSize objects segment, []) := by
    unfold newMotDirectory started
    dsimp only
  rw [step]
  split
  · exact analysedAllocated allocated
  · exact allocated

end New

end MotDirectory

theorem segmentSizeSmall (g : MotDataGroup) : g.segmentSize < 8192 := by
  unfold MotDataGroup.segmentSize
  have high : (g.motVector.getD 0 0#8).toNat &&& 0x1F ≤ 31 := Nat.and_le_right
  have low := (g.motVector.getD 1 0#8).isLt
  refine Nat.or_lt_two_pow (n := 13) ?_ (by omega)
  rw [Nat.shiftLeft_eq]
  omega

theorem be16Small (vec : List U8) (index : Nat) : be16 vec index < 65536 := by
  unfold be16
  have high := (vec.getD index 0#8).isLt
  have low := (vec.getD (index + 1) 0#8).isLt
  refine Nat.or_lt_two_pow (n := 16) ?_ (by omega)
  rw [Nat.shiftLeft_eq]
  omega

theorem toI16Positive {n : Nat} (small : n < 65536) : 0 ≤ toI16 n ↔ n ≤ 32767 := by
  by_cases low : n ≤ 32767
  · rw [toI16Small (by omega) (by omega)]
    omega
  · have wrapped : toI16 n = n - 65536 := by
      have same := toI16Small (n := (n : Int) - 65536) (by omega) (by omega)
      rw [← same]
      unfold toI16
      exact (Int.sub_bmod_right (n : Int) 65536).symm
    omega

namespace MotHandler
open MotDirectory MotTransfer
variable {s : MotHandler} {g : MotDataGroup}

section Traces
variable (s : MotHandler) (g : MotDataGroup)

/- The table of the handler has a fixed size and is walked through as a whole; the
components of the directory are counted. -/
def getHandleAccesses (transportId : Nat) : List MotAccess :=
  match s.mMotTable.findIdx? (fun mt => mt.any (fun mt => mt.transportId = transportId)) with
  | some _ => []
  | none => match s.mpDirectory with
    | some d => d.componentScan (fun c => c.any (fun c => c.transportId = transportId))
    | none => []

def slideOf : Option MotObject :=
  match s.getHandle g.transportId with
  | some (.table i) => (s.mMotTable.getD i none).map SMotTable.motSlide
  | some (.directory i) => (s.mpDirectory.bind (fun d => d.motComponents.getD i none)).map MotComponent.motSlide
  | none => some (MotObject.newMotObjectWithHeader false false g.transportId g.segment)

def headerGroupAccesses : List MotAccess :=
  if g.segmentNumber = 0 then
    s.getHandleAccesses g.transportId ++
      if s.getHandle g.transportId = none then MotObject.headerAccesses MotMemory.vector g.motVector 2 else []
  else []

def bodyGroupAccesses : List MotAccess :=
  s.getHandleAccesses g.transportId ++
    (if s.getHandle g.transportId = none then MotObject.headerAccesses MotMemory.vector g.motVector 2 else []) ++
    if (s.slideOf g).any (fun h => h.takes g.segmentNumber g.transportId) then stretch MotMemory.vector g.motVector.length 2 g.segmentSize else []

def directoryGroupAccesses : List MotAccess :=
  if g.segmentNumber = 0 then
    if s.mpDirectory.any (fun d => d.transportId = g.transportId) then []
    else
      (match s.mpDirectory with
        | some d => d.componentScan (fun _ => false)
        | none => []) ++
      stretch MotMemory.vector g.motVector.length 0 8 ++
      newMotDirectoryAccesses g.transportId (toI16 g.segmentSize) (dirSizeOf g.segment) (toI16 (be16 g.segment 4)) g.motVector
  else match s.mpDirectory with
    | none => []
    | some d =>
      if d.transportId ≠ g.transportId then []
      else d.directorySegmentAccesses g.motVector g.segmentNumber g.segmentSize g.lastFlag

def handleAccesses : List MotAccess :=
  match g.groupType with
  | 3 => s.headerGroupAccesses g
  | 4 => s.bodyGroupAccesses g
  | 6 => s.directoryGroupAccesses g
  | _ => []

def accesses (msc : List Bool) : List MotAccess :=
  groupAccesses msc ++
    match decodeGroup msc with
    | none => []
    | some g => s.handleAccesses g

def accessesIn : MotHandler → List (List Bool) → List MotAccess
  | _, [] => []
  | s, msc :: rest => s.accesses msc ++ accessesIn (s.addMscDataGroup msc).next rest

end Traces

section Conditions
variable (s : MotHandler) (g : MotDataGroup)

def HeaderGroupFits : Prop := g.segmentNumber = 0 → s.getHandle g.transportId = none → MotObject.HeaderFits g.segment

def BodyGroupFits : Prop :=
  (s.getHandle g.transportId = none → MotObject.HeaderFits g.segment) ∧
  ((s.slideOf g).any (fun h => h.takes g.segmentNumber g.transportId) = true → g.segmentSize ≤ g.segment.length)

def DirectoryGroupFits : Prop :=
  if g.segmentNumber = 0 then
    ¬ s.mpDirectory.any (fun d => d.transportId = g.transportId) = true →
      6 ≤ g.segment.length ∧ be16 g.segment 4 ≤ 32767 ∧ g.segmentSize ≤ g.segment.length ∧ g.segmentSize ≤ dirSizeOf g.segment ∧
      (g.segmentSize = dirSizeOf g.segment → DirectoryFits (g.segment.take (dirSizeOf g.segment)) (be16 g.segment 4))
  else ∀ d, s.mpDirectory = some d → d.transportId = g.transportId → d.SegmentFits g.segment g.segmentNumber g.segmentSize g.lastFlag

def Fits (msc : List Bool) : Prop :=
  GroupFits msc ∧ ∀ g, decodeGroup msc = some g →
    (g.groupType = 3 → s.HeaderGroupFits g) ∧ (g.groupType = 4 → s.BodyGroupFits g) ∧ (g.groupType = 6 → s.DirectoryGroupFits g)

def AllFit : MotHandler → List (List Bool) → Prop
  | _, [] => True
  | s, msc :: rest => s.Fits msc ∧ AllFit (s.addMscDataGroup msc).next rest

def DirectoryAllocated : Prop := ∀ d, s.mpDirectory = some d → d.Allocated

end Conditions

section Inside
variable (allocated : s.DirectoryAllocated)
include allocated

theorem getHandleInside (transportId : Nat) : Lib.Accesses.Inside (s.getHandleAccesses transportId) := by
  unfold getHandleAccesses
  split
  · exact insideNil.mpr trivial
  · split
    · rename_i d here
      exact scanInsideComponents (allocated d here).components _
    · exact insideNil.mpr trivial

theorem headerGroupInside : Lib.Accesses.Inside (s.headerGroupAccesses g) ↔ s.HeaderGroupFits g := by
  unfold headerGroupAccesses HeaderGroupFits
  rw [insideWhen]
  refine imp_congr_right fun _ => ?_
  rw [insideAppend,and_iff_right (getHandleInside allocated _),insideWhen,MotObject.headerInside]
  rfl

theorem bodyGroupInside : Lib.Accesses.Inside (s.bodyGroupAccesses g) ↔ s.BodyGroupFits g := by
  unfold bodyGroupAccesses BodyGroupFits
  rw [insideAppend,insideAppend,and_iff_right (getHandleInside allocated _),insideWhen,insideWhen,MotObject.headerInside,
    stretchInside]
  refine and_congr Iff.rfl (imp_congr_right fun _ => ?_)
  unfold MotDataGroup.segment
  rw [length_drop]
  omega

theorem directoryGroupInside : Lib.Accesses.Inside (s.directoryGroupAccesses g) ↔ s.DirectoryGroupFits g := by
  unfold directoryGroupAccesses DirectoryGroupFits
  by_cases first : g.segmentNumber = 0
  · rw [if_pos first,if_pos first]
    by_cases known : s.mpDirectory.any (fun d => d.transportId = g.transportId) = true
    · rw [if_pos known]
      exact iff_of_true (insideNil.mpr trivial) (fun new => absurd known new)
    rw [if_neg known,imp_iff_right known]
    have deleted : Lib.Accesses.Inside (match s.mpDirectory with
        | some d => d.componentScan (fun _ => false)
        | none => []) := by
      split
      · rename_i d here
        exact scanInsideComponents (allocated d here).components _
      · exact insideNil.mpr trivial
    have size : toI16 g.segmentSize = g.segmentSize := toI16Small (by omega) (by have := segmentSizeSmall g; omega)
    have front : (8 = 0 ∨ (0 : Int) ≤ 0 ∧ (0 : Int) + (8 : Nat) ≤ g.motVector.length) ↔ 6 ≤ g.segment.length := by
      unfold MotDataGroup.segment
      rw [length_drop]
      omega
    rw [insideAppend,insideAppend,and_iff_right deleted,stretchInside,size,newInside,front,toI16Positive (be16Small _ _)]
    refine and_congr_right fun _ => and_congr_right fun few => ?_
    rw [toI16Small (by omega) (by omega)]
    rfl
  · rw [if_neg first,if_neg first]
    cases here : s.mpDirectory with
    | none => exact iff_of_true (insideNil.mpr trivial) (fun _ none => nomatch none)
    | some d =>
      dsimp only
      by_cases own : d.transportId = g.transportId
      · rw [if_neg (not_not_intro own),segmentInside (allocated d here)]
        exact ⟨fun fits _ same _ => Option.some.inj same ▸ fits,fun fits => fits d rfl own⟩
      · rw [if_pos own]
        exact iff_of_true (insideNil.mpr trivial) (fun _ same id => absurd (Option.some.inj same ▸ id) own)

theorem accessesInside (msc : List Bool) : Lib.Accesses.Inside (s.accesses msc) ↔ s.Fits msc := by
  unfold accesses Fits
  rw [insideAppend,groupInside]
  refine and_congr_right fun _ => ?_
  cases decoded : decodeGroup msc with
  | none => exact iff_of_true (insideNil.mpr trivial) (fun g none => nomatch none)
  | some g =>
    have single : (∀ g', some g = some g' → (g'.groupType = 3 → s.HeaderGroupFits g') ∧ (g'.groupType = 4 → s.BodyGroupFits g') ∧
        (g'.groupType = 6 → s.DirectoryGroupFits g')) ↔ (g.groupType = 3 → s.HeaderGroupFits g) ∧
        (g.groupType = 4 → s.BodyGroupFits g) ∧ (g.groupType = 6 → s.DirectoryGroupFits g) :=
      ⟨fun all => all g rfl,fun here g' same => Option.some.inj same ▸ here⟩
    rw [single]
    unfold handleAccesses
    dsimp only
    split
    · rename_i type
      rw [headerGroupInside allocated,type]
      simp
    · rename_i type
      rw [bodyGroupInside allocated,type]
      simp
    · rename_i type
      rw [directoryGroupInside allocated,type]
      simp
    · rename_i header body directory
      exact iff_of_true (insideNil.mpr trivial)
        ⟨fun type => absurd type header,fun type => absurd type body,fun type => absurd type directory⟩

end Inside

theorem directoryStays {t : MotHandler} (same : t.mpDirectory = s.mpDirectory) (allocated : s.DirectoryAllocated) :
    t.DirectoryAllocated := by
  unfold DirectoryAllocated
  rw [same]
  exact allocated

theorem addAtAllocated (allocated : s.DirectoryAllocated) (handle : MotHandle) (add : MotObject → MotObject × List MotSignal) :
    (s.addAt handle add).1.DirectoryAllocated := by
  unfold addAt
  split
  · split <;> exact allocated
  · split
    · exact allocated
    · rename_i d here
      split
      · intro e same
        obtain rfl := Option.some.inj same
        obtain ⟨components,marks,count,size⟩ := allocated d here
        exact ⟨(length_set ..).trans components,marks,count,size⟩
      · exact allocated

theorem handleAllocated (allocated : s.DirectoryAllocated)
    (small : g.groupType = 6 → g.segmentNumber ≠ 0 → ∀ d, s.mpDirectory = some d → d.transportId = g.transportId → g.segmentNumber < 512) :
    (s.handleGroup g).next.DirectoryAllocated := by
  unfold handleGroup
  split
  · unfold headerGroup
    split
    · split
      · exact allocated
      · exact directoryStays rfl allocated
    · exact allocated
  · unfold bodyGroup
    dsimp only
    split
    · exact addAtAllocated allocated _ _
    · exact directoryStays rfl allocated
  · rename_i type
    by_cases first : g.segmentNumber = 0
    · by_cases known : s.mpDirectory.any (fun d => d.transportId = g.transportId) = true
      · unfold directoryGroup
        rw [if_pos first,if_pos known]
        exact allocated
      · rw [directoryFirst first known rfl]
        intro d same
        obtain rfl := Option.some.inj same
        exact newAllocated (by rw [toI16Small (by omega) (by have := segmentSizeSmall g; omega)]; omega)
    · unfold directoryGroup
      rw [if_neg first]
      cases here : s.mpDirectory with
      | none => exact allocated
      | some d =>
        dsimp only
        split
        · exact allocated
        · rename_i own
          intro e same
          obtain rfl := Option.some.inj same
          exact segmentAllocated (allocated d here) (small type first d here (not_not.mp own))
  · exact allocated

theorem fitsAllocated (allocated : s.DirectoryAllocated) {msc : List Bool} (fits : s.Fits msc) :
    (s.addMscDataGroup msc).next.DirectoryAllocated := by
  unfold addMscDataGroup
  cases decoded : decodeGroup msc with
  | none => exact allocated
  | some g =>
    refine handleAllocated allocated (fun type later d here own => ?_)
    have directory := (fits.2 g decoded).2.2 type
    unfold DirectoryGroupFits at directory
    rw [if_neg later] at directory
    exact (directory d here own).1

theorem runInside (mscs : List (List Bool)) (allocated : s.DirectoryAllocated) :
    Lib.Accesses.Inside (accessesIn s mscs) ↔ AllFit s mscs := by
  induction mscs generalizing s with
  | nil => exact insideNil
  | cons msc rest ih =>
    unfold accessesIn AllFit
    rw [insideAppend,accessesInside allocated]
    exact and_congr_right fun fits => ih (fitsAllocated allocated fits)

theorem groupBounds (mscs : List (List Bool)) : Lib.Accesses.Inside (accessesIn {} mscs) ↔ AllFit {} mscs :=
  runInside mscs (fun _ none => nomatch none)

theorem markBehindArray : decodeGroup (groupBits 6 600 false 9 [0#8]) = some ⟨6,600,false,9,[0#8,1#8,0#8]⟩ ∧
    .touch .marks 600 512 ∈ accessesIn {} [directoryPart twoSegments 0,groupBits 6 600 false 9 [0#8]] ∧
    ¬ (Access.touch MotMemory.marks 600 512).Inside := by decide +kernel

end MotHandler
end DabStar
