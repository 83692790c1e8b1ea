import DabStar.FirecodeChecker
import DabStar.Lib.BitRuns
import DabStar.Lib.Crc
import DabStar.Lib.FirstCome

/-! Which error bursts the fire code finds. The syndrome is linear, and the table holds the
first pattern of each syndrome. Bytes 0 and 1 come last in the polynomial, so bursts over the
border of bytes 1 and 2 are none for the code. -/
namespace DabStar.FirecodeChecker
open List Lib

def bits (x : List U8) : List Bool := (range 11).flatMap (fun i => Crc.byteBits (x.getD i 0#8).toNat)

def flip (x e : List U8) : List U8 := List.zipWith (· ^^^ ·) x e

def bitSyndromes : List Nat :=
  [0x4a09,0x9913,0xf09e,0x784f,0x8030,0x4018,0x200c,0x1006,0x803,0xb816,0x5c0b,
   0x9212,0x4909,0x9893,0xf05e,0x782f,0xc809,0xd813,0xd01e,0x680f,0x8810,0x4408,
   0x2204,0x1102,0x881,0xb857,0xe03c,0x701e,0x380f,0xa010,0x5008,0x2804,0x1402,
   0xa01,0xb917,0xe09c,0x704e,0x3827,0xa004,0x5002,0x2801,0xa817,0xe81c,0x740e,
   0x3a07,0xa114,0x508a,0x2845,0xa835,0xe80d,0xc811,0xd81f,0xd018,0x680c,0x3406,
   0x1a03,0xb116,0x588b,0x9052,0x4829,0x9803,0xf016,0x780b,0x8012,0x4009,0x9c13,
   0xf21e,0x790f,0x8090,0x4048,0x2024,0x1012,0x809,0xb813,0xe01e,0x700f,0x8410,
   0x4208,0x2104,0x1082,0x841,0xb837,0xe00c,0x7006,0x3803,0xa016,0x500b,0x9412]

theorem crcTableBytes : (range 256).map (fun i => Crc.remainder polynom 0 (Crc.byteBits i)) = crcTable := by decide +kernel

theorem crcTableHigh : (range 256).map (fun i => Crc.remainder polynom (i <<< 8) (Crc.byteBits 0)) = crcTable := by decide +kernel

theorem crcTableLow : ∀ i < 256, Crc.remainder polynom i (Crc.byteBits 0) = i <<< 8 := by decide +kernel

theorem crc16Fold (x : List U8) (order : List Nat) {register : Nat} (small : register < 2 ^ 16) : order.foldl (fun crc i =>
      ((crc <<< 8) % 65536) ^^^ crcTable.getD ((crc >>> 8) ^^^ (x.getD i 0#8).toNat) 0) register =
      Crc.remainder polynom register (order.flatMap fun i => Crc.byteBits (x.getD i 0#8).toNat) := by
  induction order generalizing register with
  | nil => rfl
  | cons i order ih =>
    have step := Crc.remainderByte (Crc.rangeEntry crcTableBytes) (Crc.rangeEntry crcTableHigh) crcTableLow small
      (x.getD i 0#8).toNat
    have rest := ih (Crc.remainderBounded (by decide : polynom < 2 ^ 16) (Crc.byteBits (x.getD i 0#8).toNat) small)
    have top : register >>> 8 < 2 ^ 8 := by
      rw [Nat.shiftRight_eq_div_pow]
      omega
    have step' : ((register <<< 8) % 65536) ^^^ crcTable.getD ((register >>> 8) ^^^ (x.getD i 0#8).toNat) 0 =
        Crc.remainder polynom register (Crc.byteBits (x.getD i 0#8).toNat) := by
      rw [step,Nat.mod_eq_of_lt (Nat.xor_lt_two_pow (x.getD i 0#8).isLt top),Nat.xor_comm,Nat.xor_comm (register >>> 8)]
      rfl
    rw [foldl_cons,flatMap_cons,step',rest]
    simp only [Crc.remainder,foldl_append]

theorem bitSyndromesColumns : bitSyndromes.drop 16 ++ bitSyndromes.take 16 = Crc.columns polynom 88 := by decide +kernel

theorem crc16Select (x : List U8) : crc16 x = Crc.select (bits x) bitSyndromes := by
  have memory : range 11 = range 2 ++ List.range' 2 9 := rfl
  have order := Crc.remainderColumns polynom
    ((List.range' 2 9 ++ range 2).flatMap fun i => Crc.byteBits (x.getD i 0#8).toNat)
  have length : ((List.range' 2 9 ++ range 2).flatMap fun i => Crc.byteBits (x.getD i 0#8).toNat).length = 88 := rfl
  unfold crc16 bits
  rw [crc16Fold x _ (by decide),order,length,← bitSyndromesColumns,memory,flatMap_append,flatMap_append,
    Crc.selectAppend rfl,Nat.xor_comm,← Crc.selectAppend rfl,take_append_drop]

theorem bitsLength (x : List U8) : (bits x).length = 88 := rfl

theorem bitsFlip {x e : List U8} (length : x.length = e.length) : bits (flip x e) = List.zipWith xor (bits x) (bits e) := by
  have length' : ∀ i, (Crc.byteBits (x.getD i 0#8).toNat).length = (Crc.byteBits (e.getD i 0#8).toNat).length := fun _ => rfl
  unfold bits
  rw [← Crc.flatMapXor length']
  refine flatMap_congr fun i _ => ?_
  have byte : (flip x e).getD i 0#8 = x.getD i 0#8 ^^^ e.getD i 0#8 := by
    by_cases inside : i < x.length
    · have inside' : i < e.length := length ▸ inside
      simp [flip,getD_eq_getElem?_getD,inside,inside']
    · have outside : ¬i < e.length := length ▸ inside
      simp [flip,getD_eq_getElem?_getD,inside,outside]
  rw [byte,BitVec.toNat_xor,Crc.byteBitsXor]

theorem crc16Flip {x e : List U8} (length : x.length = e.length) : crc16 (flip x e) = crc16 x ^^^ crc16 e := by
  rw [crc16Select,crc16Select,crc16Select,bitsFlip length]
  exact Crc.selectXor (by rw [bitsLength,bitsLength]) bitSyndromes

structure Visit where
  row : Nat
  shift : Nat
  shape : Nat
  deriving DecidableEq, Repr

def slice (first last : Nat) : List Nat := (pattern.drop first).take (last - first)

def visitShift (shift rows first last : Nat) : List Visit := (range rows).flatMap fun i => (slice first last).map fun p => ⟨i,shift,p⟩

def visits : List Visit := visitShift 0 11 0 124 ++ visitShift 4 10 0 45 ++ visitShift 2 10 45 75 ++ visitShift 6 10 60 90

namespace Visit

def error (v : Visit) : List U8 := errorAt v.row v.shift v.shape

def syndrome (v : Visit) : Nat := crc16 v.error

def value (v : Visit) : Nat := ((v.row * 8 + v.shift) <<< 8) + v.shape

structure Fits (v : Visit) : Prop where
  listed : v.shape ∈ pattern
  even : v.shift ∈ [0,2,4,6]
  inside : v.row < 10 ∨ (v.row = 10 ∧ v.shift = 0)

end Visit

theorem patternByte : ∀ p ∈ pattern, p ≠ 0 ∧ p < 256 := by decide +kernel

theorem sliceListed {first last p : Nat} (member : p ∈ slice first last) : p ∈ pattern := mem_of_mem_drop (mem_of_mem_take member)

theorem sliceRange {first last : Nat} (inside : last ≤ 124) (order : first ≤ last) :
    (List.range' first (last - first)).map (fun j => pattern.getD j 0) = slice first last := by
  have length : pattern.length = 124 := rfl
  refine ext_getElem (by simp [slice,length]; omega) fun k left right => ?_
  simp only [length_map,length_range'] at left
  have bound : first + k < pattern.length := by omega
  simp [slice,getD_eq_getElem?_getD,bound]

theorem visitShiftFits {shift rows first last : Nat} (even : shift ∈ [0,2,4,6])
    (inside : rows ≤ 10 ∨ (rows ≤ 11 ∧ shift = 0)) {v : Visit} (member : v ∈ visitShift shift rows first last) : v.Fits := by
  simp only [visitShift,mem_flatMap,mem_map,mem_range] at member
  obtain ⟨i,row,p,listed,rfl⟩ := member
  refine ⟨sliceListed listed,even,?_⟩
  dsimp only
  omega

theorem visitFits {v : Visit} (member : v ∈ visits) : v.Fits := by
  simp only [visits,mem_append] at member
  rcases member with ((member | member) | member) | member <;> exact visitShiftFits (by decide) (by decide) member

theorem fillShiftVisits (shift rows : Nat) {first last : Nat} (inside : last ≤ 124) (order : first ≤ last) (table : List (Nat × Nat)) :
    fillShift shift rows first last table =
      (visitShift shift rows first last).foldl (FirstCome.enter 0 Visit.syndrome Visit.value) table := by
  simp only [fillShift,visitShift,← sliceRange inside order,foldl_flatMap,foldl_map]
  rfl

theorem syndromeTableVisits : syndromeTable = visits.foldl (FirstCome.enter 0 Visit.syndrome Visit.value) [] := by
  rw [syndromeTable,fillShiftVisits 0 11 (by decide) (by decide),fillShiftVisits 4 10 (by decide) (by decide),
    fillShiftVisits 2 10 (by decide) (by decide),fillShiftVisits 6 10 (by decide) (by decide)]
  simp only [visits,foldl_append]

theorem valueParts {v : Visit} (fits : v.Fits) : v.value &&& 0xff = v.shape ∧ v.value >>> 8 = v.row * 8 + v.shift ∧ v.value ≠ 0 := by
  obtain ⟨nonzero,small⟩ := patternByte _ fits.listed
  have mask : v.value &&& 0xff = v.value % 2 ^ 8 := Nat.and_two_pow_sub_one_eq_mod _ 8
  rw [mask,Visit.value,Nat.shiftRight_eq_div_pow,Nat.shiftLeft_eq]
  omega

theorem cellSyndrome (s : Nat) : cell syndromeTable s = ((visits.find? (fun v => v.syndrome = s)).map Visit.value).getD 0 := by
  have used : ∀ v ∈ visits, v.value ≠ 0 := fun v member => (valueParts (visitFits member)).2.2
  rw [syndromeTableVisits]
  exact FirstCome.cellEntered used [] s

section Correction

/- The two bytes that the correction writes; the second is byte 11 only for a pattern without shift. -/
theorem flipTwo {header : List U8} (eleven : header.length = 11) (rest : List U8) {i : Nat} {a b : U8}
    (inside : i < 10 ∨ (i = 10 ∧ b = 0#8)) : ((header ++ rest).set i ((header ++ rest).getD i 0#8 ^^^ a)).set (i + 1)
      (((header ++ rest).set i ((header ++ rest).getD i 0#8 ^^^ a)).getD (i + 1) 0#8 ^^^ b) =
      flip header (((replicate 11 0#8).set i a).set (i + 1) b) ++ rest := by
  refine ext_getElem (by simp [flip,eleven]) fun k left right => ?_
  unfold flip
  grind

theorem errorLength (v : Visit) : v.error.length = 11 := by simp [Visit.error,errorAt]

theorem crc16Front {header : List U8} (eleven : header.length = 11) (rest : List U8) : crc16 (header ++ rest) = crc16 header := by
  have front : bits (header ++ rest) = bits header := by
    refine flatMap_congr fun i small => ?_
    have inside : i < header.length := by simpa [eleven] using small
    rw [getD_append _ _ _ _ inside]
  rw [crc16Select,crc16Select,front]

variable {header : List U8} (eleven : header.length = 11) (rest : List U8)
include eleven

theorem correctClean (clean : crc16 header = 0) : checkAndCorrect6bits (header ++ rest) = (true, header ++ rest) := by
  simp [checkAndCorrect6bits,crc16Front eleven,clean]

theorem correctMissed (fault : crc16 header ≠ 0) (missed : visits.find? (fun v => v.syndrome = crc16 header) = none) :
    checkAndCorrect6bits (header ++ rest) = (false, header ++ rest) := by
  simp [checkAndCorrect6bits,crc16Front eleven,fault,cellSyndrome,missed]

theorem correctFound {v : Visit} (fault : crc16 header ≠ 0) (found : visits.find? (fun v => v.syndrome = crc16 header) = some v) :
    checkAndCorrect6bits (header ++ rest) = (true, flip header v.error ++ rest) := by
  have fits := visitFits (mem_of_find?_eq_some found)
  obtain ⟨mask,place,_⟩ := valueParts fits
  obtain ⟨nonzero,small⟩ := patternByte _ fits.listed
  have shift : v.shift < 8 := by
    have even := fits.even
    simp only [mem_cons,not_mem_nil,or_false] at even
    omega
  have error : BitVec.ofNat 8 v.shape ≠ 0#8 := by
    intro zero
    have number := congrArg BitVec.toNat zero
    simp only [BitVec.toNat_ofNat] at number
    omega
  have row : (v.row * 8 + v.shift) / 8 = v.row := by omega
  have rem : (v.row * 8 + v.shift) % 8 = v.shift := by omega
  have inside : v.row < 10 ∨ (v.row = 10 ∧ BitVec.ofNat 8 v.shape <<< (8 - v.shift) = 0#8) := by
    refine fits.inside.imp_right fun last => ⟨last.1,?_⟩
    rw [last.2]
    exact BitVec.shiftLeft_eq_zero (Nat.le_refl 8)
  have two := flipTwo eleven rest (a := BitVec.ofNat 8 v.shape >>> v.shift) inside
  simp only [checkAndCorrect6bits,crc16Front eleven,cellSyndrome,found,Option.map_some,Option.getD_some,fault,mask,
    place,error,row,rem,if_false,ne_eq,not_false_eq_true,if_true]
  rw [two]
  rfl

end Correction

section Bursts
open BitRuns
variable {e : List U8}

structure LiesAt (e : List U8) (start : Nat) (run : List Bool) : Prop where
  inside : start + run.length ≤ 88
  same : bits e = replicate start false ++ run ++ replicate (88 - (start + run.length)) false

def Burst (e : List U8) : Prop := ∃ start run, run.length ≤ 6 ∧ true ∈ run ∧ LiesAt e start run

def run (p : Nat) : List Bool := (((Crc.byteBits p).dropWhile (!·)).reverse.dropWhile (!·)).reverse

def lead (p : Nat) : Nat := 7 - p.log2

def odd (p : Nat) : Nat := p / p.gcd 256

theorem patternRun : ∀ p ∈ pattern, Trimmed (run p) ∧ (run p).length ≤ 6 ∧ lead p + (run p).length ≤ 8 ∧
    run (odd p) = run p ∧ Crc.byteBits p = replicate (lead p) false ++ run p ++ replicate (8 - (lead p + (run p).length)) false := by
  decide +kernel

theorem liesInner {start a b : Nat} {inner : List Bool}
    (lies : LiesAt e start (replicate a false ++ inner ++ replicate b false)) : LiesAt e (start + a) inner := by
  obtain ⟨inside,same⟩ := lies
  simp only [length_append,length_replicate] at inside same
  refine ⟨by omega,?_⟩
  have behind : 88 - (start + a + inner.length) = b + (88 - (start + (a + inner.length + b))) := by omega
  rw [same,behind,← replicate_append_replicate,← replicate_append_replicate]
  simp only [append_assoc]

theorem liesUnique {s t : Nat} {r q : List Bool} (first : LiesAt e s r) (second : LiesAt e t q)
    (trimmed : Trimmed r) (trimmed' : Trimmed q) : s = t ∧ r = q := trimUnique trimmed trimmed' (first.same.symm.trans second.same)

theorem burstTrimmed (burst : Burst e) : ∃ start run, Trimmed run ∧ run.length ≤ 6 ∧ LiesAt e start run := by
  obtain ⟨start,run,short,one,lies⟩ := burst
  obtain ⟨a,inner,b,rfl,trimmed⟩ := trim run one
  simp only [length_append,length_replicate] at short
  exact ⟨start + a,inner,trimmed,by omega,liesInner lies⟩

theorem flatMapInj {α : Type} {f g : α → List Bool} (length : ∀ a, (f a).length = (g a).length) {l : List α}
    (same : l.flatMap f = l.flatMap g) : ∀ a ∈ l, f a = g a := by
  induction l with
  | nil => exact fun a member => nomatch member
  | cons b l ih =>
    obtain ⟨first,rest⟩ := append_inj same (length b)
    intro a member
    rcases mem_cons.mp member with rfl | member
    · exact first
    · exact ih rest a member

theorem byteBitsInj {a b : U8} (same : Crc.byteBits a.toNat = Crc.byteBits b.toNat) : a = b := by
  refine BitVec.eq_of_getLsbD_eq fun i small => ?_
  have bit := congrArg (fun l => l.getD (7 - i) false) same
  have place : 7 - (7 - i) = i := by omega
  have inside : 7 - i < 8 := by omega
  simpa [Crc.byteBits,BitVec.getLsbD,getD_eq_getElem?_getD,List.getElem?_range inside,place] using bit

theorem bitsInj {a b : List U8} (eleven : a.length = 11) (eleven' : b.length = 11) (same : bits a = bits b) : a = b := by
  have length : ∀ i, (Crc.byteBits (a.getD i 0#8).toNat).length = (Crc.byteBits (b.getD i 0#8).toNat).length := fun _ => rfl
  have bytes := flatMapInj length same
  refine ext_getElem (eleven.trans eleven'.symm) fun i left right => ?_
  have byte := byteBitsInj (bytes i (by simpa [eleven] using left))
  simpa [getD_eq_getElem?_getD,left,right] using byte

end Bursts

theorem zeroBytes {l : List Nat} {f : Nat → U8} (zero : ∀ i ∈ l, f i = 0#8) :
    l.flatMap (fun i => Crc.byteBits (f i).toNat) = replicate (l.length * 8) false := by
  have byte : Crc.byteBits (0#8).toNat = replicate 8 false := by decide
  induction l with
  | nil => rfl
  | cons i l ih =>
    have rest := ih fun j member => zero j (mem_cons_of_mem i member)
    rw [flatMap_cons,rest,zero i mem_cons_self,byte,replicate_append_replicate,length_cons,Nat.succ_mul,Nat.add_comm]

theorem twoBits {i : Nat} (small : i < 10) (a b : U8) : bits (((replicate 11 0#8).set i a).set (i + 1) b) =
      replicate (i * 8) false ++ (Crc.byteBits a.toNat ++ Crc.byteBits b.toNat) ++ replicate (72 - i * 8) false := by
  have order : range 11 = range i ++ [i,i + 1] ++ List.range' (i + 2) (9 - i) := by interval_cases i <;> rfl
  have zero : ∀ j : Nat, (replicate 11 0#8)[j]?.getD 0#8 = 0#8 := by
    intro j
    rw [List.getElem?_replicate]
    split <;> rfl
  have length : (replicate 11 0#8).length = 11 := length_replicate
  generalize replicate 11 0#8 = zeros at zero length ⊢
  have other : ∀ j, j ≠ i → j ≠ i + 1 → ((zeros.set i a).set (i + 1) b).getD j 0#8 = 0#8 := by
    intro j left right
    simp [getD_eq_getElem?_getD,left.symm,right.symm,zero]
  have here : ((zeros.set i a).set (i + 1) b).getD i 0#8 = a := by
    have inside : i < zeros.length := by omega
    simp [getD_eq_getElem?_getD,inside]
  have next : ((zeros.set i a).set (i + 1) b).getD (i + 1) 0#8 = b := by
    have inside : i + 1 < zeros.length := by omega
    simp [getD_eq_getElem?_getD,inside]
  have front := @zeroBytes (range i) (fun j => ((zeros.set i a).set (i + 1) b).getD j 0#8)
    fun j member => by
      rw [mem_range] at member
      exact other j (by omega) (by omega)
  have behind := @zeroBytes (List.range' (i + 2) (9 - i)) (fun j => ((zeros.set i a).set (i + 1) b).getD j 0#8)
    fun j member => by
      rw [mem_range'_1] at member
      exact other j (by omega) (by omega)
  have eight : (9 - i) * 8 = 72 - i * 8 := by omega
  rw [length_range] at front
  rw [length_range',eight] at behind
  unfold bits
  rw [order,flatMap_append,flatMap_append,front,behind,flatMap_cons,flatMap_cons,here,next,flatMap_nil,append_nil]

theorem shiftedBits {p shift : Nat} (byte : p < 2 ^ 8) (small : shift ≤ 8) :
    Crc.byteBits (p >>> shift) ++ Crc.byteBits ((p <<< (8 - shift)) % 2 ^ 8) =
      replicate shift false ++ Crc.byteBits p ++ replicate (8 - shift) false := by
  have above : ∀ k, 8 ≤ k → p.testBit k = false :=
    fun k high => Nat.testBit_lt_two_pow (Nat.lt_of_lt_of_le byte (Nat.pow_le_pow_right (by decide) high))
  refine ext_getElem (by simp [Crc.byteBits]; omega) fun k left _ => ?_
  simp only [Crc.byteBits,length_append,length_map,length_range] at left
  simp only [Crc.byteBits,getElem_append,length_append,length_map,length_range,getElem_map,
    getElem_range,length_replicate,getElem_replicate,Nat.testBit_shiftRight,Nat.testBit_mod_two_pow,
    Nat.testBit_shiftLeft]
  split_ifs with high front inner front inner
  · exact above _ (by omega)
  · exact congrArg p.testBit (by omega)
  · omega
  · omega
  · have place : 7 - (k - 8) - (8 - shift) = 7 - (k - shift) := by omega
    have low : 7 - (k - 8) < 8 := by omega
    have moved : 7 - (k - 8) ≥ 8 - shift := by omega
    simp [place,low,moved]
  · have moved : ¬7 - (k - 8) ≥ 8 - shift := by omega
    simp [moved]

theorem lastBits (a b : U8) : bits (((replicate 11 0#8).set 10 a).set 11 b) = replicate 80 false ++ Crc.byteBits a.toNat := by
  have front := @zeroBytes (range 10) (fun j => (((replicate 11 0#8).set 10 a).set 11 b).getD j 0#8)
    fun j member => by
      have small := mem_range.mp member
      interval_cases j <;> rfl
  have order : range 11 = range 10 ++ [10] := rfl
  unfold bits
  rw [order,flatMap_append,front]
  rfl

namespace Visit

def start (v : Visit) : Nat := v.row * 8 + v.shift + lead v.shape

end Visit

theorem visitWhole {v : Visit} (fits : v.Fits) : LiesAt v.error (v.row * 8 + v.shift) (Crc.byteBits v.shape) := by
  have eight : (Crc.byteBits v.shape).length = 8 := rfl
  have byte : (BitVec.ofNat 8 v.shape).toNat = v.shape := (BitVec.toNat_ofNat _ _).trans (Nat.mod_eq_of_lt (patternByte _ fits.listed).2)
  have even := fits.even
  simp only [mem_cons,not_mem_nil,or_false] at even
  rcases fits.inside with small | ⟨last,unshifted⟩
  · refine ⟨by rw [eight]; omega,?_⟩
    have behind : 88 - (v.row * 8 + v.shift + 8) = (8 - v.shift) + (72 - v.row * 8) := by omega
    rw [Visit.error,errorAt,twoBits small,BitVec.toNat_ushiftRight,BitVec.toNat_shiftLeft,byte,
      shiftedBits (patternByte _ fits.listed).2 (by omega),eight,behind,← replicate_append_replicate,
      ← replicate_append_replicate]
    simp only [append_assoc]
  · refine ⟨by rw [eight]; omega,?_⟩
    rw [Visit.error,errorAt,last,unshifted,lastBits,BitVec.toNat_ushiftRight,byte]
    simp [eight]

theorem visitLies {v : Visit} (fits : v.Fits) : LiesAt v.error v.start (run v.shape) := by
  obtain ⟨_,_,_,_,parts⟩ := patternRun _ fits.listed
  have whole := visitWhole fits
  rw [parts] at whole
  exact liesInner whole

def code (offset q : Nat) : Nat := offset * 64 + q

def codeShift (shift first last : Nat) : List Nat := (slice first last).map fun p => code (shift + lead p) (odd p)

def crossing : List Nat := codeShift 4 0 45 ++ codeShift 2 45 75 ++ codeShift 6 60 90

def codes : List Nat := codeShift 0 0 124 ++ crossing

theorem codesMarks : FirstCome.marks codes =
    0xaaaa2aaa8aaaaaaaaaaa2aaa8aaaaaaa000000008aaaaaaaaaaa2aaa8aaaaaaaaaaa2aaaaaaaaaaaaaaa2aaaaaaaaaaaaaaa2aaaaaaaaaaaaaaa2aaaaaaaaaaa := by
  decide +kernel

theorem codesListed {offset k : Nat} (small : offset < 8) (short : k < 32) (factor : 2 * k + 1 ≠ 0b101111) :
    code offset (2 * k + 1) ∈ codes ↔ ¬((run (2 * k + 1)).length = 6 ∧ offset = 5) ∧ ¬(2 * k + 1 = 0b11101 ∧ 4 ≤ offset) := by
  have table : ∀ offset ∈ range 8, ∀ k ∈ range 32, 2 * k + 1 ≠ 0b101111 →
      (Nat.testBit 0xaaaa2aaa8aaaaaaaaaaa2aaa8aaaaaaa000000008aaaaaaaaaaa2aaa8aaaaaaaaaaa2aaaaaaaaaaaaaaa2aaaaaaaaaaaaaaa2aaaaaaaaaaaaaaa2aaaaaaaaaaa
        (code offset (2 * k + 1)) = true ↔
      ¬((run (2 * k + 1)).length = 6 ∧ offset = 5) ∧ ¬(2 * k + 1 = 0b11101 ∧ 4 ≤ offset)) := by
    decide
  rw [← FirstCome.marksTestBit,codesMarks]
  exact table offset (mem_range.mpr small) k (mem_range.mpr short) factor

theorem crossingBorder : ∀ c ∈ crossing, 8 < c / 64 + (run (c % 64)).length := by decide

theorem codesOffset : ∀ c ∈ codes, c / 64 < 8 := by decide +kernel

theorem oddSmall : ∀ p ∈ pattern, odd p < 64 := by decide +kernel

theorem runOdd {r : List Bool} (trimmed : BitRuns.Trimmed r) (short : r.length ≤ 6) : ∃ k < 32, r = run (2 * k + 1) := by
  have one : ∀ a, BitRuns.Trimmed [a] → ∃ k < 32, [a] = run (2 * k + 1) := by decide
  have two : ∀ a b, BitRuns.Trimmed [a,b] → ∃ k < 32, [a,b] = run (2 * k + 1) := by decide
  have three : ∀ a b c, BitRuns.Trimmed [a,b,c] → ∃ k < 32, [a,b,c] = run (2 * k + 1) := by decide
  have four : ∀ a b c d, BitRuns.Trimmed [a,b,c,d] → ∃ k < 32, [a,b,c,d] = run (2 * k + 1) := by decide
  have five : ∀ a b c d e, BitRuns.Trimmed [a,b,c,d,e] → ∃ k < 32, [a,b,c,d,e] = run (2 * k + 1) := by decide
  have six : ∀ a b c d e f, BitRuns.Trimmed [a,b,c,d,e,f] → ∃ k < 32, [a,b,c,d,e,f] = run (2 * k + 1) := by decide
  match r, trimmed, short with
  | [], trimmed, _ => cases trimmed.1
  | [a], trimmed, _ => exact one a trimmed
  | [a,b], trimmed, _ => exact two a b trimmed
  | [a,b,c], trimmed, _ => exact three a b c trimmed
  | [a,b,c,d], trimmed, _ => exact four a b c d trimmed
  | [a,b,c,d,e], trimmed, _ => exact five a b c d e trimmed
  | [a,b,c,d,e,f], trimmed, _ => exact six a b c d e f trimmed

theorem codeVisit {shift rows first last row offset q : Nat} (small : row < rows) (short : q < 64)
    (member : code offset q ∈ codeShift shift first last) :
    ∃ v ∈ visitShift shift rows first last, v.start = row * 8 + offset ∧ odd v.shape = q := by
  simp only [codeShift,mem_map] at member
  obtain ⟨p,listed,same⟩ := member
  have odd64 := oddSmall p (sliceListed listed)
  unfold code at same
  refine ⟨⟨row,shift,p⟩,?_,?_,?_⟩
  · simp only [visitShift,mem_flatMap,mem_map,mem_range]
    exact ⟨row,small,p,listed,rfl⟩
  · unfold Visit.start
    dsimp only
    omega
  · dsimp only
    omega

theorem visitCode {shift rows first last : Nat} {v : Visit} (member : v ∈ visitShift shift rows first last) :
    code (v.shift + lead v.shape) (odd v.shape) ∈ codeShift shift first last := by
  simp only [visitShift,mem_flatMap,mem_map,mem_range] at member
  obtain ⟨row,_,p,listed,rfl⟩ := member
  exact mem_map.mpr ⟨p,listed,rfl⟩

theorem codesVisited {row offset q : Nat} (short : q < 64) (one : 0 < (run q).length)
    (inside : row * 8 + offset + (run q).length ≤ 88) (member : code offset q ∈ codes) :
    ∃ v ∈ visits, v.start = row * 8 + offset ∧ odd v.shape = q := by
  simp only [visits,mem_append]
  rcases mem_append.mp member with plain | cross
  · obtain ⟨v,visited,place⟩ := @codeVisit _ 11 _ _ row _ _ (by omega) short plain
    exact ⟨v,.inl (.inl (.inl visited)),place⟩
  · have border := crossingBorder _ cross
    have parts : code offset q / 64 = offset ∧ code offset q % 64 = q := by
      unfold code
      omega
    rw [parts.1,parts.2] at border
    have small : row < 10 := by omega
    simp only [crossing,mem_append] at cross
    rcases cross with (four | two) | six
    · obtain ⟨v,visited,place⟩ := codeVisit small short four
      exact ⟨v,.inl (.inl (.inr visited)),place⟩
    · obtain ⟨v,visited,place⟩ := codeVisit small short two
      exact ⟨v,.inl (.inr visited),place⟩
    · obtain ⟨v,visited,place⟩ := codeVisit small short six
      exact ⟨v,.inr visited,place⟩

theorem visitedCodes {v : Visit} (member : v ∈ visits) : code (v.start % 8) (odd v.shape) ∈ codes := by
  have listed : code (v.shift + lead v.shape) (odd v.shape) ∈ codes := by
    simp only [codes,crossing,mem_append]
    simp only [visits,mem_append] at member
    rcases member with ((plain | four) | two) | six
    · exact .inl (visitCode plain)
    · exact .inr (.inl (.inl (visitCode four)))
    · exact .inr (.inl (.inr (visitCode two)))
    · exact .inr (.inr (visitCode six))
  have odd64 := oddSmall _ (visitFits member).listed
  have small := codesOffset _ listed
  have offset : v.start % 8 = v.shift + lead v.shape := by
    unfold Visit.start
    unfold code at small
    omega
  rw [offset]
  exact listed

theorem runInj : ∀ k < 32, ∀ m < 32, run (2 * k + 1) = run (2 * m + 1) → k = m := by decide

theorem oddVisit : ∀ p ∈ pattern, odd p % 2 = 1 ∧ odd p ≠ 0b101111 := by decide +kernel

theorem visitedIff {e : List U8} (eleven : e.length = 11) {start : Nat} {r : List Bool} (lies : LiesAt e start r)
    (trimmed : BitRuns.Trimmed r) (short : r.length ≤ 6) (factor : r ≠ run 0b101111) : (∃ v ∈ visits, v.error = e) ↔
      ¬(r.length = 6 ∧ start % 8 = 5) ∧ ¬(r = run 0b11101 ∧ 4 ≤ start % 8) := by
  obtain ⟨k,small,rfl⟩ := runOdd trimmed short
  have factor' : 2 * k + 1 ≠ 0b101111 := fun same => factor (by rw [same])
  have other : run (2 * k + 1) = run 0b11101 ↔ 2 * k + 1 = 0b11101 :=
    ⟨fun same => by rw [runInj k small 14 (by decide) same],fun same => by rw [same]⟩
  rw [other,← codesListed (Nat.mod_lt start (by decide)) small factor']
  constructor
  · rintro ⟨v,visited,rfl⟩
    have fits := visitFits visited
    obtain ⟨trim,_,_,same,_⟩ := patternRun _ fits.listed
    obtain ⟨place,shape⟩ := liesUnique lies (visitLies fits) trimmed trim
    obtain ⟨parity,_⟩ := oddVisit _ fits.listed
    have odd64 := oddSmall _ fits.listed
    have number : odd v.shape = 2 * k + 1 := by
      have half : odd v.shape = 2 * (odd v.shape / 2) + 1 := by omega
      have equal := runInj k small (odd v.shape / 2) (by omega) (by rw [← half,same]; exact shape)
      omega
    rw [place,← number]
    exact visitedCodes visited
  · intro listed
    have one : 0 < (run (2 * k + 1)).length := by
      obtain ⟨rest,front⟩ := BitRuns.trimmedFront trimmed
      rw [front]
      exact Nat.succ_pos _
    have inside := lies.inside
    obtain ⟨v,visited,place,number⟩ := @codesVisited (start / 8) _ _ (by omega) one (by omega) listed
    have fits := visitFits visited
    have same := (patternRun _ fits.listed).2.2.2.1
    have where' : v.start = start := by omega
    have there := visitLies fits
    rw [where',← same,number] at there
    exact ⟨v,visited,bitsInj (errorLength v) eleven (there.same.trans lies.same.symm)⟩

end DabStar.FirecodeChecker
