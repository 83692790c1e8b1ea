import Mathlib

/-! A cyclic redundancy check of 16 bits, bit by bit. The register takes a bit at its top
and is linear, so that a byte can be taken at once with a table of the registers that
single bytes leave. -/
namespace DabStar.Lib.Crc
open List
variable {poly : Nat} {register : Nat}

def shiftIn (poly register : Nat) (bit : Bool) : Nat := ((register <<< 1) % 2 ^ 16) ^^^ (if register.testBit 15 ^^ bit then poly else 0)

def remainder (poly register : Nat) (bits : List Bool) : Nat := bits.foldl (shiftIn poly) register

def byteBits (byte : Nat) : List Bool := (range 8).map (fun k => byte.testBit (7 - k))

theorem shiftInXor (poly a b : Nat) (x y : Bool) : shiftIn poly (a ^^^ b) (x ^^ y) = shiftIn poly a x ^^^ shiftIn poly b y := by
  unfold shiftIn
  rw [Nat.shiftLeft_xor_distrib,Nat.xor_mod_two_pow,Nat.testBit_xor]
  generalize (a <<< 1) % 2 ^ 16 = high
  generalize (b <<< 1) % 2 ^ 16 = low
  cases a.testBit 15 <;> cases b.testBit 15 <;> cases x <;> cases y <;>
    simp [Nat.xor_comm,Nat.xor_left_comm]

theorem remainderXor (poly : Nat) {xs ys : List Bool} (length : xs.length = ys.length) (a b : Nat) :
    remainder poly (a ^^^ b) (List.zipWith xor xs ys) = remainder poly a xs ^^^ remainder poly b ys := by
  induction xs generalizing ys a b with
  | nil =>
    rw [length_nil] at length
    rw [length_eq_zero_iff.mp length.symm]
    rfl
  | cons x xs ih =>
    cases ys with
    | nil => cases length
    | cons y ys =>
      have step := ih (Nat.succ.inj length) (shiftIn poly a x) (shiftIn poly b y)
      rw [← shiftInXor] at step
      exact step

theorem byteBitsXor (a b : Nat) : byteBits (a ^^^ b) = List.zipWith xor (byteBits a) (byteBits b) := by
  unfold byteBits
  rw [zipWith_map,zipWith_self]
  simp only [Nat.testBit_xor]

theorem bytesLength (data : List Nat) : (data.flatMap byteBits).length = 8 * data.length := by
  induction data with
  | nil => rfl
  | cons byte data ih =>
    have eight : (byteBits byte).length = 8 := rfl
    rw [flatMap_cons,length_append,ih,eight,length_cons]
    omega

theorem byteBitsMod (byte : Nat) : byteBits (byte % 256) = byteBits byte := by
  unfold byteBits
  refine map_congr_left fun k _ => ?_
  rw [show 256 = 2 ^ 8 by rfl,Nat.testBit_mod_two_pow]
  have low : 7 - k < 8 := by omega
  simp [low]

theorem remainderByte {table : Nat → Nat} (entries : ∀ i < 256, remainder poly 0 (byteBits i) = table i)
    (high : ∀ i < 256, remainder poly (i <<< 8) (byteBits 0) = table i)
    (low : ∀ i < 256, remainder poly i (byteBits 0) = i <<< 8) (small : register < 2 ^ 16) (byte : Nat) :
    remainder poly register (byteBits byte) = table ((byte ^^^ (register >>> 8)) % 256) ^^^ ((register <<< 8) % 2 ^ 16) := by
  have length : ∀ a b, (byteBits a).length = (byteBits b).length := fun _ _ => rfl
  have top : register >>> 8 < 256 := by
    rw [Nat.shiftRight_eq_div_pow]
    omega
  have moved : (register <<< 8) % 2 ^ 16 = (register % 256) <<< 8 := by
    rw [Nat.shiftLeft_eq,Nat.shiftLeft_eq]
    omega
  have split : register = (register % 256) ^^^ ((register >>> 8) <<< 8) := by
    refine Nat.eq_of_testBit_eq fun i => ?_
    rw [Nat.testBit_xor,show 256 = 2 ^ 8 by rfl,Nat.testBit_mod_two_pow,Nat.testBit_shiftLeft,Nat.testBit_shiftRight]
    by_cases inner : i < 8
    · have outer : ¬8 ≤ i := by omega
      simp [inner,outer]
    · have outer : 8 ≤ i := by omega
      simp [inner,outer]
  have out : remainder poly ((register >>> 8) <<< 8) (byteBits byte) = remainder poly 0 (byteBits (byte ^^^ (register >>> 8))) := by
    have apart := remainderXor poly (length 0 byte) ((register >>> 8) <<< 8) 0
    have together := remainderXor poly (length byte (register >>> 8)) 0 0
    rw [← byteBitsXor,Nat.xor_zero,Nat.zero_xor,high _ top,← entries _ top] at apart
    rw [← byteBitsXor,Nat.xor_zero] at together
    rw [apart,together,Nat.xor_comm]
  have parts := remainderXor poly (length 0 byte) (register % 256) ((register >>> 8) <<< 8)
  rw [← byteBitsXor,Nat.zero_xor,← split,low _ (Nat.mod_lt _ (by decide)),out,← byteBitsMod (byte ^^^ _),
    entries _ (Nat.mod_lt _ (by decide))] at parts
  rw [parts,moved,Nat.xor_comm]

theorem rangeEntry {f : Nat → Nat} {table : List Nat} (same : (range 256).map f = table) : ∀ i < 256, f i = table.getD i 0 := by
  intro i small
  rw [← same,getD_eq_getElem _ _ (by rw [length_map,length_range]; exact small),getElem_map,getElem_range]

theorem remainderBounded (narrow : poly < 2 ^ 16) (bits : List Bool)
    (small : register < 2 ^ 16) : remainder poly register bits < 2 ^ 16 := by
  induction bits generalizing register with
  | nil => exact small
  | cons bit bits ih =>
    refine ih (Nat.xor_lt_two_pow (Nat.mod_lt _ (by decide)) ?_)
    split
    · exact narrow
    · decide

theorem remainderBytes {table : Nat → Nat} (entries : ∀ i < 256, remainder poly 0 (byteBits i) = table i)
    (high : ∀ i < 256, remainder poly (i <<< 8) (byteBits 0) = table i)
    (low : ∀ i < 256, remainder poly i (byteBits 0) = i <<< 8) (narrow : poly < 2 ^ 16) (data : List Nat) (small : register < 2 ^ 16) :
    data.foldl (fun register byte =>
      table ((byte ^^^ (register >>> 8)) % 256) ^^^ ((register <<< 8) % 2 ^ 16)) register =
      remainder poly register (data.flatMap byteBits) := by
  induction data generalizing register with
  | nil => rfl
  | cons byte data ih =>
    have step := remainderByte entries high low small byte
    have rest := ih (remainderBounded narrow (byteBits byte) small)
    rw [foldl_cons,flatMap_cons,← step,rest]
    simp only [remainder,foldl_append]

def wordBits (word : Nat) : List Bool := (range 16).map (fun k => word.testBit (15 - k))

theorem wordBitsXor (a b : Nat) : wordBits (a ^^^ b) = List.zipWith xor (wordBits a) (wordBits b) := by
  unfold wordBits
  rw [zipWith_map,zipWith_self]
  simp only [Nat.testBit_xor]

theorem wordBitsShift (word : Nat) : wordBits ((word <<< 1) % 2 ^ 16) = (wordBits word).drop 1 ++ [false] := by
  have bit : ∀ k < 15, ((word <<< 1) % 2 ^ 16).testBit (15 - k) = word.testBit (15 - (k + 1)) := by
    intro k inside
    have low : 15 - k < 16 := by omega
    have high : 15 - k ≥ 1 := by omega
    have next : 15 - k - 1 = 15 - (k + 1) := by omega
    rw [Nat.testBit_mod_two_pow,Nat.testBit_shiftLeft,decide_eq_true low,decide_eq_true high,next]
    rfl
  have last : ((word <<< 1) % 2 ^ 16).testBit 0 = false := by
    rw [Nat.testBit_mod_two_pow,Nat.testBit_shiftLeft]
    simp
  have split : range 16 = range 15 ++ [15] := rfl
  have rest : (wordBits word).drop 1 = (range 15).map fun k => word.testBit (15 - (k + 1)) := rfl
  rw [rest,wordBits,split,map_append]
  congr 1
  · exact map_congr_left fun k member => bit k (mem_range.mp member)
  · rw [map_cons,map_nil,last]

theorem wordBitsZero {word : Nat} (small : word < 2 ^ 16) : (wordBits word).all (! ·) = true ↔ word = 0 := by
  constructor
  · intro none
    refine Nat.zero_of_testBit_eq_false fun i => ?_
    rcases Nat.lt_or_ge i 16 with inside | outside
    · have bit := all_eq_true.mp none (word.testBit (15 - (15 - i)))
        (mem_map.mpr ⟨15 - i,mem_range.mpr (by omega),rfl⟩)
      have place : 15 - (15 - i) = i := by omega
      simpa [place] using bit
    · exact Nat.testBit_lt_two_pow (Nat.lt_of_lt_of_le small (Nat.pow_le_pow_right (by decide) outside))
  · rintro rfl
    decide

theorem remainderAppend (poly register : Nat) (a b : List Bool) :
    remainder poly register (a ++ b) = remainder poly (remainder poly register a) b := foldl_append

theorem remainderOwn (poly : Nat) {word : Nat} (small : word < 2 ^ 16) : remainder poly word (wordBits word) = 0 := by
  have shifted : ∀ n ≤ 16, remainder poly word ((range n).map fun k => word.testBit (15 - k)) = (word <<< n) % 2 ^ 16 := by
    intro n inside
    induction n with
    | zero => exact (Nat.mod_eq_of_lt small).symm
    | succ n ih =>
      have low : 15 ≥ n := by omega
      have top : ((word <<< n) % 2 ^ 16).testBit 15 = word.testBit (15 - n) := by
        rw [Nat.testBit_mod_two_pow,Nat.testBit_shiftLeft,decide_eq_true low]
        rfl
      rw [range_succ,map_append,remainderAppend,ih (by omega)]
      simp only [map_cons,map_nil,remainder,foldl_cons,foldl_nil,shiftIn,top,Bool.xor_self,
        Bool.false_eq_true,if_false,Nat.xor_zero]
      rw [Nat.shiftLeft_eq,Nat.shiftLeft_eq,Nat.shiftLeft_eq,Nat.pow_succ 2 n,← Nat.mul_assoc]
      omega
  have last := shifted 16 (Nat.le_refl 16)
  rwa [Nat.shiftLeft_eq,Nat.mul_mod_left] at last

theorem shiftInOdd (odd : poly % 2 = 1) (small : register < 2 ^ 16) (zero : shiftIn poly register false = 0) : register = 0 := by
  have bit := congrArg (fun n => n.testBit 0) zero
  unfold shiftIn at zero bit
  cases top : register.testBit 15 with
  | true =>
    simp only [top,Bool.xor_false,if_true,Nat.testBit_zero,Nat.xor_mod_two_eq,Nat.shiftLeft_eq] at bit
    simp at bit
    omega
  | false =>
    have below : register < 2 ^ 15 := by
      refine Nat.lt_pow_two_of_testBit register fun i high => ?_
      rcases Nat.eq_or_lt_of_le high with rfl | above
      · exact top
      · exact Nat.testBit_lt_two_pow (Nat.lt_of_lt_of_le small (Nat.pow_le_pow_right (by decide) above))
    simp only [top,Bool.xor_false,Bool.false_eq_true,if_false,Nat.xor_zero,Nat.shiftLeft_eq] at zero
    omega

theorem remainderZerosOdd (odd : poly % 2 = 1) (narrow : poly < 2 ^ 16) (n : Nat)
    (small : register < 2 ^ 16) (zero : remainder poly register (replicate n false) = 0) : register = 0 := by
  induction n generalizing register with
  | zero => exact zero
  | succ n ih =>
    have next : shiftIn poly register false < 2 ^ 16 := remainderBounded narrow [false] small
    exact shiftInOdd odd small (ih next zero)

theorem remainderWord (odd : poly % 2 = 1) (narrow : poly < 2 ^ 16) {register word : Nat}
    (small : register < 2 ^ 16) (small' : word < 2 ^ 16) : remainder poly register (wordBits word) = 0 ↔ register = word := by
  constructor
  · intro zero
    have apart := remainderXor poly (rfl : (wordBits word).length = (wordBits word).length) register word
    have none : List.zipWith xor (wordBits word) (wordBits word) = replicate 16 false := by
        rw [zipWith_self]
        simp only [Bool.xor_self,map_const',wordBits,length_map,length_range]
    rw [zero,remainderOwn poly small',none,Nat.xor_zero] at apart
    have equal := remainderZerosOdd odd narrow 16 (Nat.xor_lt_two_pow small small') apart
    exact Nat.xor_eq_zero_iff.mp equal
  · rintro rfl
    exact remainderOwn poly small

def column (poly n : Nat) : Nat := remainder poly 0 (true :: replicate n false)

def columns (poly : Nat) : Nat → List Nat
  | 0 => []
  | n + 1 => column poly n :: columns poly n

def select : List Bool → List Nat → Nat
  | bit :: bits, column :: columns => (bif bit then column else 0) ^^^ select bits columns
  | _, _ => 0

theorem shiftInZero (poly : Nat) : shiftIn poly 0 false = 0 := by simp [shiftIn]

theorem remainderZeros (poly n : Nat) : remainder poly 0 (replicate n false) = 0 := by
  induction n with
  | zero => rfl
  | succ n ih =>
    rw [replicate_succ]
    simp only [remainder,foldl_cons,shiftInZero] at ih ⊢
    exact ih

theorem remainderColumns (poly : Nat) (bits : List Bool) : remainder poly 0 bits = select bits (columns poly bits.length) := by
  induction bits with
  | nil => rfl
  | cons bit bits ih =>
    have length : bits.length = (replicate bits.length false).length := by simp
    have same : List.zipWith xor bits (replicate bits.length false) = bits := ext_getElem (by simp) (by simp)
    have apart := remainderXor poly length 0 (shiftIn poly 0 bit)
    rw [Nat.zero_xor,same,ih] at apart
    have first : remainder poly (shiftIn poly 0 bit) (replicate bits.length false) = bif bit then column poly bits.length else 0 := by
      cases bit with
      | true => rfl
      | false =>
        rw [shiftInZero]
        exact remainderZeros poly bits.length
    rw [first] at apart
    simp only [length_cons,columns,select]
    rw [Nat.xor_comm]
    exact apart

theorem selectAppend {a : List Bool} {c : List Nat} (length : a.length = c.length) (b : List Bool) (d : List Nat) :
    select (a ++ b) (c ++ d) = select a c ^^^ select b d := by
  induction a generalizing c with
  | nil =>
    rw [length_nil] at length
    rw [length_eq_zero_iff.mp length.symm]
    simp [select]
  | cons bit a ih =>
    cases c with
    | nil => cases length
    | cons column c =>
      simp only [cons_append,select,ih (Nat.succ.inj length),Nat.xor_assoc]

theorem selectFront (n : Nat) (bits : List Bool) (columns : List Nat) :
    select (replicate n false ++ bits) columns = select bits (columns.drop n) := by
  induction n generalizing columns with
  | zero => rfl
  | succ n ih =>
    cases columns with
    | nil => cases bits <;> rfl
    | cons column columns => simpa [replicate_succ,select] using ih columns

theorem selectBehind (bits : List Bool) (n : Nat) (columns : List Nat) :
    select (bits ++ replicate n false) columns = select bits columns := by
  induction bits generalizing columns with
  | nil =>
    have front := selectFront n [] columns
    simpa [select] using front
  | cons bit bits ih =>
    cases columns with
    | nil => rfl
    | cons column columns => simp only [cons_append,select,ih]

theorem selectXor {a b : List Bool} (length : a.length = b.length) (columns : List Nat) :
    select (List.zipWith xor a b) columns = select a columns ^^^ select b columns := by
  induction a generalizing b columns with
  | nil =>
    rw [length_nil] at length
    rw [length_eq_zero_iff.mp length.symm]
    simp [select]
  | cons x a ih =>
    cases b with
    | nil => cases length
    | cons y b =>
      cases columns with
      | nil => simp [select]
      | cons column columns =>
        simp only [zipWith_cons_cons,select,ih (Nat.succ.inj length)]
        cases x <;> cases y <;> simp [Nat.xor_assoc,Nat.xor_left_comm]

theorem flatMapXor {α : Type} {f g : α → List Bool} (length : ∀ a, (f a).length = (g a).length) (l : List α) :
    l.flatMap (fun a => List.zipWith xor (f a) (g a)) = List.zipWith xor (l.flatMap f) (l.flatMap g) := by
  induction l with
  | nil => rfl
  | cons a l ih => rw [flatMap_cons,flatMap_cons,flatMap_cons,zipWith_append (length a),ih]

end DabStar.Lib.Crc
