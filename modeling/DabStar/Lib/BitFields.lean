import Mathlib

/-! Fields of bits, one behind the other and the highest bit first: what is written as the
bits of a field is read back as its number, and a part of a field as a part of it. -/
namespace DabStar.Lib.BitFields
open List

variable {d : Nat → Bool} {offset w : Nat}

def number (d : Nat → Bool) (offset : Nat) : Nat → Nat
  | 0 => 0
  | n + 1 => 2 * number d offset n + (d (offset + n)).toNat

def Written (d : Nat → Bool) (offset : Nat) (bits : List Bool) : Prop := ∀ i < bits.length, d (offset + i) = bits.getD i false

instance (d : Nat → Bool) (offset : Nat) (bits : List Bool) : Decidable (Written d offset bits) := by unfold Written; infer_instance

def field (v : BitVec w) : List Bool := (range w).map fun i => v.getMsbD i

@[simp] theorem fieldLength (v : BitVec w) : (field v).length = w := by simp [field]

theorem fieldBit (v : BitVec w) {i : Nat} (inside : i < w) : (field v).getD i false = v.getMsbD i := by
  rw [field,getD_eq_getElem?_getD,List.getElem?_map,List.getElem?_range inside,Option.map_some,Option.getD_some]

theorem flatMapLength {α β : Type} {f : α → List β} {n : Nat} (length : ∀ a, (f a).length = n) (l : List α) :
    (l.flatMap f).length = n * l.length := by
  induction l with
  | nil => rfl
  | cons a l ih => rw [flatMap_cons,length_append,ih,length,length_cons,Nat.mul_succ,Nat.add_comm]

theorem writtenAppend {a b : List Bool} : Written d offset (a ++ b) ↔ Written d offset a ∧ Written d (offset + a.length) b := by
  constructor
  · intro written
    constructor
    · intro i inside
      have bit := written i (by rw [length_append]; omega)
      rwa [getD_append _ _ _ _ inside] at bit
    · intro i inside
      have bit := written (a.length + i) (by rw [length_append]; omega)
      rwa [getD_append_right _ _ _ _ (by omega),Nat.add_sub_cancel_left,← Nat.add_assoc] at bit
  · rintro ⟨first,second⟩ i inside
    rw [length_append] at inside
    by_cases front : i < a.length
    · rw [getD_append _ _ _ _ front]
      exact first i front
    · have bit := second (i - a.length) (by omega)
      rw [getD_append_right _ _ _ _ (by omega)]
      rwa [Nat.add_assoc,Nat.add_sub_cancel' (by omega)] at bit

def alone (bits : List Bool) : Nat → Bool := fun i => bits.getD i false

theorem writtenAlone (bits : List Bool) : Written (alone bits) 0 bits := by
  intro i _
  rw [Nat.zero_add,alone]

theorem fieldPart {v : BitVec w} (written : Written d offset (field v)) (k n : Nat) (inside : k + n ≤ w) :
    number d (offset + k) n = v.toNat / 2 ^ (w - (k + n)) % 2 ^ n := by
  induction n with
  | zero => simp [number,Nat.mod_one]
  | succ n ih =>
    have place : w - (k + n) = w - (k + (n + 1)) + 1 := by omega
    have bit : d (offset + k + n) = v.toNat.testBit (w - (k + (n + 1))) := by
      have here := written (k + n) (by rw [fieldLength]; omega)
      have low : w - 1 - (k + n) = w - (k + (n + 1)) := by omega
      have small : k + n < w := by omega
      rw [Nat.add_assoc,here,fieldBit v small,BitVec.getMsbD,decide_eq_true small,Bool.true_and,low]
      rfl
    have half := ih (by omega)
    rw [place,Nat.pow_succ,← Nat.div_div_eq_div_mul] at half
    rw [number,half,bit,Nat.pow_succ 2 n,Nat.mul_comm (2 ^ n),Nat.mod_mul,Nat.toNat_testBit,Nat.add_comm]

theorem fieldNumber {v : BitVec w} (written : Written d offset (field v)) : number d offset w = v.toNat := by
  have part := fieldPart written 0 w (by omega)
  rwa [Nat.add_zero,Nat.zero_add,Nat.sub_self,Nat.pow_zero,Nat.div_one,Nat.mod_eq_of_lt v.isLt] at part

variable (d : Nat → Bool)

theorem numberAppend (offset a b : Nat) : number d offset (a + b) = number d offset a * 2 ^ b + number d (offset + a) b := by
  induction b with
  | zero => rw [Nat.pow_zero,Nat.mul_one]; rfl
  | succ b ih =>
    rw [← Nat.add_assoc,number,ih,number,Nat.add_assoc offset a b,Nat.pow_succ]
    ring

theorem numberLt (offset n : Nat) : number d offset n < 2 ^ n := by
  induction n with
  | zero => exact Nat.one_pos
  | succ n ih =>
    have bit := Bool.toNat_le (d (offset + n))
    rw [number,Nat.pow_succ]
    omega

def byteBits (data : List (BitVec 8)) (i : Nat) : Bool := (data.getD (i / 8) 0#8).getMsbD (i % 8)

theorem byteWritten (data : List (BitVec 8)) (k : Nat) : Written (byteBits data) (8 * k) (field (data.getD k 0#8)) := by
  intro i inside
  rw [fieldLength] at inside
  have byte : (8 * k + i) / 8 = k := by omega
  have bit : (8 * k + i) % 8 = i := by omega
  rw [byteBits,byte,bit,fieldBit _ inside]

theorem bytesNumber (data : List (BitVec 8)) (first count : Nat) :
    (range count).foldl (fun accum i => (accum <<< 8) ||| (data.getD (first + i) 0#8).toNat) 0 =
      number (byteBits data) (8 * first) (8 * count) := by
  induction count with
  | zero => rfl
  | succ count ih =>
    have byte := fieldNumber (byteWritten data (first + count))
    rw [range_succ,foldl_append,ih,Nat.mul_succ,numberAppend,← Nat.mul_add,byte]
    exact (Nat.shiftLeft_add_eq_or_of_lt (data.getD (first + count) 0#8).isLt _).symm.trans (by rw [Nat.shiftLeft_eq])

theorem numberCut (offset above n below : Nat) :
    (number d offset (above + n + below) >>> below) &&& (1 <<< n - 1) = number d (offset + above) n := by
  have low := numberLt d (offset + (above + n)) below
  have value := numberLt d (offset + above) n
  rw [Nat.one_shiftLeft,Nat.and_two_pow_sub_one_eq_mod,Nat.shiftRight_eq_div_pow,numberAppend,Nat.add_comm,Nat.add_mul_div_right _ _ (Nat.two_pow_pos below),
    Nat.div_eq_of_lt low,Nat.zero_add,numberAppend,Nat.add_comm,Nat.add_mul_mod_self_right,Nat.mod_eq_of_lt value]

end DabStar.Lib.BitFields
