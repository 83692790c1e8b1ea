import Mathlib

/-! A binary file with a position. A write replaces what stands there and makes the file
longer where it ends; a gap that a seek left behind the end is filled with zeros. Numbers
are written with the lowest byte first. -/
namespace DabStar.Lib.Files
open List

structure SeekFile where
  bytes : List (BitVec 8)
  position : Nat
  deriving DecidableEq, Repr

def empty : SeekFile := ⟨[],0⟩

def littleEndian (count n : Nat) : List (BitVec 8) := (range count).map fun i => BitVec.ofNat 8 (n >>> (8 * i))

@[simp] theorem littleEndianLength (count n : Nat) : (littleEndian count n).length = count := by simp [littleEndian]

namespace SeekFile

def seekSet (f : SeekFile) (offset : Nat) : SeekFile := { f with position := offset }

def seekCur (f : SeekFile) (offset : Nat) : SeekFile := { f with position := f.position + offset }

def seekEnd (f : SeekFile) : SeekFile := { f with position := f.bytes.length }

def filled (f : SeekFile) : List (BitVec 8) := f.bytes ++ replicate (f.position - f.bytes.length) 0#8

def write (f : SeekFile) (data : List (BitVec 8)) : SeekFile :=
  if data = [] then f
  else
    { bytes := f.filled.take f.position ++ data ++ f.filled.drop (f.position + data.length)
      position := f.position + data.length }

theorem writeBehind {f : SeekFile} (gap : Nat) (behind : f.position = f.bytes.length + gap) {data : List (BitVec 8)} (some : data ≠ []) :
    f.write data = ⟨f.bytes ++ replicate gap 0#8 ++ data,f.position + data.length⟩ := by
  have short : f.position - f.bytes.length = gap := by omega
  have whole : f.filled.length = f.position := by
    rw [filled,length_append,length_replicate]
    omega
  rw [write,if_neg some,take_of_length_le (by omega),drop_eq_nil_of_le (by omega),append_nil,filled,short]

theorem writeAtEnd {f : SeekFile} (atEnd : f.position = f.bytes.length) (data : List (BitVec 8)) :
    f.write data = ⟨f.bytes ++ data,f.position + data.length⟩ := by
  by_cases none : data = []
  · rw [write,if_pos none,none,append_nil]
    rfl
  · rw [writeBehind 0 atEnd none,replicate_zero,append_nil]

theorem writeOver {front behind : List (BitVec 8)} {position : Nat} (place : position = front.length) (data : List (BitVec 8)) :
    (SeekFile.mk (front ++ behind) position).write data = ⟨front ++ data ++ behind.drop data.length,position + data.length⟩ := by
  by_cases none : data = []
  · rw [write,if_pos none,none,append_nil]
    rfl
  · have gap : position - (front ++ behind).length = 0 := by
      rw [place,length_append]
      omega
    have same : (SeekFile.mk (front ++ behind) position).filled = front ++ behind := by rw [filled,gap,replicate_zero,append_nil]
    rw [write,if_neg none,same,place,take_left,drop_length_add_append]

end SeekFile

end DabStar.Lib.Files
