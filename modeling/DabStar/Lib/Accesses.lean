import Mathlib.Data.List.Basic
import Mathlib.Tactic.Common

/-! Traces of memory accesses: which element of which memory is read or written, in a
memory of what size, and the size a memory is given. A trace is inside when every index
exists and no size is negative. -/
namespace DabStar.Lib.Accesses
open List

inductive Access (Memory : Type) where
  | touch (memory : Memory) (index : Int) (size : Nat)
  | resize (memory : Memory) (size : Int)
  deriving DecidableEq, Repr

variable {Memory : Type} {trace other : List (Access Memory)} {memory : Memory} {size : Nat}

namespace Access

def Inside : Access Memory → Prop
  | touch _ index size => 0 ≤ index ∧ index < size
  | resize _ size => 0 ≤ size

instance (a : Access Memory) : Decidable a.Inside := by cases a <;> (unfold Inside; infer_instance)

end Access

def Inside (trace : List (Access Memory)) : Prop := ∀ a ∈ trace, a.Inside

instance (trace : List (Access Memory)) : Decidable (Inside trace) := by unfold Inside; infer_instance

@[simp] theorem insideNil : Inside ([] : List (Access Memory)) ↔ True := iff_of_true (fun _ member => nomatch member) trivial

@[simp] theorem insideAppend : Inside (trace ++ other) ↔ Inside trace ∧ Inside other := forall_mem_append

@[simp] theorem insideCons {a : Access Memory} : Inside (a :: trace) ↔ a.Inside ∧ Inside trace := forall_mem_cons

theorem insideIf {c : Prop} [Decidable c] : Inside (if c then trace else other) ↔ (c → Inside trace) ∧ (¬ c → Inside other) := by
  by_cases yes : c <;> simp [yes]

theorem insideWhen {c : Prop} [Decidable c] : Inside (if c then trace else []) ↔ (c → Inside trace) := by
  rw [insideIf]
  exact ⟨And.left,fun inside => ⟨inside,fun _ => insideNil.mpr trivial⟩⟩

@[simp] theorem touchInside {index : Int} : (Access.touch memory index size).Inside ↔ 0 ≤ index ∧ index < size := Iff.rfl

@[simp] theorem resizeInside {size : Int} : (Access.resize memory size).Inside ↔ 0 ≤ size := Iff.rfl

def stretch (memory : Memory) (size : Nat) (first : Int) (count : Nat) : List (Access Memory) :=
  (range count).map (fun k : Nat => .touch memory (first + k) size)

theorem stretchInside {first : Int} {count : Nat} :
    Inside (stretch memory size first count) ↔ count = 0 ∨ 0 ≤ first ∧ first + count ≤ size := by
  unfold Inside stretch
  rw [forall_mem_map]
  constructor
  · intro all
    rcases Nat.eq_zero_or_pos count with none | positive
    · exact .inl none
    · have low := (all 0 (mem_range.mpr positive)).1
      have high := (all (count - 1) (mem_range.mpr (by omega))).2
      exact .inr ⟨by omega,by omega⟩
  · intro fits k member
    have small := mem_range.mp member
    rcases fits with none | ⟨low,high⟩
    · omega
    · exact ⟨by omega,by omega⟩

def descent (memory : Memory) (size : Nat) (first : Int) (count : Nat) : List (Access Memory) :=
  (range count).map (fun k : Nat => .touch memory (first - k) size)

theorem descentInside {first : Int} {count : Nat} :
    Inside (descent memory size first count) ↔ count = 0 ∨ count ≤ first + 1 ∧ first < size := by
  unfold Inside descent
  rw [forall_mem_map]
  constructor
  · intro all
    rcases Nat.eq_zero_or_pos count with none | positive
    · exact .inl none
    · have high := (all 0 (mem_range.mpr positive)).2
      have low := (all (count - 1) (mem_range.mpr (by omega))).1
      exact .inr ⟨by omega,by omega⟩
  · intro fits k member
    have small := mem_range.mp member
    rcases fits with none | ⟨low,high⟩
    · omega
    · exact ⟨by omega,by omega⟩

def scan (stop : Nat → Bool) : Nat → Nat → List Nat
  | 0, _ => []
  | count + 1, start => start :: if stop start then [] else scan stop count (start + 1)

theorem scanBelow {stop : Nat → Bool} {count start k : Nat} (member : k ∈ scan stop count start) : k < start + count := by
  induction count generalizing start with
  | zero => exact nomatch member
  | succ count ih =>
    rcases mem_cons.mp member with rfl | later
    · omega
    · split at later
      · exact nomatch later
      · have below := ih later
        omega

theorem scanInside {stop : Nat → Bool} {count : Nat} (fits : count ≤ size) :
    Inside ((scan stop count 0).map (fun k : Nat => Access.touch memory k size)) := by
  unfold Inside
  rw [forall_mem_map]
  intro k member
  have below := scanBelow member
  exact ⟨by omega,by omega⟩

end DabStar.Lib.Accesses
