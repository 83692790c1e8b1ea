import Mathlib

/-! A circular store that is written at one slot after the other. Seen from the next slot
to be written, the slots are the last writes from the oldest to the newest. -/
namespace DabStar.Lib.DelayLine
open List

variable {α : Type}

/- The write of time t is history (t + n); before it the slots hold history 0 to n - 1. -/
def Holds (n : Nat) (cell : Nat → α) (history : Nat → α) (t : Nat) : Prop := ∀ m < n, cell ((t + m) % n) = history (t + m)

theorem holdsStart {n : Nat} {cell history : Nat → α} (initial : ∀ k < n, cell k = history k) : Holds n cell history 0 := by
  intro m small
  rw [Nat.zero_add,Nat.mod_eq_of_lt small]
  exact initial m small

theorem holdsWrite {n t : Nat} {cell next history : Nat → α} (holds : Holds n cell history t)
    (written : next (t % n) = history (t + n)) (others : ∀ k < n, k ≠ t % n → next k = cell k) : Holds n next history (t + 1) := by
  intro m small
  rcases Nat.lt_or_ge (m + 1) n with inner | last
  · have slot : (t + (m + 1)) % n < n := Nat.mod_lt _ (by omega)
    -- a slot in between is not the one just written
    have other : (t + (m + 1)) % n ≠ t % n := by
      intro same
      have divides : n ∣ m + 1 := by
        have equal := Nat.ModEq.symm same
        rw [Nat.modEq_iff_dvd' (Nat.le_add_right t (m + 1)),Nat.add_sub_cancel_left] at equal
        exact equal
      exact absurd (Nat.le_of_dvd (Nat.succ_pos m) divides) (by omega)
    rw [show t + 1 + m = t + (m + 1) by omega,others _ slot other]
    exact holds (m + 1) inner
  · have whole : t + 1 + m = t + n := by omega
    rw [whole,Nat.add_mod_right]
    exact written

theorem setLength {β : Type} (cells : List β) (place : β → Nat) (values : β → α) (out : List α) :
    (cells.foldl (fun out k => out.set (place k) (values k)) out).length = out.length := by
  induction cells generalizing out with
  | nil => rfl
  | cons k cells ih => rw [foldl_cons,ih,length_set]

theorem storeCells (values : Nat → α) (first : Nat) {count : Nat} {store : List α} (room : first + count ≤ store.length)
    (i : Nat) (default : α) : ((range count).foldl (fun l k => l.set (first + k) (values k)) store).getD i default =
      if first ≤ i ∧ i < first + count then values (i - first) else store.getD i default := by
  induction count with
  | zero => exact (if_neg (by omega)).symm
  | succ count ih =>
    have length := setLength (range count) (first + ·) values store
    rw [range_succ,foldl_append,foldl_cons,foldl_nil]
    by_cases here : first + count = i
    · rw [if_pos (by omega),← here,getD_eq_getElem?_getD,List.getElem?_set_self (by omega),Nat.add_sub_cancel_left]
      rfl
    · rw [getD_eq_getElem?_getD,List.getElem?_set_ne here,← getD_eq_getElem?_getD,ih (by omega)]
      have same : (first ≤ i ∧ i < first + count) ↔ (first ≤ i ∧ i < first + (count + 1)) := by omega
      rw [if_congr same rfl rfl]

end DabStar.Lib.DelayLine
