import Mathlib.Data.List.Dedup
import Mathlib.Data.List.DropRight
import Mathlib.Tactic.Common

/-! The values of a history in the order of their last use, and the last few of them. A table
of fixed size holds them behind fillers: a use moves a value from its place to the end, or
pushes the oldest one out. -/
namespace DabStar.Lib.RecentUse
open List
variable {α : Type} [DecidableEq α] {history : List α} {a filler : α} {size : Nat}

def recent (size : Nat) (history : List α) : List α := history.dedup.rtake size

def table (size : Nat) (filler : α) (history : List α) : List α :=
  replicate (size - (recent size history).length) filler ++ recent size history

theorem dedupUse (history : List α) (a : α) : (history ++ [a]).dedup = history.dedup.erase a ++ [a] := by
  rw [(nodup_dedup history).erase_eq_filter]
  induction history with
  | nil => simp
  | cons b rest ih =>
    by_cases again : b ∈ rest
    · rw [cons_append,dedup_cons_of_mem (by simp [again]),ih,dedup_cons_of_mem again]
    · rw [cons_append,dedup_cons_of_notMem again]
      by_cases same : b = a
      · simp [same,ih]
      · rw [dedup_cons_of_notMem (by simp [again,same]),ih]
        simp [same]

theorem tableRtake : table size filler history = (replicate size filler ++ history.dedup).rtake size := by
  simp only [table,recent,rtake,length_append,length_replicate,drop_append,drop_replicate,length_drop]
  congr 2 <;> omega

@[simp] theorem tableLength : (table size filler history).length = size := by simp [tableRtake,rtake]

theorem memTable (other : a ≠ filler) : a ∈ table size filler history ↔ a ∈ recent size history := by simp [table,other]

theorem rowCut (size : Nat) (history : List α) (other : a ≠ filler) : ∃ front, (front ++ table size filler history).count a ≤ 1 ∧
    (front ++ table size filler history).erase a ++ [a] = replicate size filler ++ (history ++ [a]).dedup := by
  have row := take_append_drop ((replicate size filler ++ history.dedup).length - size) (replicate size filler ++ history.dedup)
  have absent : a ∉ replicate size filler := by simp [other]
  refine ⟨(replicate size filler ++ history.dedup).take ((replicate size filler ++ history.dedup).length - size),?_,?_⟩
  · rw [tableRtake,rtake,row,count_append,count_eq_zero_of_not_mem absent,Nat.zero_add]
    exact nodup_iff_count_le_one.mp (nodup_dedup history) a
  · rw [tableRtake,rtake,row,erase_append_right _ absent,dedupUse,append_assoc]

omit [DecidableEq α] in
theorem rtakeLast {l back : List α} {n : Nat} (front : List α) (whole : l = front ++ back) (long : back.length = n) :
    (l ++ [a]).rtake (n + 1) = back ++ [a] := by
  rw [rtake_concat_succ,whole,rtake,length_append,long,Nat.add_sub_cancel_right,drop_left]

theorem useHit (other : a ≠ filler) (hit : a ∈ table (size + 1) filler history) :
    table (size + 1) filler (history ++ [a]) = (table (size + 1) filler history).erase a ++ [a] := by
  obtain ⟨front,once,next⟩ := rowCut (size + 1) history other
  have before : a ∉ front := by
    rw [count_append] at once
    have := count_pos_iff.mpr hit
    exact count_eq_zero.mp (by omega)
  rw [erase_append_right _ before] at next
  conv_lhs => rw [tableRtake,← next]
  exact rtakeLast front rfl (by rw [length_erase_of_mem hit,tableLength]; rfl)

theorem useMiss (other : a ≠ filler) (miss : a ∉ table (size + 1) filler history) :
    table (size + 1) filler (history ++ [a]) = (table (size + 1) filler history).drop 1 ++ [a] := by
  obtain ⟨front,-,next⟩ := rowCut (size + 1) history other
  conv_lhs => rw [tableRtake,← next]
  refine rtakeLast (front.erase a ++ (table (size + 1) filler history).take 1) ?_ (by simp)
  rw [append_assoc,take_append_drop]
  by_cases before : a ∈ front
  · rw [erase_append_left _ before]
  · rw [erase_of_not_mem (by simp [before,miss]),erase_of_not_mem before]

end DabStar.Lib.RecentUse
