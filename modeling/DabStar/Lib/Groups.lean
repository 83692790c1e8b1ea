import Mathlib

/-! Parts of a list: a stretch of it that is read element by element, and the groups of n
elements it consists of, the last of which may be shorter. -/
namespace DabStar.Lib.Groups
open List

variable {α : Type} {n : Nat}

theorem stretch (l : List α) (d : α) {first count : Nat} (inside : first + count ≤ l.length) :
    (range count).map (fun i => l.getD (first + i) d) = (l.drop first).take count := by
  apply ext_getElem
  · rw [length_map,length_range,length_take,length_drop]
    omega
  · intro i _ _
    rw [getElem_map,getElem_range,getElem_take,getElem_drop,getD_eq_getElem]

def groups (n : Nat) (l : List α) : List (List α) := (range ((l.length + n - 1) / n)).map fun j => (l.drop (n * j)).take n

theorem groupsNil (some : 0 < n) : groups n ([] : List α) = [] := by
  have none : (0 + n - 1) / n = 0 := Nat.div_eq_of_lt (by omega)
  rw [groups,length_nil,none]
  rfl

theorem groupsWhole (some : 0 < n) {first : List α} (whole : first.length = n) (rest : List α) :
    groups n (first ++ rest) = first :: groups n rest := by
  have count : ((first ++ rest).length + n - 1) / n = (rest.length + n - 1) / n + 1 := by
    rw [← Nat.add_div_right _ some,length_append]
    congr 1
    omega
  rw [groups,count,range_succ_eq_map,map_cons,map_map,groups]
  congr 1
  · rw [Nat.mul_zero,drop_zero,← whole,take_left]
  · apply map_congr_left
    intro j _
    have behind : n * (j + 1) = first.length + n * j := by rw [whole,Nat.mul_succ,Nat.add_comm]
    rw [Function.comp_apply,Nat.succ_eq_add_one,behind,drop_length_add_append]

theorem groupsShort {l : List α} (some : 0 < l.length) (short : l.length ≤ n) : groups n l = [l] := by
  have one : (l.length + n - 1) / n = 1 := Nat.div_eq_of_lt_le (by omega) (by omega)
  rw [groups,one,range_one,map_singleton,Nat.mul_zero,drop_zero,take_of_length_le short]

theorem groupsAppend (some : 0 < n) {front : List α} {k : Nat} (border : front.length = n * k) (rest : List α) :
    groups n (front ++ rest) = groups n front ++ groups n rest := by
  induction k generalizing front with
  | zero =>
    have empty := eq_nil_of_length_eq_zero border
    rw [empty,nil_append,groupsNil some,nil_append]
  | succ k ih =>
    have first : (front.take n).length = n := by
      rw [length_take,border,Nat.mul_succ]
      omega
    have behind : (front.drop n).length = n * k := by rw [length_drop,border,Nat.mul_succ,Nat.add_sub_cancel]
    have cut := take_append_drop n front
    rw [← cut,append_assoc,groupsWhole some first,groupsWhole some first,ih behind,cons_append]

end DabStar.Lib.Groups
