import Mathlib

/-! A table of slots searched from the front, and what becomes of a search when one slot
is written. -/
namespace DabStar.Lib.Slots
open List

variable {α β : Type} {f : α → Option β} {l : List α} {i : Nat}

theorem findSomeSetOther (before : ∀ a, l[i]? = some a → f a = none) {b : α} (after : f b = none) :
    (l.set i b).findSome? f = l.findSome? f := by
  induction l generalizing i with
  | nil => rfl
  | cons a l ih =>
    cases i with
    | zero =>
      have none := before a rfl
      rw [set_cons_zero,List.findSome?_cons,List.findSome?_cons,after,none]
    | succ i =>
      rw [set_cons_succ,List.findSome?_cons,List.findSome?_cons,ih before]

theorem findSomeSet (front : ∀ j < i, ∀ a, l[j]? = some a → f a = none) (inside : i < l.length) {b : α} {v : β}
    (answers : f b = some v) : (l.set i b).findSome? f = some v := by
  induction l generalizing i with
  | nil => exact absurd inside (Nat.not_lt_zero i)
  | cons a l ih =>
    cases i with
    | zero => rw [set_cons_zero,List.findSome?_cons,answers]
    | succ i =>
      have none := front 0 (Nat.succ_pos i) a rfl
      rw [set_cons_succ,List.findSome?_cons,none]
      exact ih (fun j less a' here => front (j + 1) (Nat.succ_lt_succ less) a' here) (Nat.lt_of_succ_lt_succ inside)

theorem freeSlot {l : List (Option α)} {g : α → β} (fewer : (l.filterMap (Option.map g)).length < l.length) :
    ∃ i, l.findIdx? Option.isNone = some i := by
  cases found : l.findIdx? Option.isNone with
  | some i => exact ⟨i,rfl⟩
  | none =>
    have filled : ∀ a ∈ l, (Option.map g a).isSome = true := fun a member => by
      rw [Option.isSome_map,← Option.not_isNone,List.findIdx?_eq_none_iff.mp found a member]
      rfl
    rw [length_filterMap_eq_countP,countP_eq_length.mpr filled] at fewer
    exact absurd fewer (lt_irrefl _)

theorem fillPerm {l : List (Option α)} {g : α → β} (free : l[i]? = some none) (x : α) :
    ((l.set i (some x)).filterMap (Option.map g)).Perm (g x :: l.filterMap (Option.map g)) := by
  induction l generalizing i with
  | nil => exact nomatch free
  | cons a l ih =>
    cases i with
    | zero =>
      obtain rfl : a = none := Option.some.inj free
      exact List.Perm.refl _
    | succ i =>
      have rest := ih (i := i) free
      rw [set_cons_succ]
      cases a with
      | none => exact rest
      | some y =>
        show (g y :: (l.set i (some x)).filterMap (Option.map g)).Perm (g x :: g y :: l.filterMap (Option.map g))
        exact (rest.cons (g y)).trans (List.Perm.swap _ _ _)

theorem overwriteKeys {l : List (Option α)} {g : α → β} {x y : α} (here : l[i]? = some (some x)) (same : g y = g x) :
    (l.set i (some y)).filterMap (Option.map g) = l.filterMap (Option.map g) := by
  induction l generalizing i with
  | nil => exact nomatch here
  | cons a l ih =>
    cases i with
    | zero =>
      obtain rfl : a = some x := Option.some.inj here
      show g y :: l.filterMap (Option.map g) = g x :: l.filterMap (Option.map g)
      rw [same]
    | succ i =>
      have rest := ih (i := i) here
      rw [set_cons_succ,filterMap_cons,filterMap_cons,rest]

end DabStar.Lib.Slots
