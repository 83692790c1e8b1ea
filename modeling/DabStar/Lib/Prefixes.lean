import Mathlib.Data.List.Basic
import Mathlib.Data.List.Infix
import Mathlib.Tactic.Common

/-! What a prefix of a sequence looks like when the sequence is put together from parts:
it ends within one of them, and has those before it as a whole. -/
namespace DabStar.Lib.Prefixes
open List

variable {α β : Type} {a b c q : List α}

theorem prefixAppendCases (part : q <+: a ++ b) : q <+: a ∨ ∃ r, q = a ++ r ∧ r <+: b := by
  rcases prefix_or_prefix_of_prefix part (prefix_append a b) with early | ⟨r,rfl⟩
  · exact .inl early
  · exact .inr ⟨r,rfl,(prefix_append_right_inj a).mp part⟩

theorem takePrefix {n : Nat} (front : a <+: b ++ c) (short : n ≤ a.length) (inside : n ≤ b.length) : b.take n = a.take n := by
  obtain ⟨rest,whole⟩ := front
  have left : (a ++ rest).take n = a.take n := take_append_of_le_length short
  have right : (b ++ c).take n = b.take n := take_append_of_le_length inside
  rw [← left,← right,whole]

theorem prefixFlatMap {f : β → List α} {l : List β} (part : q <+: l.flatMap f) :
    q = [] ∨ ∃ j x r, l[j]? = some x ∧ r ≠ [] ∧ r <+: f x ∧ q = (l.take j).flatMap f ++ r := by
  induction l generalizing q with
  | nil => exact .inl (prefix_nil.mp part)
  | cons x l ih =>
    rw [flatMap_cons] at part
    by_cases none : q = []
    · exact .inl none
    rcases prefixAppendCases part with early | ⟨r,rfl,later⟩
    · exact .inr ⟨0,x,q,rfl,none,early,rfl⟩
    · rcases ih later with rfl | ⟨j,y,rest,found,some,within,rfl⟩
      · refine .inr ⟨0,x,f x,rfl,fun empty => none (by rw [empty]; rfl),prefix_refl _,?_⟩
        rw [append_nil]
        rfl
      · refine .inr ⟨j + 1,y,rest,found,some,within,?_⟩
        rw [take_succ_cons,flatMap_cons,append_assoc]

end DabStar.Lib.Prefixes
