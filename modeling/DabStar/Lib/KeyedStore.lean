import Mathlib

/-! A list that entries are appended to when no entry with their key is found. An entry
that was found stays the one found, and one that was appended is found from then on. -/
namespace DabStar.Lib.KeyedStore
open List

variable {α : Type}

theorem absent {p : α → Bool} {l : List α} (unknown : l.find? p = none) {e : α} (member : e ∈ l) : p e = false := by
  rw [List.find?_eq_none] at unknown
  exact Bool.not_eq_true _ ▸ unknown e member

theorem unknownMapped {β : Type} {f : β → α} {p : α → Bool} {l : List β} (other : ∀ b ∈ l, p (f b) = false) : (l.map f).find? p = none := by
  rw [List.find?_eq_none]
  intro e member
  obtain ⟨b,here,rfl⟩ := mem_map.mp member
  exact Bool.not_eq_true _ ▸ other b here

theorem pairwiseAppend {R : α → α → Prop} {l : List α} {e : α} (before : l.Pairwise R) (new : ∀ a ∈ l, R a e) : (l ++ [e]).Pairwise R := by
  rw [pairwise_append]
  refine ⟨before,pairwise_singleton R e,fun a member b last => ?_⟩
  rw [mem_singleton.mp last]
  exact new a member

theorem keysBound {k : α → Nat} {n : Nat} {l : List α} (unique : l.Pairwise (fun a b => k a ≠ k b))
    (range : ∀ e ∈ l, k e < n) : l.length ≤ n := by
  have distinct : (l.map k).Nodup := pairwise_map.mpr unique
  have inside : l.map k ⊆ List.range n := by
    intro id member
    obtain ⟨e,here,rfl⟩ := mem_map.mp member
    exact mem_range.mpr (range e here)
  have counted := (distinct.subperm inside).length_le
  rwa [length_map,length_range] at counted

theorem foundLater {p : α → Bool} {l later : List α} {e : α} (longer : l <+: later) (found : l.find? p = some e) :
    later.find? p = some e := by
  obtain ⟨more,rfl⟩ := longer
  rw [List.find?_append,found]
  rfl

theorem storedFound {p : α → Bool} {l later : List α} {e : α} (longer : l ++ [e] <+: later) (unknown : l.find? p = none)
    (here : p e = true) : later.find? p = some e := by
  refine foundLater longer ?_
  rw [List.find?_append,unknown,List.find?_cons_of_pos here]
  rfl

theorem otherFound {p : α → Bool} {l : List α} {e : α} (other : p e = false) : (l ++ [e]).find? p = l.find? p := by
  rw [List.find?_append,List.find?_cons_of_neg (Bool.eq_false_iff.mp other),List.find?_nil,Option.or_none]

end DabStar.Lib.KeyedStore
