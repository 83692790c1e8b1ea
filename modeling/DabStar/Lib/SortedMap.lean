import Mathlib

/-! An ordered map as the list of its entries, with strictly increasing keys. -/
namespace DabStar.Lib.SortedMap
open List

variable {α : Type} {l : List (Nat × α)} {k : Nat} {v : α}

def Sorted (l : List (Nat × α)) : Prop := l.Pairwise (fun a b => a.1 < b.1)

def emplace (l : List (Nat × α)) (k : Nat) (v : α) : List (Nat × α) := l.orderedInsert (fun a b => a.1 ≤ b.1) (k, v)

def contains (l : List (Nat × α)) (k : Nat) : Bool := l.any (fun e => e.1 = k)

theorem containsIff : contains l k = true ↔ ∃ v, (k, v) ∈ l := by
  unfold contains
  rw [any_eq_true]
  constructor
  · rintro ⟨⟨key,v⟩,member,same⟩
    obtain rfl : key = k := of_decide_eq_true same
    exact ⟨v,member⟩
  · rintro ⟨v,member⟩
    exact ⟨(k, v),member,decide_eq_true rfl⟩

theorem memEmplace {e : Nat × α} : e ∈ emplace l k v ↔ e = (k, v) ∨ e ∈ l := mem_orderedInsert _

theorem sortedEmplace (sorted : Sorted l) (fresh : contains l k = false) : Sorted (emplace l k v) := by
  unfold Sorted emplace at *
  induction l with
  | nil => exact pairwise_singleton _ _
  | cons e rest ih =>
    obtain ⟨first,later⟩ := pairwise_cons.mp sorted
    unfold contains at fresh
    rw [any_cons,Bool.or_eq_false_iff] at fresh
    have other : e.1 ≠ k := of_decide_eq_false fresh.1
    rw [orderedInsert_cons]
    split
    · rename_i below
      have less : k < e.1 := lt_of_le_of_ne below other.symm
      refine pairwise_cons.mpr ⟨fun x member => ?_,sorted⟩
      rcases mem_cons.mp member with rfl | inside
      · exact less
      · exact less.trans (first x inside)
    · rename_i above
      refine pairwise_cons.mpr ⟨fun x member => ?_,ih later fresh.2⟩
      rcases (mem_orderedInsert _).mp member with rfl | inside
      · exact not_le.mp above
      · exact first x inside

theorem sortedRange {n : Nat} {f : Nat → α} (sorted : Sorted l) (entries : ∀ k v, (k, v) ∈ l ↔ k < n ∧ v = f k) :
    l = (range n).map (fun k => (k, f k)) := by
  have ordered : Sorted ((range n).map (fun k => (k, f k))) := pairwise_map.mpr pairwise_lt_range
  have distinct : ∀ {m : List (Nat × α)}, Sorted m → m.Nodup := fun sorted =>
    List.Pairwise.imp (fun less same => absurd (congrArg Prod.fst same) less.ne) sorted
  refine List.Perm.eq_of_pairwise (fun a b _ _ ab ba => absurd (ab.trans ba) (lt_irrefl _)) sorted ordered ?_
  rw [perm_ext_iff_of_nodup (distinct sorted) (distinct ordered)]
  rintro ⟨k,v⟩
  rw [entries,mem_map]
  constructor
  · rintro ⟨small,rfl⟩
    exact ⟨k,mem_range.mpr small,rfl⟩
  · rintro ⟨j,small,same⟩
    cases same
    exact ⟨mem_range.mp small,rfl⟩

end DabStar.Lib.SortedMap
