import Mathlib

/-! A table in which the first entry of a key stays. With the keys seen so far kept as the
bits of one number, a single pass finds the entries that come too late. -/
namespace DabStar.Lib.FirstCome
open List

section Table

variable {α κ β : Type} [DecidableEq κ] (free : β) (key : α → κ) (value : α → β)

def cell (table : List (κ × β)) (k : κ) : β := (table.lookup k).getD free

theorem cellCons (k k' : κ) (v : β) (table : List (κ × β)) : cell free ((k', v) :: table) k = if k' = k then v else cell free table k := by
  by_cases same : k' = k
  · simp [cell,same]
  · have other : (k == k') = false := by simpa using fun equal => same equal.symm
    simp [cell,List.lookup,other,same]

variable [DecidableEq β]

def enter (table : List (κ × β)) (a : α) : List (κ × β) := if cell free table (key a) = free then (key a, value a) :: table else table

variable {free key value}

theorem cellEnter {table : List (κ × β)} {a : α} (k : κ) : cell free (enter free key value table a) k =
      if key a = k ∧ cell free table k = free then value a else cell free table k := by
  by_cases same : key a = k
  · subst same
    by_cases unset : cell free table (key a) = free
    · simp [enter,unset,cellCons]
    · simp [enter,unset]
  · by_cases unset : cell free table (key a) = free
    · simp [enter,unset,cellCons,same]
    · simp [enter,unset,same]

theorem cellEntered {entries : List α} (used : ∀ a ∈ entries, value a ≠ free) (table : List (κ × β)) (k : κ) :
    cell free (entries.foldl (enter free key value) table) k =
      if cell free table k = free then ((entries.find? (fun a => key a = k)).map value).getD free else cell free table k := by
  induction entries generalizing table with
  | nil => simp
  | cons a entries ih =>
    have rest := ih (fun b member => used b (mem_cons_of_mem a member)) (enter free key value table a)
    have taken := used a mem_cons_self
    rw [foldl_cons,rest,cellEnter]
    by_cases same : key a = k
    · by_cases unset : cell free table k = free
      · simp [same,unset,taken]
      · simp [unset]
    · simp [same]

end Table

def marks (l : List Nat) : Nat := l.foldr (fun c seen => seen ||| 1 <<< c) 0

theorem marksTestBit (l : List Nat) (c : Nat) : (marks l).testBit c = true ↔ c ∈ l := by
  induction l with
  | nil => simp [marks]
  | cons a l ih =>
    have bit : (1 <<< a).testBit c = decide (a = c) := by rw [Nat.one_shiftLeft,Nat.testBit_two_pow]
    have step : marks (a :: l) = marks l ||| 1 <<< a := rfl
    rw [step,Nat.testBit_or,Bool.or_eq_true,ih,bit,decide_eq_true_iff,mem_cons,or_comm,eq_comm]

section Clashes

variable {α : Type} (key : α → Nat)

def clashes : Nat → List α → List α
  | _, [] => []
  | seen, a :: entries =>
    if seen.testBit (key a) then a :: clashes seen entries else clashes (seen ||| 1 <<< key a) entries

variable {key}

theorem firstUnlessClash {seen : Nat} {entries : List α} {a : α} (member : a ∈ entries) (early : a ∉ clashes key seen entries) :
    seen.testBit (key a) = false ∧ entries.find? (fun b => key b = key a) = some a := by
  induction entries generalizing seen with
  | nil => cases member
  | cons b entries ih =>
    unfold clashes at early
    split at early
    case isTrue clash =>
        simp only [mem_cons,not_or] at early
        have rest := (mem_cons.mp member).resolve_left early.1
        obtain ⟨unseen,found⟩ := ih rest early.2
        have other : key b ≠ key a := by
          intro same
          rw [same,unseen] at clash
          cases clash
        exact ⟨unseen,by simpa [List.find?_cons,other] using found⟩
    case isFalse fresh =>
        rcases mem_cons.mp member with rfl | rest
        · exact ⟨by simpa using fresh,by simp⟩
        · obtain ⟨unseen,found⟩ := ih rest early
          simp only [Nat.testBit_or,Bool.or_eq_false_iff] at unseen
          have other : key b ≠ key a := by
            intro same
            have bit := unseen.2
            simp [same,Nat.one_shiftLeft] at bit
          exact ⟨unseen.1,by simpa [List.find?_cons,other] using found⟩

theorem clashesCongr {other : α → Nat} {entries : List α} (same : ∀ a ∈ entries, key a = other a) (seen : Nat) :
    clashes key seen entries = clashes other seen entries := by
  induction entries generalizing seen with
  | nil => rfl
  | cons a entries ih =>
    have rest := ih (fun b member => same b (mem_cons_of_mem a member))
    simp only [clashes,same a mem_cons_self,rest]

end Clashes

end DabStar.Lib.FirstCome
