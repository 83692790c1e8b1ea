import Mathlib.Logic.Function.Basic
import Mathlib.Data.List.Basic
import Mathlib.Tactic.Common

/-! A sequence of entries, each behind the one before. An entry has a length of its own and
a key; a reader that has a length stored for the key takes that one, and stores the length
of an entry whose key is new. -/
namespace DabStar.Lib.Framing
open List

variable {K : Type} [DecidableEq K] (key : Nat → K) (own : Nat → Nat) (length : Nat)

def ownPositions : Nat → Nat → List Nat
  | 0, used => [used]
  | fuel + 1, used => used :: if used ≤ length then ownPositions fuel (used + own used) else []

def starts : Nat → Nat → List Nat
  | 0, _ => []
  | fuel + 1, used => if used ≤ length then used :: starts fuel (used + own used) else []

def taken (stored : K → Option Nat) (used : Nat) : Nat := (stored (key used)).getD (own used)

def storedAfter (remembers : Bool) (stored : K → Option Nat) (used : Nat) : K → Option Nat :=
  if remembers then Function.update stored (key used) (some (taken key own stored used)) else stored

def storedPositions (remembers : Bool) : Nat → (K → Option Nat) → Nat → List Nat
  | 0, _, used => [used]
  | fuel + 1, stored, used => used :: if used ≤ length then
      storedPositions remembers fuel (storedAfter key own remembers stored used) (used + taken key own stored used) else []

def Consistent (remembers : Bool) (stored : K → Option Nat) (positions : List Nat) : Prop :=
  ∀ p ∈ positions, ∀ q ∈ positions, (if remembers then key q = key p else q = p) → (stored (key p)).getD (own q) = own p

instance (remembers : Bool) (stored : K → Option Nat) (positions : List Nat) : Decidable (Consistent key own remembers stored positions) := by
  unfold Consistent; infer_instance

variable {key own length} {remembers : Bool} {stored : K → Option Nat}

theorem consistentCons {used : Nat} {positions : List Nat} : Consistent key own remembers stored (used :: positions) ↔
      taken key own stored used = own used ∧ Consistent key own remembers (storedAfter key own remembers stored used) positions := by
  cases remembers with
  | false =>
    constructor
    · intro all
      refine ⟨all used mem_cons_self used mem_cons_self rfl,fun p here q there same => ?_⟩
      exact all p (mem_cons_of_mem _ here) q (mem_cons_of_mem _ there) same
    · rintro ⟨first,rest⟩ p here q there same
      obtain rfl : q = p := same
      rcases mem_cons.mp here with rfl | later
      · exact first
      · exact rest _ later _ later rfl
  | true =>
    -- A key that the first entry has is from now on stored with its length.
    have first : ∀ p, key p = key used → storedAfter key own true stored used (key p) = some (taken key own stored used) := by
      intro p same
      rw [same]
      exact Function.update_self ..
    have other : ∀ p, key p ≠ key used → storedAfter key own true stored used (key p) = stored (key p) := by
      intro p different
      exact Function.update_of_ne different ..
    constructor
    · intro all
      have here := all used mem_cons_self used mem_cons_self rfl
      refine ⟨here,fun p inside q there same => ?_⟩
      by_cases again : key p = key used
      · rw [first p again]
        have joined := all p (mem_cons_of_mem _ inside) used mem_cons_self again.symm
        rw [again] at joined
        exact joined
      · rw [other p again]
        exact all p (mem_cons_of_mem _ inside) q (mem_cons_of_mem _ there) same
    · rintro ⟨here,rest⟩ p inside q there same
      have one : ∀ r ∈ used :: positions, key r = key used → own r = own used := by
        intro r member again
        rcases mem_cons.mp member with rfl | later
        · rfl
        · have joined := rest r later r later rfl
          rw [first r again] at joined
          exact joined.symm.trans here
      by_cases again : key p = key used
      · rw [one p inside again,one q there (same.trans again),again]
        exact here
      · have later : ∀ r ∈ used :: positions, key r = key p → r ∈ positions := by
          intro r member equal
          refine (mem_cons.mp member).resolve_left fun head => again ?_
          rw [← equal,head]
        have joined := rest p (later p inside rfl) q (later q there same) same
        rwa [other p again] at joined

theorem ownHead (fuel used : Nat) : ∃ rest, ownPositions own length fuel used = used :: rest := by
  cases fuel <;> exact ⟨_,rfl⟩

theorem storedHead (fuel used : Nat) : ∃ rest, storedPositions key own length remembers fuel stored used = used :: rest := by
  cases fuel <;> exact ⟨_,rfl⟩

theorem storedExact (fuel used : Nat) : storedPositions key own length remembers fuel stored used = ownPositions own length fuel used ↔
    Consistent key own remembers stored (starts own length fuel used) := by
  induction fuel generalizing stored used with
  | zero => exact iff_of_true rfl (fun p none => nomatch none)
  | succ fuel ih =>
    unfold storedPositions ownPositions starts
    by_cases inside : used ≤ length
    · rw [if_pos inside,if_pos inside,if_pos inside,consistentCons,← ih,cons_inj_right]
      constructor
      · intro same
        obtain ⟨left,leftHere⟩ := @storedHead K _ key own length remembers (storedAfter key own remembers stored used) fuel
          (used + taken key own stored used)
        obtain ⟨right,rightHere⟩ := @ownHead own length fuel (used + own used)
        have heads : used + taken key own stored used = used + own used := by
          rw [leftHere,rightHere] at same
          exact head_eq_of_cons_eq same
        have lengths : taken key own stored used = own used := Nat.add_left_cancel heads
        refine ⟨lengths,?_⟩
        rwa [lengths] at same
      · rintro ⟨lengths,rest⟩
        rw [lengths]
        exact rest
    · rw [if_neg inside,if_neg inside,if_neg inside]
      exact iff_of_true rfl (fun p none => nomatch none)

theorem ownEnds (nonempty : ∀ used, 1 ≤ own used) {fuel used : Nat} (enough : length < used + fuel) :
    ∃ last ∈ ownPositions own length fuel used, length < last := by
  induction fuel generalizing used with
  | zero => exact ⟨used,mem_singleton_self used,enough⟩
  | succ fuel ih =>
    unfold ownPositions
    by_cases inside : used ≤ length
    · have more := nonempty used
      obtain ⟨last,member,behind⟩ := @ih (used + own used) (by omega)
      rw [if_pos inside]
      exact ⟨last,mem_cons_of_mem _ member,behind⟩
    · exact ⟨used,mem_cons_self,by omega⟩

end DabStar.Lib.Framing
