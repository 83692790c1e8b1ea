import Mathlib

/-! Puncturing and de-puncturing. A mask tells for every position of a code word whether
it is sent; the kept positions are registered in order, and a received sequence is
scattered over them, one value for each. -/
namespace DabStar.Lib.Puncture
open List

def positions (counter : Nat) : List Bool → List Nat
  | [] => []
  | true :: mask => counter :: positions (counter + 1) mask
  | false :: mask => positions (counter + 1) mask

def register (acc : Nat × List Nat) (keep : Bool) : Nat × List Nat := (acc.1 + 1, if keep then acc.2 ++ [acc.1] else acc.2)

theorem registerAll (mask : List Bool) (acc : Nat × List Nat) :
    mask.foldl register acc = (acc.1 + mask.length, acc.2 ++ positions acc.1 mask) := by
  induction mask generalizing acc with
  | nil => simp [positions]
  | cons keep mask ih =>
    rw [foldl_cons,ih]
    have length : acc.1 + 1 + mask.length = acc.1 + (keep :: mask).length := by
      rw [length_cons]
      omega
    cases keep with
    | true | false => simp [register,positions,length]

theorem positionsLength (counter : Nat) (mask : List Bool) : (positions counter mask).length = mask.count true := by
  induction mask generalizing counter with
  | nil => rfl
  | cons keep mask ih => cases keep <;> simp [positions,ih]

theorem positionsMem (counter a : Nat) (mask : List Bool) :
    a ∈ positions counter mask ↔ counter ≤ a ∧ mask.getD (a - counter) false = true := by
  induction mask generalizing counter with
  | nil => simp [positions]
  | cons keep mask ih =>
    have later : a ∈ positions (counter + 1) mask ↔ counter < a ∧ (keep :: mask).getD (a - counter) false = true := by
      rw [ih]
      constructor
      · rintro ⟨behind,kept⟩
        obtain ⟨gap,rfl⟩ : ∃ gap, a = counter + 1 + gap := ⟨a - (counter + 1),by omega⟩
        rw [show counter + 1 + gap - (counter + 1) = gap by omega] at kept
        rw [show counter + 1 + gap - counter = gap + 1 by omega,getD_cons_succ]
        exact ⟨by omega,kept⟩
      · rintro ⟨behind,kept⟩
        obtain ⟨gap,rfl⟩ : ∃ gap, a = counter + 1 + gap := ⟨a - (counter + 1),by omega⟩
        rw [show counter + 1 + gap - counter = gap + 1 by omega,getD_cons_succ] at kept
        rw [show counter + 1 + gap - (counter + 1) = gap by omega]
        exact ⟨by omega,kept⟩
    have here : a = counter → (keep :: mask).getD (a - counter) false = keep := by
      rintro rfl
      simp
    cases keep with
    | true =>
      rw [positions,mem_cons,later]
      constructor
      · rintro (rfl | ⟨behind,kept⟩)
        · exact ⟨le_refl _,here rfl⟩
        · exact ⟨le_of_lt behind,kept⟩
      · rintro ⟨behind,kept⟩
        rcases Nat.eq_or_lt_of_le behind with same | less
        · exact Or.inl same.symm
        · exact Or.inr ⟨less,kept⟩
    | false =>
      rw [positions,later]
      constructor
      · rintro ⟨behind,kept⟩
        exact ⟨le_of_lt behind,kept⟩
      · rintro ⟨behind,kept⟩
        rcases Nat.eq_or_lt_of_le behind with same | less
        · rw [here same.symm] at kept
          exact absurd kept Bool.false_ne_true
        · exact ⟨less,kept⟩

theorem positionsInside {counter a : Nat} {mask : List Bool} (kept : a ∈ positions counter mask) : a < counter + mask.length := by
  obtain ⟨behind,keep⟩ := (positionsMem counter a mask).mp kept
  by_contra outside
  rw [getD_eq_default _ _ (by omega)] at keep
  exact Bool.false_ne_true keep

theorem positionsIncreasing (counter : Nat) (mask : List Bool) : (positions counter mask).Pairwise (· < ·) := by
  induction mask generalizing counter with
  | nil => exact List.Pairwise.nil
  | cons keep mask ih =>
    cases keep with
    | false => exact ih (counter + 1)
    | true =>
      refine pairwise_cons.mpr ⟨?_,ih (counter + 1)⟩
      intro a later
      exact ((positionsMem _ _ _).mp later).1

section Scatter
variable {addresses : List Nat}

variable {α : Type}

def scatter (values : Nat → α) (addresses : List Nat) (acc : List α × Nat) : List α × Nat :=
  addresses.foldl (fun acc address => (acc.1.set address (values acc.2), acc.2 + 1)) acc

variable (values : Nat → α) (default : α)

theorem scatterCount (addresses : List Nat) (acc : List α × Nat) : (scatter values addresses acc).2 = acc.2 + addresses.length ∧
    (scatter values addresses acc).1.length = acc.1.length := by
  induction addresses generalizing acc with
  | nil => exact ⟨rfl,rfl⟩
  | cons address addresses ih =>
    obtain ⟨count,length⟩ := ih (acc.1.set address (values acc.2), acc.2 + 1)
    rw [length_set] at length
    refine ⟨?_,length⟩
    refine count.trans ?_
    rw [length_cons]
    omega

theorem scatterOther {a : Nat} (other : a ∉ addresses) (acc : List α × Nat) :
    (scatter values addresses acc).1.getD a default = acc.1.getD a default := by
  induction addresses generalizing acc with
  | nil => rfl
  | cons address addresses ih =>
    rw [mem_cons,not_or] at other
    refine (ih other.2 _).trans ?_
    simp only [getD_eq_getElem?_getD,List.getElem?_set_ne (Ne.symm other.1)]

theorem scatterWritten (increasing : addresses.Pairwise (· < ·)) (acc : List α × Nat)
    (inside : ∀ a ∈ addresses, a < acc.1.length) {k : Nat} (small : k < addresses.length) :
    (scatter values addresses acc).1.getD (addresses.getD k 0) default = values (acc.2 + k) := by
  induction addresses generalizing acc k with
  | nil => exact absurd small (Nat.not_lt_zero _)
  | cons address addresses ih =>
    obtain ⟨first,rest⟩ := pairwise_cons.mp increasing
    cases k with
    | zero =>
      have once : address ∉ addresses := fun again => lt_irrefl _ (first address again)
      have here := inside address mem_cons_self
      refine (scatterOther values default once _).trans ?_
      rw [getD_eq_getElem _ _ (by rw [length_set]; exact here),getElem_set_self]
      rfl
    | succ k =>
      have others : ∀ a ∈ addresses, a < (acc.1.set address (values acc.2)).length := by
        intro a later
        rw [length_set]
        exact inside a (mem_cons_of_mem _ later)
      rw [getD_cons_succ]
      refine (ih rest (acc.1.set address (values acc.2), acc.2 + 1) others (Nat.lt_of_succ_lt_succ small)).trans ?_
      show values (acc.2 + 1 + k) = values (acc.2 + (k + 1))
      rw [Nat.add_assoc,Nat.add_comm 1 k]

theorem scatterWord (increasing : addresses.Pairwise (· < ·)) (acc : List α × Nat)
    (start : acc.2 = 0) (inside : ∀ a ∈ addresses, a < acc.1.length) (word : Nat → α)
    (sent : ∀ k < addresses.length, values k = word (addresses.getD k 0)) {a : Nat} (kept : a ∈ addresses) :
    (scatter values addresses acc).1.getD a default = word a := by
  obtain ⟨k,small,rfl⟩ := getElem_of_mem kept
  have written := scatterWritten values default increasing acc inside small
  rw [start,Nat.zero_add,sent k small,getD_eq_getElem _ _ small] at written
  exact written

theorem scatterAgree {values other : Nat → α} (default : α) {acc start : List α × Nat}
    (length : acc.1.length = start.1.length) (count : acc.2 = start.2)
    (outside : ∀ a ∉ addresses, acc.1.getD a default = start.1.getD a default)
    (same : ∀ k < addresses.length, values (acc.2 + k) = other (acc.2 + k)) :
    (scatter values addresses acc).1 = (scatter other addresses start).1 := by
  induction addresses generalizing acc start with
  | nil =>
    show acc.1 = start.1
    refine ext_getElem length fun a here there => ?_
    have equal := outside a not_mem_nil
    rwa [getD_eq_getElem _ _ here,getD_eq_getElem _ _ there] at equal
  | cons address addresses ih =>
    have first : values acc.2 = other start.2 := by
      rw [← count]
      exact same 0 (Nat.succ_pos _)
    refine @ih (acc.1.set address (values acc.2), acc.2 + 1) (start.1.set address (other start.2), start.2 + 1) ?_ (congrArg (· + 1) count) ?_ ?_
    · rw [length_set,length_set]
      exact length
    · intro a behind
      simp only [getD_eq_getElem?_getD,List.getElem?_set,first,length]
      by_cases here : address = a
      · rw [if_pos here,if_pos here]
      · have apart := outside a (fun listed => (mem_cons.mp listed).elim (fun eq => here eq.symm) behind)
        simp only [getD_eq_getElem?_getD] at apart
        rw [if_neg here,if_neg here]
        exact apart
    · intro k small
      have later := same (k + 1) (Nat.succ_lt_succ small)
      rw [show acc.2 + 1 + k = acc.2 + (k + 1) by omega]
      exact later

end Scatter

end DabStar.Lib.Puncture
