import Mathlib

/-! A table of m slots that takes the entries of a growing log in turn, so that it holds
the last m of them. Each slot remembers the number of its entry; the slot with the
lowest number is the next one to be overwritten. -/
namespace DabStar.Lib.RingTable
open List

variable {α β : Type} {m : Nat} {build : Nat → α → β} {log : List α}

def enter (m : Nat) (build : Nat → α → β) (table : List (Option β)) (entry : α × Nat) : List (Option β) :=
  table.set (entry.2 % m) (some (build entry.2 entry.1))

def ring (m : Nat) (build : Nat → α → β) (log : List α) : List (Option β) := log.zipIdx.foldl (enter m build) (replicate m none)

theorem ringAppend (log : List α) (a : α) :
    ring m build (log ++ [a]) = (ring m build log).set (log.length % m) (some (build log.length a)) := by simp [ring,enter,zipIdx_append]

@[simp] theorem ringLength (log : List α) : (ring m build log).length = m := by
  induction log using List.reverseRecOn with
  | nil => simp [ring]
  | append_singleton log a ih => rw [ringAppend,length_set,ih]

theorem ringSlot {i : Nat} (inside : i < m) {x : β} : (ring m build log)[i]? = some (some x) ↔
    ∃ k a, log[k]? = some a ∧ k % m = i ∧ log.length ≤ k + m ∧ x = build k a := by
  induction log using List.reverseRecOn with
  | nil => simp [ring,inside]
  | append_singleton log a ih =>
    rw [ringAppend,List.getElem?_set,ringLength]
    by_cases here : log.length % m = i
    · rw [if_pos here,if_pos (here ▸ inside)]
      constructor
      · intro same
        refine ⟨log.length,a,by simp,here,by simp; omega,?_⟩
        exact (Option.some.inj (Option.some.inj same)).symm
      · rintro ⟨k,b,found,slot,recent,rfl⟩
        rw [length_append,length_singleton] at recent
        have below : k < (log ++ [a]).length := (List.getElem?_eq_some_iff.mp found).1
        rw [length_append,length_singleton] at below
        -- two numbers less than m apart on one slot are the same
        have last : k = log.length := by
          have dvd : m ∣ log.length - k := (Nat.modEq_iff_dvd' (by omega)).mp (slot.trans here.symm)
          have small : log.length - k < m := by omega
          have zero := Nat.eq_zero_of_dvd_of_lt dvd small
          omega
        subst last
        rw [List.getElem?_append_right (le_refl _),Nat.sub_self] at found
        cases found
        rfl
    · rw [if_neg here,ih]
      constructor
      · rintro ⟨k,b,found,slot,recent,same⟩
        have below : k < log.length := (List.getElem?_eq_some_iff.mp found).1
        refine ⟨k,b,by rw [List.getElem?_append_left below,found],slot,?_,same⟩
        rw [length_append,length_singleton]
        -- the slot of the entry that is about to be overwritten is another one
        by_contra full
        have start : log.length = k + m := by omega
        rw [start,Nat.add_mod_right] at here
        exact here slot
      · rintro ⟨k,b,found,slot,recent,same⟩
        rw [length_append,length_singleton] at recent
        have other : k ≠ log.length := fun equal => here (equal ▸ slot)
        have below : k < (log ++ [a]).length := (List.getElem?_eq_some_iff.mp found).1
        rw [length_append,length_singleton] at below
        rw [List.getElem?_append_left (by omega)] at found
        exact ⟨k,b,found,slot,by omega,same⟩

theorem ringFree {i : Nat} (inside : i < m) : (ring m build log)[i]? = some none ↔ log.length ≤ i := by
  have slot : ∃ x, (ring m build log)[i]? = some x := ⟨_,List.getElem?_eq_getElem (by rwa [ringLength])⟩
  obtain ⟨x,here⟩ := slot
  rw [here,Option.some.injEq]
  constructor
  · rintro rfl
    by_contra below
    have last : i + m * ((log.length - 1 - i) / m) < log.length := by
      have := Nat.mul_div_le (log.length - 1 - i) m
      omega
    have near : log.length ≤ i + m * ((log.length - 1 - i) / m) + m := by
      have := Nat.lt_mul_div_succ (log.length - 1 - i) (Nat.zero_lt_of_lt inside)
      rw [Nat.mul_succ] at this
      omega
    have filled : (ring m build log)[i]? = some (some _) := (ringSlot inside).mpr
      ⟨_,_,List.getElem?_eq_getElem last,by rw [Nat.add_mul_mod_self_left,Nat.mod_eq_of_lt inside],near,rfl⟩
    rw [here] at filled
    cases filled
  · intro few
    cases x with
    | none => rfl
    | some x =>
      obtain ⟨k,a,found,on,-,-⟩ := (ringSlot inside).mp here
      have below := (List.getElem?_eq_some_iff.mp found).1
      have least := Nat.mod_le k m
      omega

theorem ringFirstFree : (ring m build log).findIdx? Option.isNone = if log.length < m then some log.length else none := by
  split
  · rename_i room
    have free : (ring m build log)[log.length]? = some none := (ringFree room).mpr (le_refl log.length)
    obtain ⟨inside,here⟩ := List.getElem?_eq_some_iff.mp free
    refine List.findIdx?_eq_some_iff_getElem.mpr ⟨inside,by rw [here]; rfl,fun j less => ?_⟩
    have below : j < m := less.trans room
    intro empty
    have also : (ring m build log)[j]? = some none := by
      rw [List.getElem?_eq_getElem (by rwa [ringLength]),Option.isNone_iff_eq_none.mp empty]
    have wrong := (ringFree below).mp also
    omega
  · rename_i full
    rw [List.findIdx?_eq_none_iff]
    intro x member
    obtain ⟨j,here⟩ := mem_iff_getElem?.mp member
    cases x with
    | some x => rfl
    | none =>
      have inside := (List.getElem?_eq_some_iff.mp here).1
      rw [ringLength] at inside
      have wrong := (ringFree inside).mp here
      omega

theorem tableExt {a b : List (Option β)} (first : a.length = m) (second : b.length = m)
    (slots : ∀ i < m, ∀ x, a[i]? = some (some x) ↔ b[i]? = some (some x)) : a = b := by
  refine ext_getElem (first.trans second.symm) fun i inA inB => Option.ext fun x => ?_
  have same := slots i (by omega) x
  rwa [List.getElem?_eq_getElem inA,List.getElem?_eq_getElem inB,Option.some.injEq,Option.some.injEq] at same

theorem ringSet {k : Nat} (below : k < log.length) (recent : log.length ≤ k + m) (a : α) :
    ring m build (log.set k a) = (ring m build log).set (k % m) (some (build k a)) := by
  have room : 0 < m := by omega
  have slots : ∀ i < m, ∀ x, (ring m build (log.set k a))[i]? = some (some x) ↔
      ((ring m build log).set (k % m) (some (build k a)))[i]? = some (some x) := by
    intro i inside x
    rw [ringSlot inside,List.getElem?_set,ringLength,length_set]
    by_cases here : k % m = i
    · rw [if_pos here,if_pos (here ▸ inside)]
      constructor
      · rintro ⟨l,b,found,slot,near,rfl⟩
        have inLog := (List.getElem?_eq_some_iff.mp found).1
        rw [length_set] at inLog
        have same : l = k := by
          rcases Nat.le_total l k with order | order
          · have dvd : m ∣ k - l := (Nat.modEq_iff_dvd' order).mp (slot.trans here.symm)
            have zero := Nat.eq_zero_of_dvd_of_lt dvd (by omega)
            omega
          · have dvd : m ∣ l - k := (Nat.modEq_iff_dvd' order).mp (here.trans slot.symm)
            have zero := Nat.eq_zero_of_dvd_of_lt dvd (by omega)
            omega
        subst same
        rw [List.getElem?_set_self below] at found
        cases found
        rfl
      · intro same
        cases same
        exact ⟨k,a,List.getElem?_set_self below,here,recent,rfl⟩
    · rw [if_neg here,ringSlot inside]
      have same : ∀ l b, l % m = i → ((log.set k a)[l]? = some b ↔ log[l]? = some b) := by
        intro l b slot
        rw [List.getElem?_set_ne (fun equal => here (by rw [equal,slot]))]
      constructor
      · rintro ⟨l,b,found,slot,near,rfl⟩
        exact ⟨l,b,(same l b slot).mp found,slot,near,rfl⟩
      · rintro ⟨l,b,found,slot,near,rfl⟩
        exact ⟨l,b,(same l b slot).mpr found,slot,near,rfl⟩
  exact tableExt (ringLength _) (by rw [length_set,ringLength]) slots

def lowest (rank : Nat → Option Nat) (acc : Nat × Nat) (i : Nat) : Nat × Nat :=
  match rank i with
  | some order => if order < acc.1 then (order, i) else acc
  | none => acc

theorem lowestStays {rank : Nat → Option Nat} {first place : Nat} (l : List Nat)
    (higher : ∀ i ∈ l, ∀ order, rank i = some order → first ≤ order) : l.foldl (lowest rank) (first, place) = (first, place) := by
  induction l with
  | nil => rfl
  | cons i l ih =>
    have stays : lowest rank (first, place) i = (first, place) := by
      unfold lowest
      split
      · rename_i order here
        have above := higher i mem_cons_self order here
        exact if_neg (by omega)
      · rfl
    rw [foldl_cons,stays]
    exact ih fun j member => higher j (mem_cons_of_mem i member)

theorem lowestFound {rank : Nat → Option Nat} {first place : Nat} (l : List Nat) (start : Nat × Nat) (member : place ∈ l)
    (here : rank place = some first) (lower : first < start.1)
    (higher : ∀ i ∈ l, i ≠ place → ∀ order, rank i = some order → first < order) : l.foldl (lowest rank) start = (first, place) := by
  induction l generalizing start with
  | nil => cases member
  | cons i l ih =>
    rw [foldl_cons]
    by_cases this : i = place
    · subst this
      have taken : lowest rank start i = (first, i) := by
        unfold lowest
        rw [here]
        exact if_pos lower
      rw [taken]
      refine lowestStays l fun j inside order ranked => ?_
      by_cases again : j = i
      · rw [again,here] at ranked
        exact (Option.some.inj ranked).le
      · exact (higher j (mem_cons_of_mem i inside) again order ranked).le
    · have later : place ∈ l := (mem_cons.mp member).resolve_left (Ne.symm this)
      refine ih _ later ?_ fun j inside => higher j (mem_cons_of_mem i inside)
      unfold lowest
      split
      · rename_i order ranked
        split
        · exact higher i mem_cons_self this order ranked
        · exact lower
      · exact lower

end DabStar.Lib.RingTable
