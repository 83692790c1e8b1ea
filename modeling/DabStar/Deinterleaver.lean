import DabStar.Lib.DelayLine

/-! The time de-interleaving loop that backend/backend.cpp and eti_handler/eti_generator.cpp
both have: an element is read from an earlier slot of a 16-deep store before the new one takes
its place. -/
namespace DabStar.Deinterleaver
open List Lib

def interleaveMap : List Nat := [0,8,4,12,2,10,6,14,1,9,5,13,3,11,7,15]

def deinterleaveStep (index : Nat) (data : Nat → Int) (acc : List Int × List (List Int)) (i : Nat) :
    List Int × List (List Int) :=
  (acc.1.set i ((acc.2.getD ((index + interleaveMap.getD (i &&& 15) 0) &&& 15) []).getD i 0),
    acc.2.modify index (fun row => row.set i (data i)))

def deinterleave (size index : Nat) (data : Nat → Int) (temp : List Int) (store : List (List Int)) :
    List Int × List (List Int) := (range size).foldl (deinterleaveStep index data) (temp, store)

def depth (i : Nat) : Nat := interleaveMap.getD (i % 16) 0

def cell (store : List (List Int)) (slot i : Nat) : Int := (store.getD slot []).getD i 0

structure Shape (size : Nat) (temp : List Int) (store : List (List Int)) : Prop where
  temp : temp.length = size
  slots : store.length = 16
  rows : ∀ slot < 16, (store.getD slot []).length = size

theorem depthLt (i : Nat) : depth i < 16 := by
  have all : ∀ k < 16, interleaveMap.getD k 0 < 16 := by decide
  exact all (i % 16) (Nat.mod_lt _ (by decide))

theorem maskSixteen (n : Nat) : n &&& 15 = n % 16 := Nat.and_two_pow_sub_one_eq_mod n 4

section Step

variable {size index : Nat} {data : Nat → Int} {temp : List Int} {store : List (List Int)}

theorem modifyRow (shape : Shape size temp store) (slot i : Nat) (value : Int) (inside : slot < 16) :
    (store.modify index (fun row => row.set i value)).getD slot [] =
      if slot = index then (store.getD slot []).set i value else store.getD slot [] := by
  have bound : slot < store.length := by rw [shape.slots]; exact inside
  rw [getD_eq_getElem _ _ (by rw [length_modify]; exact bound),getElem_modify,getD_eq_getElem _ _ bound]
  by_cases same : slot = index
  · rw [if_pos same.symm,if_pos same]
  · rw [if_neg (Ne.symm same),if_neg same]

theorem stepShape (shape : Shape size temp store) (i : Nat) :
    Shape size (deinterleaveStep index data (temp, store) i).1 (deinterleaveStep index data (temp, store) i).2 := by
  refine ⟨?_,?_,?_⟩
  · exact (length_set).trans shape.temp
  · exact (length_modify _ _ _).trans shape.slots
  · intro slot inside
    unfold deinterleaveStep
    dsimp only
    rw [modifyRow shape slot i (data i) inside]
    split
    · rw [length_set]
      exact shape.rows slot inside
    · exact shape.rows slot inside

theorem stepCell (shape : Shape size temp store) {i : Nat} (small : i < size) {slot k : Nat} (inside : slot < 16) :
    cell (deinterleaveStep index data (temp, store) i).2 slot k = if slot = index ∧ k = i then data i else cell store slot k := by
  unfold cell deinterleaveStep
  dsimp only
  rw [modifyRow shape slot i (data i) inside]
  by_cases current : slot = index
  · rw [if_pos current]
    by_cases here : k = i
    · rw [if_pos ⟨current,here⟩,here,getD_eq_getElem _ _ (by rw [length_set,shape.rows slot inside]; exact small),getElem_set_self]
    · rw [if_neg (fun both => here both.2)]
      simp only [getD_eq_getElem?_getD,List.getElem?_set_ne (Ne.symm here)]
  · rw [if_neg current,if_neg (fun both => current both.1)]

theorem stepTemp (shape : Shape size temp store) {i : Nat} (small : i < size) (k : Nat) :
    (deinterleaveStep index data (temp, store) i).1.getD k 0 = if k = i then cell store ((index + depth i) % 16) i else temp.getD k 0 := by
  unfold deinterleaveStep cell depth
  dsimp only
  rw [maskSixteen,maskSixteen]
  by_cases here : k = i
  · rw [if_pos here,here,getD_eq_getElem _ _ (by rw [length_set,shape.temp]; exact small),getElem_set_self]
  · rw [if_neg here]
    simp only [getD_eq_getElem?_getD,List.getElem?_set_ne (Ne.symm here)]

end Step

structure Through (index : Nat) (data : Nat → Int) (store : List (List Int)) (done : Nat)
    (temp : List Int) (next : List (List Int)) : Prop where
  read : ∀ i < done, temp.getD i 0 = cell store ((index + depth i) % 16) i
  replaced : ∀ slot < 16, ∀ i, cell next slot i = if slot = index ∧ i < done then data i else cell store slot i

theorem deinterleaveThrough {size index : Nat} {temp : List Int} {store : List (List Int)}
    (shape : Shape size temp store) (data : Nat → Int) {done : Nat} (small : done ≤ size) :
    let out := (range done).foldl (deinterleaveStep index data) (temp, store)
    Shape size out.1 out.2 ∧ Through index data store done out.1 out.2 := by
  induction done with
  | zero => exact ⟨shape,⟨by intro i impossible; omega,by intro slot _ i; simp⟩⟩
  | succ done ih =>
    obtain ⟨before,through⟩ := ih (Nat.le_of_succ_le small)
    rw [range_succ,foldl_append,foldl_cons,foldl_nil]
    obtain ⟨out,same⟩ : ∃ out, out = (range done).foldl (deinterleaveStep index data) (temp, store) := ⟨_,rfl⟩
    rw [← same] at before through ⊢
    refine ⟨stepShape before done,⟨?_,?_⟩⟩
    · intro i inside
      rw [stepTemp before small i]
      by_cases here : i = done
      · have slot : (index + depth done) % 16 < 16 := Nat.mod_lt _ (by decide)
        rw [if_pos here,here,through.replaced _ slot done,if_neg (fun both => lt_irrefl _ both.2)]
      · rw [if_neg here]
        exact through.read i (by omega)
    · intro slot inside i
      rw [stepCell before small inside,through.replaced slot inside i]
      by_cases here : i = done
      · by_cases current : slot = index
        · rw [if_pos ⟨current,here⟩,if_pos ⟨current,by omega⟩,here]
        · rw [if_neg (fun both => current both.1),if_neg (fun both => current both.1),if_neg (fun both => current both.1)]
      · rw [if_neg (fun both => here both.2)]
        have still : (slot = index ∧ i < done) ↔ (slot = index ∧ i < done + 1) := by omega
        rw [if_congr still rfl rfl]

theorem deinterleaveSpec {size : Nat} {temp : List Int} {store : List (List Int)}
    (shape : Shape size temp store) (index : Nat) (data : Nat → Int) :
    Shape size (deinterleave size index data temp store).1 (deinterleave size index data temp store).2 ∧
    Through index data store size (deinterleave size index data temp store).1 (deinterleave size index data temp store).2 :=
  deinterleaveThrough shape data (le_refl size)

end DabStar.Deinterleaver
