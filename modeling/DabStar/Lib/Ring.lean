import Mathlib.Data.List.Basic
import Mathlib.Data.Nat.Bitwise
import Mathlib.Data.Nat.Size
import Mathlib.Tactic.Common

/-! Memory used as a ring. A window is what stands in it from a position on, behind the end
again from the start; a copy that would run over the end is made in two pieces. The smear of
a number is the mask below the power of two above it. -/
namespace DabStar.Lib.Ring
variable {β : Type} [Inhabited β] {cells data : List β} {first count start : Nat}

def window (cells : List β) (first count : Nat) : List β :=
  (List.range count).map (fun k => cells.getD ((first + k) % cells.length) default)

def copy (cells : List β) (start : Nat) (data : List β) : List β := cells.take start ++ data ++ cells.drop (start + data.length)

@[simp] theorem windowLength : (window cells first count).length = count := by simp [window]

@[simp] theorem windowZero : window cells first 0 = [] := rfl

theorem windowAdd (more : Nat) : window cells first (count + more) = window cells first count ++ window cells (first + count) more := by
  unfold window
  rw [List.range_add,List.map_append,List.map_map]
  simp only [Function.comp_def,Nat.add_assoc]

theorem windowTake {n : Nat} (few : n ≤ count) : (window cells first count).take n = window cells first n := by
  obtain ⟨more,rfl⟩ := Nat.exists_eq_add_of_le few
  rw [windowAdd,List.take_left' windowLength]

theorem windowDrop {n : Nat} (few : n ≤ count) : (window cells first count).drop n = window cells (first + n) (count - n) := by
  obtain ⟨more,rfl⟩ := Nat.exists_eq_add_of_le few
  rw [windowAdd,List.drop_left' windowLength,Nat.add_sub_cancel_left]

theorem windowShift {other : Nat} (same : first % cells.length = other % cells.length) : window cells first count = window cells other count := by
  unfold window
  refine List.map_congr_left fun k _ => ?_
  rw [Nat.add_mod,same,← Nat.add_mod]

theorem windowStraight (fits : first + count ≤ cells.length) : window cells first count = (cells.drop first).take count := by
  apply List.ext_getElem
  · simp
    omega
  · intro k short _
    rw [windowLength] at short
    have small : (first + k) % cells.length = first + k := Nat.mod_eq_of_lt (by omega)
    simp [window,small,List.getElem?_eq_getElem (show first + k < cells.length by omega)]

omit [Inhabited β] in
theorem copyLength (fits : start + data.length ≤ cells.length) : (copy cells start data).length = cells.length := by
  simp [copy]
  omega

theorem copyGet (fits : start + data.length ≤ cells.length) (p : Nat) : (copy cells start data).getD p default =
    if start ≤ p ∧ p < start + data.length then data.getD (p - start) default else cells.getD p default := by
  have front : (cells.take start).length = start := List.length_take_of_le (by omega)
  unfold copy
  by_cases before : p < start
  · rw [if_neg (by omega),List.append_assoc,List.getD_append _ _ _ _ (by omega)]
    simp [before]
  · by_cases within : p < start + data.length
    · rw [if_pos (by omega),List.getD_append _ _ _ _ (by simp; omega),List.getD_append_right _ _ _ _ (by omega),front]
    · rw [if_neg (by omega),List.getD_append_right _ _ _ _ (by simp; omega)]
      simp only [List.length_append,front]
      simp [show start + data.length + (p - (start + data.length)) = p by omega]

def wrapped (cells : List β) (index : Nat) (data : List β) : List β :=
  if index + data.length > cells.length then
    copy (copy cells index (data.take (cells.length - index))) 0 (data.drop (cells.length - index))
  else copy cells index data

section Wrapped
variable {index : Nat} (inside : index < cells.length) (short : data.length ≤ cells.length)
include inside short

omit [Inhabited β] in
theorem wrappedLength : (wrapped cells index data).length = cells.length := by
  unfold wrapped
  split
  · rw [copyLength,copyLength]
    · simp
      omega
    · rw [copyLength]
      · simp
        omega
      · simp
        omega
  · exact copyLength (by omega)

theorem wrappedGet {j : Nat} (round : j < cells.length) : (wrapped cells index data).getD ((index + j) % cells.length) default =
    if j < data.length then data.getD j default else cells.getD ((index + j) % cells.length) default := by
  have position : (index + j) % cells.length = if index + j < cells.length then index + j else index + j - cells.length := by
    split
    · exact Nat.mod_eq_of_lt ‹_›
    · rw [Nat.mod_eq_sub_mod (by omega),Nat.mod_eq_of_lt (by omega)]
  unfold wrapped
  split
  · rename_i long
    have front : (data.take (cells.length - index)).length = cells.length - index := List.length_take_of_le (by omega)
    have back : (data.drop (cells.length - index)).length = data.length - (cells.length - index) := List.length_drop
    rw [copyGet (by rw [copyLength] <;> omega),copyGet (by omega),front,back,position]
    by_cases ahead : index + j < cells.length
    · rw [if_pos ahead,if_neg (by omega),if_pos (by omega),if_pos (by omega)]
      simp [show index + j - index = j by omega,show j < cells.length - index by omega]
    · rw [if_neg ahead]
      by_cases taken : j < data.length
      · rw [if_pos (by omega),if_pos taken]
        simp [show cells.length - index + (index + j - cells.length) = j by omega]
      · rw [if_neg (by omega),if_neg (by omega),if_neg taken]
  · rw [copyGet (by omega),position]
    by_cases taken : j < data.length
    · have ahead : index + j < cells.length := by omega
      rw [if_pos ahead,if_pos (by omega),if_pos taken,Nat.add_sub_cancel_left]
    · rw [if_neg (by split <;> omega),if_neg taken]

theorem wrappedWindow : window (wrapped cells index data) index data.length = data := by
  apply List.ext_getElem
  · exact windowLength
  · intro j _ within
    have get := @wrappedGet β _ cells data index inside short j (by omega)
    simp only [window,List.getElem_map,List.getElem_range,wrappedLength inside short,get,if_pos within]
    simp [within]

theorem wrappedRest {first count : Nat} (behind : (first + count) % cells.length = index) (room : count + data.length ≤ cells.length) :
    window (wrapped cells index data) first count = window cells first count := by
  unfold window
  refine List.map_congr_left fun k member => ?_
  have small := List.mem_range.mp member
  have round : (index + (cells.length - count + k)) % cells.length = (first + k) % cells.length := by
    rw [← behind,Nat.mod_add_mod,show first + count + (cells.length - count + k) = first + k + cells.length by omega,Nat.add_mod_right]
  have get := @wrappedGet β _ cells data index inside short (cells.length - count + k) (by omega)
  rw [wrappedLength inside short,← round,get,if_neg (by omega)]

end Wrapped

theorem windowPush (first : Nat) (room : count < cells.length) (x : β) :
    window (copy cells ((first + count) % cells.length) [x]) first (count + 1) = window cells first count ++ [x] := by
  have inside : (first + count) % cells.length < cells.length := Nat.mod_lt _ (by omega)
  have one : [x].length ≤ cells.length := Nat.lt_of_le_of_lt (Nat.zero_le _) room
  have straight : copy cells ((first + count) % cells.length) [x] = wrapped cells ((first + count) % cells.length) [x] :=
    (if_neg (Nat.not_lt.mpr inside)).symm
  rw [straight,windowAdd,wrappedRest inside one rfl room]
  refine congrArg _ (Eq.trans (windowShift ?_) (wrappedWindow inside one))
  rw [wrappedLength inside one,Nat.mod_mod]

def smear (v : Nat) : Nat := [1,2,4,8,16].foldl (fun v i => v ||| v >>> i) v

theorem smearDouble {v w span : Nat} (reach : ∀ j, w.testBit j = true ↔ ∃ t < span, v.testBit (j + t) = true) (j : Nat) :
    (w ||| w >>> span).testBit j = true ↔ ∃ t < span + span, v.testBit (j + t) = true := by
  rw [Nat.testBit_or,Nat.testBit_shiftRight,Bool.or_eq_true,reach,reach]
  constructor
  · rintro (⟨t,less,set⟩ | ⟨t,less,set⟩)
    · exact ⟨t,by omega,set⟩
    · exact ⟨span + t,by omega,by rwa [show j + (span + t) = span + j + t by omega]⟩
  · rintro ⟨t,less,set⟩
    by_cases low : t < span
    · exact .inl ⟨t,low,set⟩
    · exact .inr ⟨t - span,by omega,by rwa [show span + j + (t - span) = j + t by omega]⟩

theorem smearBit (v j : Nat) : (smear v).testBit j = true ↔ ∃ t < 32, v.testBit (j + t) = true := by
  have own : ∀ j, v.testBit j = true ↔ ∃ t < 1, v.testBit (j + t) = true := fun j =>
    ⟨fun set => ⟨0,by omega,set⟩,fun ⟨t,less,set⟩ => by rwa [show t = 0 by omega] at set⟩
  exact smearDouble (smearDouble (smearDouble (smearDouble (smearDouble own)))) j

theorem smearMask {v : Nat} (small : v < 2 ^ 32) : smear v = 2 ^ v.size - 1 := by
  apply Nat.eq_of_testBit_eq
  intro j
  rw [Nat.testBit_two_pow_sub_one,Bool.eq_iff_iff,smearBit,decide_eq_true_eq]
  constructor
  · rintro ⟨t,-,set⟩
    by_contra beyond
    have below : v < 2 ^ (j + t) := Nat.lt_of_lt_of_le (Nat.lt_size_self v) (Nat.pow_le_pow_right (by omega) (by omega))
    rw [Nat.testBit_lt_two_pow below] at set
    exact nomatch set
  · intro within
    obtain ⟨i,high,set⟩ := Nat.exists_ge_and_testBit_of_ge_two_pow (Nat.lt_size.mp within)
    refine ⟨i - j,?_,by rwa [show j + (i - j) = i by omega]⟩
    have bounded : i < 32 := by
      by_contra beyond
      rw [Nat.testBit_lt_two_pow (Nat.lt_of_lt_of_le small (Nat.pow_le_pow_right (by omega) (by omega)))] at set
      exact nomatch set
    omega

end DabStar.Lib.Ring
