import Mathlib.Data.Nat.ModEq
import Mathlib.Tactic.Common

/-! Sums of 16-bit words in ones' complement. Adding up in a wider word and folding the upper
half in once tells as well whether the sum is all ones, as long as the upper half is not. -/
namespace DabStar.Lib.OnesComplement

def add (a b : Nat) : Nat := if a + b < 65536 then a + b else a + b - 65535

def sum (words : List Nat) : Nat := words.foldl add 0

def fold (total : Nat) : Nat := total / 65536 + total % 65536

theorem addSmall {a b : Nat} (left : a < 65536) (right : b < 65536) : add a b < 65536 := by
  unfold add
  split <;> omega

theorem addMod (a b : Nat) : add a b % 65535 = (a + b) % 65535 := by
  unfold add
  split <;> omega

theorem addZero (a b : Nat) : add a b = 0 ↔ a + b = 0 := by
  unfold add
  split <;> omega

theorem foldlSum {words : List Nat} (small : ∀ w ∈ words, w < 65536) {start : Nat} (begun : start < 65536) :
    words.foldl add start < 65536 ∧ words.foldl add start % 65535 = (start + words.sum) % 65535 ∧
      (words.foldl add start = 0 ↔ start + words.sum = 0) := by
  induction words generalizing start with
  | nil => simp [begun]
  | cons w words ih =>
    obtain ⟨here,later⟩ := List.forall_mem_cons.mp small
    obtain ⟨bound,same,zero⟩ := ih later (addSmall begun here)
    have step := addMod start w
    have none := addZero start w
    simp only [List.foldl_cons,List.sum_cons]
    exact ⟨bound,by omega,by omega⟩

theorem foldMod (total : Nat) : fold total % 65535 = total % 65535 := by
  have parts : total = total / 65536 + total % 65536 + 65535 * (total / 65536) := by omega
  calc fold total % 65535 = (total / 65536 + total % 65536 + 65535 * (total / 65536)) % 65535 := (Nat.add_mul_mod_self_left ..).symm
    _ = total % 65535 := by rw [← parts]

theorem foldExact {words : List Nat} (small : ∀ w ∈ words, w < 65536) (few : words.sum < 65535 * 65536) :
    fold words.sum % 65536 = 65535 ↔ sum words = 65535 := by
  obtain ⟨bound,same,zero⟩ := foldlSum small (show 0 < 65536 by omega)
  rw [Nat.zero_add] at same zero
  have folded := foldMod words.sum
  have bounded : fold words.sum < 131070 ∧ (fold words.sum = 0 ↔ words.sum = 0) := by
    unfold fold
    omega
  unfold sum
  omega

end DabStar.Lib.OnesComplement
