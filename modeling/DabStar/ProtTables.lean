import Mathlib

/-! The puncturing vectors of protection/protTables.cpp. A vector keeps all positions of
the one before it and one more, so every profile keeps at least what the first vector
keeps. -/
namespace DabStar.ProtTables
open List

def cPiCodes : List (List Nat) :=
  [[1,1,0,0,1,0,0,0,1,0,0,0,1,0,0,0,1,0,0,0,1,0,0,0,1,0,0,0,1,0,0,0],
   [1,1,0,0,1,0,0,0,1,0,0,0,1,0,0,0,1,1,0,0,1,0,0,0,1,0,0,0,1,0,0,0],
   [1,1,0,0,1,0,0,0,1,1,0,0,1,0,0,0,1,1,0,0,1,0,0,0,1,0,0,0,1,0,0,0],
   [1,1,0,0,1,0,0,0,1,1,0,0,1,0,0,0,1,1,0,0,1,0,0,0,1,1,0,0,1,0,0,0],
   [1,1,0,0,1,1,0,0,1,1,0,0,1,0,0,0,1,1,0,0,1,0,0,0,1,1,0,0,1,0,0,0],
   [1,1,0,0,1,1,0,0,1,1,0,0,1,0,0,0,1,1,0,0,1,1,0,0,1,1,0,0,1,0,0,0],
   [1,1,0,0,1,1,0,0,1,1,0,0,1,1,0,0,1,1,0,0,1,1,0,0,1,1,0,0,1,0,0,0],
   [1,1,0,0,1,1,0,0,1,1,0,0,1,1,0,0,1,1,0,0,1,1,0,0,1,1,0,0,1,1,0,0],
   [1,1,1,0,1,1,0,0,1,1,0,0,1,1,0,0,1,1,0,0,1,1,0,0,1,1,0,0,1,1,0,0],
   [1,1,1,0,1,1,0,0,1,1,0,0,1,1,0,0,1,1,1,0,1,1,0,0,1,1,0,0,1,1,0,0],
   [1,1,1,0,1,1,0,0,1,1,1,0,1,1,0,0,1,1,1,0,1,1,0,0,1,1,0,0,1,1,0,0],
   [1,1,1,0,1,1,0,0,1,1,1,0,1,1,0,0,1,1,1,0,1,1,0,0,1,1,1,0,1,1,0,0],
   [1,1,1,0,1,1,1,0,1,1,1,0,1,1,0,0,1,1,1,0,1,1,0,0,1,1,1,0,1,1,0,0],
   [1,1,1,0,1,1,1,0,1,1,1,0,1,1,0,0,1,1,1,0,1,1,1,0,1,1,1,0,1,1,0,0],
   [1,1,1,0,1,1,1,0,1,1,1,0,1,1,1,0,1,1,1,0,1,1,1,0,1,1,1,0,1,1,0,0],
   [1,1,1,0,1,1,1,0,1,1,1,0,1,1,1,0,1,1,1,0,1,1,1,0,1,1,1,0,1,1,1,0],
   [1,1,1,1,1,1,1,0,1,1,1,0,1,1,1,0,1,1,1,0,1,1,1,0,1,1,1,0,1,1,1,0],
   [1,1,1,1,1,1,1,0,1,1,1,0,1,1,1,0,1,1,1,1,1,1,1,0,1,1,1,0,1,1,1,0],
   [1,1,1,1,1,1,1,0,1,1,1,1,1,1,1,0,1,1,1,1,1,1,1,0,1,1,1,0,1,1,1,0],
   [1,1,1,1,1,1,1,0,1,1,1,1,1,1,1,0,1,1,1,1,1,1,1,0,1,1,1,1,1,1,1,0],
   [1,1,1,1,1,1,1,1,1,1,1,1,1,1,1,0,1,1,1,1,1,1,1,0,1,1,1,1,1,1,1,0],
   [1,1,1,1,1,1,1,1,1,1,1,1,1,1,1,0,1,1,1,1,1,1,1,1,1,1,1,1,1,1,1,0],
   [1,1,1,1,1,1,1,1,1,1,1,1,1,1,1,1,1,1,1,1,1,1,1,1,1,1,1,1,1,1,1,0],
   [1,1,1,1,1,1,1,1,1,1,1,1,1,1,1,1,1,1,1,1,1,1,1,1,1,1,1,1,1,1,1,1]]

def getPiCodes (piCode : Nat) : List Nat := cPiCodes.getD (piCode - 1) []

theorem piCodesNested : ∀ k < 24, ∀ j < 32, (getPiCodes 1).getD j 0 ≠ 0 → (getPiCodes (k + 1)).getD j 0 ≠ 0 := by decide

/- Four times the vector makes a block; the 24 bits that empty the register take the
start of vector 8. -/
def blockMask (piX : List Nat) : List Bool := (range 128).map (fun j => piX.getD (j % 32) 0 ≠ 0)

def tailMask : List Bool := (range 24).map (fun i => (getPiCodes 8).getD i 0 ≠ 0)

theorem blockMaskLength (piX : List Nat) : (blockMask piX).length = 128 := by
  unfold blockMask
  rw [length_map,length_range]

theorem blockMaskGet (piX : List Nat) {a : Nat} (inside : a < 128) : (blockMask piX).getD a false = decide (piX.getD (a % 32) 0 ≠ 0) := by
  rw [getD_eq_getElem _ _ (by rw [blockMaskLength]; exact inside)]
  simp only [blockMask,getElem_map,getElem_range]

theorem blockMaskCount : ∀ k < 24, (blockMask (getPiCodes (k + 1))).count true = 4 * (k + 9) := by decide

theorem tailMaskCount : tailMask.count true = 12 := by decide

end DabStar.ProtTables
