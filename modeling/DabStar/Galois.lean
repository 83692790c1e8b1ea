import Mathlib

/-! The finite-field package of the Reed-Solomon codec (backend/galois.cpp).
Polynomial-form symbols are bytes, power-form symbols are exponents 0 .. codeLength,
where codeLength stands for the logarithm of zero. -/
namespace DabStar

abbrev U8 := BitVec 8

structure Galois where
  mm : Nat
  gfpoly : Nat
  codeLength : Nat
  dQ : Nat
  alphaTo : List Nat
  indexOf : List Nat
  deriving DecidableEq, Repr

namespace Galois

structure Tables where
  sr : Nat
  alphaTo : List Nat
  indexOf : List Nat

def shiftStep (symsize gfpoly codeLength sr : Nat) : Nat :=
  let shifted := (sr <<< 1) % 65536
  let reduced := if shifted &&& (1 <<< symsize) ≠ 0 then shifted ^^^ gfpoly else shifted
  reduced &&& codeLength

def tableStep (symsize gfpoly codeLength : Nat) (t : Tables) (i : Nat) : Tables :=
  ⟨shiftStep symsize gfpoly codeLength t.sr,t.alphaTo.set i t.sr,t.indexOf.set t.sr i⟩

def blank (codeLength : Nat) : Tables :=
  ⟨1,(List.replicate (codeLength + 1) 0).set codeLength 0,(List.replicate (codeLength + 1) 0).set 0 codeLength⟩

def fill (symsize gfpoly codeLength n : Nat) : Tables := (List.range n).foldl (tableStep symsize gfpoly codeLength) (blank codeLength)

def new (symsize gfpoly : Nat) : Galois :=
  let codeLength := (1 <<< symsize) - 1
  let t := fill symsize gfpoly codeLength codeLength
  ⟨symsize,gfpoly,codeLength,1 <<< symsize,t.alphaTo,t.indexOf⟩

/- The loop of modnn strictly lowers its argument, so the argument is its own fuel. -/
def modnnLoop (g : Galois) : Nat → Nat → Nat
  | 0, x => x
  | fuel + 1, x =>
    if x ≥ g.codeLength then
      modnnLoop g fuel (((x - g.codeLength) >>> g.mm) + ((x - g.codeLength) &&& g.codeLength))
    else x

def modnn (g : Galois) (x : Nat) : Nat := modnnLoop g x x

def addPoly (a b : U8) : U8 := a ^^^ b

def poly2power (g : Galois) (a : U8) : Nat := g.indexOf.getD a.toNat 0

def power2poly (g : Galois) (a : Nat) : U8 := BitVec.ofNat 8 (g.alphaTo.getD a 0)

def multiplyPower (g : Galois) (a b : Nat) : Nat := g.modnn (a + b)

def multiplyPoly (g : Galois) (a b : U8) : U8 :=
  if a = 0#8 ∨ b = 0#8 then 0#8 else g.power2poly (g.multiplyPower (g.poly2power a) (g.poly2power b))

def dividePower (g : Galois) (a b : Nat) : Nat := g.modnn (g.dQ - 1 + a - b)

def dividePoly (g : Galois) (a b : U8) : U8 := if a = 0#8 then 0#8 else g.power2poly (g.dividePower (g.poly2power a) (g.poly2power b))

def powPower (g : Galois) (a n : Nat) : Nat := if a = 0 then 0 else (a * n) % (g.dQ - 1)

theorem modnnLoopMod {g : Galois} (width : g.codeLength = 2 ^ g.mm - 1) (positive : 0 < g.codeLength)
    (fuel x : Nat) (enough : x ≤ fuel) : modnnLoop g fuel x = x % g.codeLength := by
  induction fuel generalizing x with
  | zero =>
    have zero : x = 0 := by omega
    simp [zero,modnnLoop]
  | succ fuel ih =>
    simp only [modnnLoop]
    split
    · rename_i large
      have power : 2 ^ g.mm = g.codeLength + 1 := by omega
      have low : (x - g.codeLength) &&& g.codeLength = (x - g.codeLength) % 2 ^ g.mm := by
        rw [width]; exact Nat.and_two_pow_sub_one_eq_mod _ _
      have high : (x - g.codeLength) >>> g.mm = (x - g.codeLength) / 2 ^ g.mm := Nat.shiftRight_eq_div_pow _ _
      have whole := Nat.div_add_mod (x - g.codeLength) (2 ^ g.mm)
      have least : (x - g.codeLength) / 2 ^ g.mm ≤ 2 ^ g.mm * ((x - g.codeLength) / 2 ^ g.mm) := Nat.le_mul_of_pos_left _ (by omega)
      rw [low,high,ih _ (by omega)]
      -- x differs from the folded value by a multiple of codeLength
      have split : x = (x - g.codeLength) / 2 ^ g.mm + (x - g.codeLength) % 2 ^ g.mm +
          g.codeLength * ((x - g.codeLength) / 2 ^ g.mm + 1) := by
        rw [power] at whole ⊢
        nlinarith [Nat.sub_add_cancel large]
      conv_rhs => rw [split]
      simp [Nat.add_mul_mod_self_left]
    · rename_i small
      exact (Nat.mod_eq_of_lt (by omega)).symm

theorem modnnMod {g : Galois} (width : g.codeLength = 2 ^ g.mm - 1) (positive : 0 < g.codeLength)
    (x : Nat) : g.modnn x = x % g.codeLength := modnnLoopMod width positive x x (Nat.le_refl x)

end Galois
end DabStar
