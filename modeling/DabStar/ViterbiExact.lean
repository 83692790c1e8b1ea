import DabStar.ProtTables
import DabStar.ViterbiSpiral

/-! Error-free decoding. The encoder of calculate_BER walks a path of the trellis. A punctured
position favours a zero by one unit, so the rivals are bounded by a table over the eight steps
after which the puncturing repeats. -/
namespace DabStar.ViterbiExact
open List Lib ProtTables ViterbiSpiral

theorem codeBitForm : ∀ r < 128, (codeBit r 0 = (r.testBit 0 ^^ r.testBit 2 ^^ r.testBit 3 ^^ r.testBit 5 ^^ r.testBit 6)) ∧
    (codeBit r 1 = (r.testBit 0 ^^ r.testBit 1 ^^ r.testBit 2 ^^ r.testBit 3 ^^ r.testBit 6)) ∧
    (codeBit r 2 = (r.testBit 0 ^^ r.testBit 1 ^^ r.testBit 4 ^^ r.testBit 6)) ∧
    (codeBit r 3 = (r.testBit 0 ^^ r.testBit 2 ^^ r.testBit 3 ^^ r.testBit 5 ^^ r.testBit 6)) := by decide +kernel

theorem codeBitXor {r q j : Nat} (left : r < 128) (right : q < 128) (small : j < 4) :
    codeBit (r ^^^ q) j = (codeBit r j ^^ codeBit q j) := by
  have both : r ^^^ q < 128 := Nat.xor_lt_two_pow (n := 7) left right
  obtain ⟨r0,r1,r2,r3⟩ := codeBitForm r left
  obtain ⟨q0,q1,q2,q3⟩ := codeBitForm q right
  obtain ⟨b0,b1,b2,b3⟩ := codeBitForm (r ^^^ q) both
  interval_cases j
  · rw [r0,q0,b0]
    simp only [Nat.testBit_xor,Bool.xor_assoc,Bool.xor_left_comm]
  · rw [r1,q1,b1]
    simp only [Nat.testBit_xor,Bool.xor_assoc,Bool.xor_left_comm]
  · rw [r2,q2,b2]
    simp only [Nat.testBit_xor,Bool.xor_assoc,Bool.xor_left_comm]
  · rw [r3,q3,b3]
    simp only [Nat.testBit_xor,Bool.xor_assoc,Bool.xor_left_comm]

theorem codeBitLow (sr : Nat) {j : Nat} (small : j < 4) : codeBit sr j = codeBit (sr % 128) j := by
  have low : ∀ j < 4, polys.getD j 0 &&& 127 = polys.getD j 0 := by decide
  unfold codeBit
  rw [← low j small,← Nat.and_two_pow_sub_one_eq_mod sr 7,Nat.and_comm (polys.getD j 0) 127,← Nat.and_assoc,
    ← Nat.and_assoc,Nat.and_assoc (sr) _ 127,Nat.and_self]

/- How far a path that differs from the sent one by this register falls behind at least,
by the phase of the step: row p holds the states after steps that are p modulo 8. -/
def leadTable : List (List Nat) :=
  [[0,250,248,474,449,247,480,439,467,498,486,246,482,489,477,481,486,467,465,490,485,235,486,244,
    460,231,466,471,480,453,461,243,489,462,484,471,488,236,455,460,487,441,463,470,473,466,225,244,
    455,470,488,459,213,467,469,476,476,473,491,474,240,492,492,471],
   [0,489,502,502,483,247,724,722,487,448,489,487,480,455,691,691,466,486,692,694,463,486,498,498,
    473,482,718,718,476,224,495,497,707,707,470,467,718,716,489,458,464,466,234,466,721,721,476,244,
    711,713,472,230,718,718,471,474,492,492,453,492,712,714,470,242],
   [0,250,487,705,469,501,466,501,717,482,498,246,724,489,710,456,486,463,447,465,234,484,464,485,
    721,480,707,453,690,475,495,243,709,464,713,486,691,471,481,229,462,714,485,717,469,496,474,498,
    491,472,491,481,705,451,718,492,474,710,224,474,469,494,241,493],
   [0,250,248,462,712,486,485,704,690,468,470,500,466,481,481,227,713,461,481,713,485,498,498,244,
    469,719,494,487,709,473,455,497,489,484,472,463,446,490,464,480,233,485,483,450,716,462,492,485,
    473,720,709,479,476,222,453,474,688,467,475,494,240,492,492,242],
   [0,250,248,482,471,247,462,461,445,697,489,485,485,464,702,478,484,232,467,484,483,470,448,498,
    716,466,460,479,480,491,226,478,471,711,711,461,480,708,712,478,484,475,473,221,451,496,474,244,
    687,468,466,718,492,473,487,494,492,238,473,492,491,454,241,493],
   [0,250,248,502,499,247,460,481,479,470,498,246,462,712,459,476,444,483,696,474,473,489,219,473,
    451,485,494,462,701,473,477,243,685,482,468,232,466,465,483,717,482,491,469,472,485,446,494,498,
    491,715,237,465,458,471,479,492,478,489,491,454,240,225,492,477],
   [0,250,248,480,467,247,231,483,465,498,464,246,460,483,479,715,478,481,469,490,469,498,470,244,
    485,462,444,698,458,493,475,497,489,442,715,483,488,236,473,464,472,457,488,470,471,217,492,473,
    477,450,488,484,492,489,462,454,492,238,473,225,491,476,476,242],
   [0,250,248,440,499,247,482,479,487,466,235,246,231,473,481,462,464,471,497,456,488,464,468,244,
    471,460,215,469,478,491,714,472,475,476,450,481,468,487,489,483,468,491,497,488,460,468,454,244,
    491,484,237,461,442,471,475,225,456,489,493,476,475,474,241,493]]

def leadAt (phase s : Nat) : Int := (leadTable.getD phase []).getD s 0

/- What a differing code bit costs at least: 253 where it is kept, and a punctured one can
gain a unit. -/
def weight (phase r : Nat) : Int :=
  ∑ j ∈ Finset.range 4, if codeBit r j then
    if (getPiCodes 1).getD (4 * phase + j) 0 ≠ 0 then 253 else -1 else 0

theorem leadStep : ∀ phase < 8, ∀ r < 128, leadAt ((phase + 1) % 8) (r % 64) ≤ leadAt phase (r / 2) + weight phase r := by decide +kernel

theorem leadRival : ∀ phase < 8, 0 < leadAt phase 32 + weight phase 64 := by decide +kernel

theorem leadStart : ∀ s : Fin 64, leadAt 0 s ≤ startMetric s := by decide +kernel

section Sent
variable {t : Nat}

variable (word : List Bool)

def tailed : List Bool := word ++ replicate 6 false

def bitAt (t : Nat) : Bool := (tailed word).getD t false

def srAt (t : Nat) : Nat := ((tailed word).take t).foldl shift 0

def stateAt (t : Nat) : Fin 64 := ⟨srAt word t % 64,Nat.mod_lt _ (by decide)⟩

def leavingAt (t : Nat) : Bool := 32 ≤ (stateAt word t).val

theorem tailedLength : (tailed word).length = word.length + 6 := by
  unfold tailed
  rw [length_append,length_replicate]

theorem shiftValue (sr : Nat) (bit : Bool) : shift sr bit = (2 * sr + bit.toNat) % 256 := by
  have low : bit.toNat < 2 ^ 1 := Bool.toNat_lt bit
  unfold shift
  rw [← Nat.shiftLeft_add_eq_or_of_lt low,Nat.shiftLeft_eq,Nat.and_two_pow_sub_one_eq_mod _ 8]
  omega

theorem srAtSucc (inside : t < word.length + 6) : srAt word (t + 1) = (2 * srAt word t + (bitAt word t).toNat) % 256 := by
  have bound : t < (tailed word).length := by rw [tailedLength]; exact inside
  unfold srAt bitAt
  rw [take_succ_eq_append_getElem bound,foldl_append,foldl_cons,foldl_nil,shiftValue,getD_eq_getElem _ _ bound]

theorem stateAtSucc (inside : t < word.length + 6) :
    (stateAt word (t + 1)).val = (2 * (stateAt word t).val + (bitAt word t).toNat) % 64 := by
  show srAt word (t + 1) % 64 = (2 * (srAt word t % 64) + (bitAt word t).toNat) % 64
  rw [srAtSucc word inside]
  omega

theorem registerAt (inside : t < word.length + 6) : register (stateAt word (t + 1)) (leavingAt word t) = srAt word (t + 1) % 128 := by
  have older : (stateAt word t).val = srAt word t % 64 := rfl
  have newer : (stateAt word (t + 1)).val = srAt word (t + 1) % 64 := rfl
  have step := srAtSucc word inside
  have bit := Bool.toNat_le (bitAt word t)
  unfold register leavingAt
  by_cases leaves : 32 ≤ (stateAt word t).val
  · simp only [leaves,decide_true,if_true]
    omega
  · simp only [leaves,decide_false,Bool.false_eq_true,if_false]
    omega

def path (input : List Int) : (trellis input).Path (word.length + 6) where
  state := stateAt word
  taken := leavingAt word
  back := by
    intro t inside
    apply Fin.ext
    have older : (stateAt word t).val = srAt word t % 64 := rfl
    have bit := Bool.toNat_le (bitAt word t)
    show register (stateAt word (t + 1)) (leavingAt word t) / 2 = (stateAt word t).val
    rw [registerAt word inside,srAtSucc word inside]
    omega

theorem registersGet (bits : List Bool) (sr : Nat) (inside : t < bits.length) :
    (registers sr bits).getD t 0 = (bits.take (t + 1)).foldl shift sr := by
  induction bits generalizing sr t with
  | nil => exact absurd inside (Nat.not_lt_zero _)
  | cons bit bits ih =>
    cases t with
    | zero => rfl
    | succ t =>
      rw [registers,getD_cons_succ,ih (shift sr bit) (Nat.lt_of_succ_lt_succ inside)]
      rfl

theorem registersLength (bits : List Bool) (sr : Nat) : (registers sr bits).length = bits.length := by
  induction bits generalizing sr with
  | nil => rfl
  | cons bit bits ih => rw [registers,length_cons,ih,length_cons]

theorem flatMapGet {l : List Nat} {f : Nat → List Bool} (four : ∀ x, (f x).length = 4) {t j : Nat} (inside : t < l.length) (small : j < 4) :
    (l.flatMap f).getD (4 * t + j) false = (f (l.getD t 0)).getD j false := by
  induction l generalizing t with
  | nil => exact absurd inside (Nat.not_lt_zero _)
  | cons x l ih =>
    rw [flatMap_cons]
    cases t with
    | zero =>
      rw [getD_append _ _ _ _ (by rw [four]; omega),getD_cons_zero,Nat.mul_zero,Nat.zero_add]
    | succ t =>
      rw [getD_append_right _ _ _ _ (by rw [four]; omega),four,getD_cons_succ,← ih (Nat.lt_of_succ_lt_succ inside)]
      congr 1
      omega

theorem convolveGet {t j : Nat} (inside : t < word.length + 6) (small : j < 4) :
    (convolve word).getD (4 * t + j) false = codeBit (srAt word (t + 1)) j := by
  have bound : t < (tailed word).length := by rw [tailedLength]; exact inside
  show ((registers 0 (tailed word)).flatMap _).getD _ _ = _
  rw [flatMapGet (fun _ => rfl) (by rw [registersLength]; exact bound) small,registersGet _ _ bound]
  have mapped : ∀ sr, (polys.map (fun poly => decide (parity (sr &&& poly) = 1))).getD j false = codeBit sr j := by
    intro sr
    unfold codeBit
    interval_cases j <;> rfl
  exact mapped _

end Sent

section Received

def soft (bit : Bool) : Int := if bit then 127 else -127

/- The code word arrives without errors at the kept positions, zero at the others, and the
positions of the first puncturing vector are kept. -/
structure Received (word : List Bool) (kept : Nat → Bool) (input : List Int) : Prop where
  covers : ∀ a < 4 * (word.length + 6), (getPiCodes 1).getD (a % 32) 0 ≠ 0 → kept a = true
  arrives : ∀ a < 4 * (word.length + 6), input.getD a 0 = if kept a then soft ((convolve word).getD a false) else 0

theorem symExcess (sent rival kept first : Bool) (covered : first = true → kept = true) :
    (if rival ^^ sent then if first then 253 else -1 else 0) ≤ symCost rival (limitMinMax (if kept then soft sent else 0)) -
        symCost sent (limitMinMax (if kept then soft sent else 0)) := by
  revert covered
  cases sent <;> cases rival <;> cases kept <;> cases first <;> decide

variable {word : List Bool} {kept : Nat → Bool} {input : List Int} (received : Received word kept input)
include received

theorem excessWeight {t : Nat} (inside : t < word.length + 6) (s : Fin 64) (d : Bool) :
    weight (t % 8) (register s d ^^^ register (stateAt word (t + 1)) (leavingAt word t)) ≤ (path word input).excess t s d := by
  unfold weight Trellis.Path.excess trellis
  dsimp only
  rw [← Finset.sum_sub_distrib]
  refine Finset.sum_le_sum (fun j member => ?_)
  have small := Finset.mem_range.mp member
  have sent : (convolve word).getD (4 * t + j) false = codeBit (register (stateAt word (t + 1)) (leavingAt word t)) j := by
    rw [convolveGet word inside small,codeBitLow _ small,registerAt word inside]
  have phase : 4 * (t % 8) + j = (4 * t + j) % 32 := by omega
  have arrives := received.arrives (4 * t + j) (by omega)
  have excess := symExcess ((convolve word).getD (4 * t + j) false) (codeBit (register s d) j) (kept (4 * t + j))
    (decide ((getPiCodes 1).getD ((4 * t + j) % 32) 0 ≠ 0))
    (fun first => received.covers _ (by omega) (of_decide_eq_true first))
  rw [← arrives,sent] at excess
  rw [codeBitXor (registerLt s d) (registerLt _ _) small,phase]
  simp only [decide_eq_true_eq] at excess
  exact excess

def lead : Trellis.Lead (path word input) startMetric where
  lead t s := leadAt (t % 8) (s.val ^^^ (stateAt word t).val)
  initial := by
    intro s
    have bound := leadStart s
    show startMetric 0 + leadAt 0 (s.val ^^^ 0) ≤ startMetric s
    rw [Nat.xor_zero]
    exact (zero_add _).trans_le bound
  kept := by
    intro t inside s d
    have bound : register s d ^^^ register (stateAt word (t + 1)) (leavingAt word t) < 128 :=
      Nat.xor_lt_two_pow (n := 7) (registerLt s d) (registerLt _ _)
    have step := leadStep (t % 8) (Nat.mod_lt _ (by decide)) _ bound
    have low : ∀ (s : Fin 64) (d : Bool), register s d % 64 = s.val := by decide
    have back : register (stateAt word (t + 1)) (leavingAt word t) / 2 = (stateAt word t).val :=
      congrArg Fin.val ((path word input).back t inside)
    have older : ((trellis input).pred s d).val = register s d / 2 := rfl
    have mod := @Nat.xor_mod_two_pow (register s d) (register (stateAt word (t + 1)) (leavingAt word t)) 6
    rw [low,low] at mod
    have excess := excessWeight received inside s d
    rw [older,← back,← Nat.xor_div_two,← mod,show (t + 1) % 8 = (t % 8 + 1) % 8 by omega]
    exact step.trans (Int.add_le_add_left excess _)
  rival := by
    intro t inside
    have differ : ∀ (s : Fin 64) (d : Bool), register s (!d) ^^^ register s d = 64 := by decide
    have back : register (stateAt word (t + 1)) (leavingAt word t) / 2 = (stateAt word t).val :=
      congrArg Fin.val ((path word input).back t inside)
    have older : ((trellis input).pred (stateAt word (t + 1)) (!leavingAt word t)).val =
      register (stateAt word (t + 1)) (!leavingAt word t) / 2 := rfl
    have excess := excessWeight received inside (stateAt word (t + 1)) (!leavingAt word t)
    have behind := leadRival (t % 8) (Nat.mod_lt _ (by decide))
    rw [differ] at excess
    show 0 < leadAt (t % 8) (((trellis input).pred (stateAt word (t + 1)) (!leavingAt word t)).val ^^^
      (stateAt word t).val) + (path word input).excess t (stateAt word (t + 1)) (!leavingAt word t)
    rw [older,← back,← Nat.xor_div_two,differ]
    exact behind.trans_le (Int.add_le_add_left excess _)

end Received

section Chainback

variable {word : List Bool}

theorem stateBit {t k : Nat} (small : k < 6) (inside : t + k < word.length + 6) :
    (stateAt word (t + k + 1)).val / 2 ^ k % 2 = (bitAt word t).toNat := by
  induction k with
  | zero =>
    have bit := Bool.toNat_le (bitAt word t)
    rw [stateAtSucc word inside]
    simp only [Nat.add_zero,pow_zero,Nat.div_one]
    omega
  | succ k ih =>
    have before := ih (by omega) (by omega)
    have bit := Bool.toNat_le (bitAt word (t + (k + 1)))
    rw [stateAtSucc word inside]
    rw [show t + (k + 1) = t + k + 1 by omega] at bit ⊢
    obtain ⟨state,same⟩ : ∃ state, state = (stateAt word (t + k + 1)).val := ⟨_,rfl⟩
    rw [← same] at before ⊢
    have bound : k < 5 := by omega
    interval_cases k <;> simp only [pow_zero,Nat.div_one,Nat.reduceAdd,Nat.reducePow] at before ⊢ <;> omega

theorem leavingBit {t : Nat} (inside : t < word.length) : leavingAt word (t + 6) = word.getD t false := by
  have sent : bitAt word t = word.getD t false := by
    unfold bitAt tailed
    rw [getD_append _ _ _ _ inside]
  have oldest : (stateAt word (t + 6)).val / 32 % 2 = (bitAt word t).toNat := stateBit (by decide) (by omega)
  have bound := (stateAt word (t + 6)).isLt
  unfold leavingAt
  rw [← sent]
  cases first : bitAt word t with
  | false =>
    rw [first,Bool.toNat_false] at oldest
    rw [decide_eq_false_iff_not]
    omega
  | true =>
    rw [first,Bool.toNat_true] at oldest
    rw [decide_eq_true_eq]
    omega

theorem endState : (stateAt word (word.length + 6)).val = 0 := by
  have zero : ∀ k < 6, (stateAt word (word.length + 6)).val / 2 ^ k % 2 = 0 := by
    intro k small
    have tail : bitAt word (word.length + 5 - k) = false := by
      unfold bitAt tailed
      rw [getD_append_right _ _ _ _ (by omega),getD_replicate (h := by omega)]
    have bit : (stateAt word (word.length + 5 - k + k + 1)).val / 2 ^ k % 2 = _ := stateBit small (by omega)
    rw [tail,show word.length + 5 - k + k + 1 = word.length + 6 by omega] at bit
    exact bit
  have bound := (stateAt word (word.length + 6)).isLt
  have z0 := zero 0 (by decide)
  have z1 := zero 1 (by decide)
  have z2 := zero 2 (by decide)
  have z3 := zero 3 (by decide)
  have z4 := zero 4 (by decide)
  have z5 := zero 5 (by decide)
  simp only [pow_zero,Nat.div_one,Nat.reducePow] at z0 z1 z2 z3 z4 z5
  omega

/- While the decisions along the path are the bits that leave it, chaining back from one of
its states follows it; the state lies in the upper six of eight bits. -/
theorem chainbackPath {decisions : List (List Bool)}
    (follows : ∀ t < word.length, (decisions.getD (t + 6) []).getD (stateAt word (t + 7)) false = leavingAt word (t + 6))
    {framebits : Nat} (inside : framebits ≤ word.length) {endstate : Nat} (byte : endstate < 256)
    (state : endstate >>> 2 = stateAt word (framebits + 6)) (output : List Bool) :
    chainback decisions framebits endstate output = word.take framebits ++ output := by
  induction framebits generalizing endstate output with
  | zero => rfl
  | succ framebits ih =>
    have chosen : (decisions.getD (framebits + 6) []).getD (endstate >>> 2) false = word.getD framebits false := by
      rw [state,← leavingBit inside]
      exact follows framebits inside
    have older : (stateAt word (framebits + 6)).val = register (stateAt word (framebits + 7)) (leavingAt word (framebits + 6)) / 2 :=
      (congrArg Fin.val ((path word []).back (framebits + 6) (by omega))).symm
    rw [leavingBit inside] at older
    unfold register at older
    have shifted : (endstate >>> 1) ||| ((word.getD framebits false).toNat <<< 7) =
        endstate / 2 + 128 * (word.getD framebits false).toNat := by
      have small : endstate >>> 1 < 2 ^ 7 := by
        rw [Nat.shiftRight_eq_div_pow]
        omega
      rw [Nat.or_comm,← Nat.shiftLeft_add_eq_or_of_lt small,Nat.shiftLeft_eq,Nat.shiftRight_eq_div_pow]
      omega
    rw [Nat.shiftRight_eq_div_pow,show framebits + 1 + 6 = framebits + 7 from rfl] at state
    unfold chainback
    dsimp only
    rw [chosen,shifted]
    have last : word.take (framebits + 1) = word.take framebits ++ [word.getD framebits false] := by
      rw [take_succ_eq_append_getElem inside,getD_eq_getElem _ _ inside]
    rw [last,append_assoc,singleton_append]
    refine ih (Nat.le_of_succ_le inside) ?_ ?_ _
    · cases word.getD framebits false <;> simp <;> omega
    · rw [Nat.shiftRight_eq_div_pow]
      cases bit : word.getD framebits false <;> rw [bit] at older <;> simp at older ⊢ <;> omega

end Chainback

theorem deconvolveExact {word : List Bool} {kept : Nat → Bool} {input : List Int}
    (received : Received word kept input) : deconvolve word.length input = word := by
  obtain ⟨_,_,decisions⟩ := forwardTrellis input (word.length + 6)
  have follows : ∀ t < word.length, ((forward input (word.length + 6)).decisions.getD (t + 6) []).getD
      (stateAt word (t + 7)) false = leavingAt word (t + 6) := by
    intro t inside
    rw [decisions (t + 6) (by omega)]
    exact Trellis.decisionTaken (lead received) (by omega)
  unfold deconvolve
  rw [chainbackPath follows (le_refl _) (by decide) (by rw [endState]; rfl),take_length,append_nil]

end DabStar.ViterbiExact
