import DabStar.ViterbiExact

/-! Maximum likelihood decoding. Whatever is received, the decoded bits label, with the zeros
of the tail, a path into state 0 that costs no more than any other path into state 0; and
the metrics of a frame stay far below the limits of an i32. -/
namespace DabStar.ViterbiOptimal
open List Lib ViterbiSpiral ViterbiExact

section Paths
variable {input : List Int} {steps t : Nat} (path : (trellis input).Path steps)

theorem pathRegister (inside : t < steps) : register (path.state (t + 1)) (path.taken t) =
    2 * (path.state t).val + (path.state (t + 1)).val % 2 := by
  have back : register (path.state (t + 1)) (path.taken t) / 2 = (path.state t).val := congrArg Fin.val (path.back t inside)
  have low : ∀ (s : Fin 64) (d : Bool), register s d % 2 = s.val % 2 := by decide
  have bit := low (path.state (t + 1)) (path.taken t)
  omega

theorem pathNext (inside : t < steps) : (path.state (t + 1)).val = (2 * (path.state t).val + (path.state (t + 1)).val % 2) % 64 := by
  have low : ∀ (s : Fin 64) (d : Bool), register s d % 64 = s.val := by decide
  rw [← pathRegister path inside,low]

theorem takenLeaves (inside : t < steps) : path.taken t = decide (32 ≤ (path.state t).val) := by
  have value := pathRegister path inside
  have bound := (path.state (t + 1)).isLt
  unfold register at value
  cases taken : path.taken t with
  | false =>
    rw [taken,if_neg Bool.false_ne_true] at value
    exact (decide_eq_false (by omega)).symm
  | true =>
    rw [taken,if_pos rfl] at value
    exact (decide_eq_true (by omega)).symm

def labels : List Bool := (range steps).map fun t => (path.state (t + 1)).val % 2 = 1

theorem labelsLength : (labels path).length = steps := by simp [labels]

theorem labelsGet (inside : t < steps) : ((labels path).getD t false).toNat = (path.state (t + 1)).val % 2 := by
  rw [getD_eq_getElem _ _ (by rwa [labelsLength])]
  simp only [labels,getElem_map,getElem_range]
  rcases Nat.mod_two_eq_zero_or_one (path.state (t + 1)).val with even | odd
  · simp [even]
  · simp [odd]

theorem tailZero (ends : (path.state steps).val = 0) {k : Nat} (small : k ≤ 6) (enough : k ≤ steps) :
    (path.state (steps - k)).val % 2 ^ (6 - k) = 0 := by
  induction k with
  | zero => simp [ends]
  | succ k ih =>
    have later := ih (by omega) (by omega)
    have step := pathNext path (show steps - (k + 1) < steps by omega)
    rw [show steps - (k + 1) + 1 = steps - k by omega] at step
    have bound : k < 6 := small
    interval_cases k <;> simp only [Nat.reduceSub,Nat.reducePow,Nat.reduceAdd] at later ⊢ step <;> omega

end Paths

theorem costWithin (input : List Int) (t : Nat) (s : Fin 64) (d : Bool) : 0 ≤ (trellis input).cost t s d ∧ (trellis input).cost t s d ≤ 1020 := by
  have each : ∀ bit i, 0 ≤ symCost bit (limitMinMax (input.getD i 0)) ∧ symCost bit (limitMinMax (input.getD i 0)) ≤ 255 := by
    intro bit i
    have sum := symCostNot bit (limitMinMaxLt (input.getD i 0))
    have plain : ∀ bit, 0 ≤ symCost bit (limitMinMax (input.getD i 0)) := fun bit => Int.natCast_nonneg _
    have first := plain bit
    have second := plain (!bit)
    omega
  unfold trellis
  dsimp only
  constructor
  · exact Finset.sum_nonneg fun j _ => (each _ _).1
  · exact (Finset.sum_le_card_nsmul _ _ 255 fun j _ => (each _ _).2).trans (by simp)

section Ends
variable {input : List Int} {frameBits : Nat} {path : (trellis input).Path (frameBits + 6)} (ends : path.state (frameBits + 6) = 0)
include ends

theorem labelsTailed : tailed ((labels path).take frameBits) = labels path := by
  have size := labelsLength path
  have zeros : (labels path).drop frameBits = replicate 6 false := by
    refine eq_replicate_iff.mpr ⟨by rw [length_drop,size]; omega,fun bit member => ?_⟩
    obtain ⟨i,inside,rfl⟩ := getElem_of_mem member
    rw [length_drop,size] at inside
    have value := labelsGet path (show frameBits + i < frameBits + 6 by omega)
    have zero := tailZero path (congrArg Fin.val ends) (show 5 - i ≤ 6 by omega) (by omega)
    rw [show frameBits + 6 - (5 - i) = frameBits + i + 1 by omega] at zero
    have low : 2 ∣ 2 ^ (6 - (5 - i)) := dvd_pow_self 2 (by omega)
    rw [Nat.mod_eq_zero_of_dvd (low.trans (Nat.dvd_of_mod_eq_zero zero)),getD_eq_getElem _ _ (by omega)] at value
    rw [getElem_drop]
    exact Bool.toNat_eq_zero.mp value
  rw [tailed,← zeros,take_append_drop]

/- Each further bit fixes one more bit of the state, whatever the start. -/
theorem labelsNear {t k : Nat} (inside : t ≤ frameBits) (few : k ≤ 6) :
    (stateAt ((labels path).take frameBits) (t + k)).val % 2 ^ k = (path.state (t + k)).val % 2 ^ k := by
  induction k with
  | zero => simp [Nat.mod_one]
  | succ k ih =>
    have before := ih (Nat.le_of_succ_le few)
    have step := pathNext path (show t + k < frameBits + 6 by omega)
    have walk := stateAtSucc ((labels path).take frameBits) (show t + k < _ by rw [length_take_of_le (by rw [labelsLength]; omega)]; omega)
    rw [bitAt,labelsTailed ends,labelsGet path (by omega)] at walk
    rw [← Nat.add_assoc,walk,step]
    have small : k < 6 := few
    interval_cases k <;> simp only [Nat.reducePow,Nat.reduceAdd] at before ⊢ <;> omega

theorem labelsState {t : Nat} (inside : t ≤ frameBits) : stateAt ((labels path).take frameBits) (t + 6) = path.state (t + 6) := by
  have near := labelsNear ends inside (le_refl 6)
  apply Fin.ext
  omega

theorem chainbackLabels {decisions : List (List Bool)}
    (chosen : ∀ t < frameBits + 6, (decisions.getD t []).getD (path.state (t + 1)) false = path.taken t) :
    chainback decisions frameBits 0 [] = (labels path).take frameBits := by
  have size : ((labels path).take frameBits).length = frameBits := by rw [length_take_of_le (by rw [labelsLength]; omega)]
  have follows : ∀ t < ((labels path).take frameBits).length,
      (decisions.getD (t + 6) []).getD (stateAt ((labels path).take frameBits) (t + 7)) false =
        leavingAt ((labels path).take frameBits) (t + 6) := by
    intro t inside
    rw [size] at inside
    rw [show t + 7 = t + 1 + 6 from rfl,labelsState ends inside,leavingAt,labelsState ends inside.le,← takenLeaves path (by omega)]
    exact chosen (t + 6) (by omega)
  have last := labelsState ends (le_refl _)
  rw [chainbackPath follows size.ge (by decide) (by rw [last,ends]; rfl),take_of_length_le size.le,append_nil]

end Ends

theorem deconvolveOptimal (frameBits : Nat) (input : List Int) :
    (∃ best : (trellis input).Path (frameBits + 6), best.state (frameBits + 6) = 0 ∧
      labels best = deconvolve frameBits input ++ replicate 6 false ∧
      ∀ path : (trellis input).Path (frameBits + 6), path.state (frameBits + 6) = 0 →
        best.total startMetric (frameBits + 6) ≤ path.total startMetric (frameBits + 6)) ∧
    ∀ t s, s < 64 → 0 ≤ (forward input t).metrics.getD s 0 ∧ (forward input t).metrics.getD s 0 ≤ 1000 + 1020 * t := by
  constructor
  · let best := (trellis input).survivor (frameBits + 6) startMetric 0
    have ends : best.state (frameBits + 6) = 0 := by simp [best,Trellis.survivor,Trellis.traced]
    have decoded : deconvolve frameBits input = (labels best).take frameBits :=
      chainbackLabels ends fun t inside => (forwardTrellis input (frameBits + 6)).2.2 t inside _
    refine ⟨best,ends,by rw [decoded]; exact (labelsTailed ends).symm,fun path last => ?_⟩
    rw [Trellis.survivorTotal (trellis input) (frameBits + 6) startMetric 0 (le_refl _)]
    have least := Trellis.metricLeTotal path startMetric (le_refl _)
    rwa [last,← ends] at least
  · intro t s small
    have starts : ∀ s, 0 ≤ startMetric s ∧ startMetric s ≤ 1000 := by decide
    rw [(forwardTrellis input t).1 ⟨s,small⟩]
    exact Trellis.metricWithin (trellis input) starts (costWithin input) t ⟨s,small⟩

end DabStar.ViterbiOptimal
