import Mathlib

/-! Add-compare-select over a trellis in which a state is entered from two predecessors. The
survivor of a state is a path of least cost; where the rivals of a path stay behind at each
step, the survivor is the path itself. -/
namespace DabStar.Lib

structure Trellis (σ : Type) where
  pred : σ → Bool → σ
  cost : Nat → σ → Bool → Int

namespace Trellis
variable {t : Nat}

variable {σ : Type} (trellis : Trellis σ)

def enter (metric : σ → Int) (t : Nat) (s : σ) (d : Bool) : Int := metric (trellis.pred s d) + trellis.cost t s d

def decision (metric : σ → Int) (t : Nat) (s : σ) : Bool := trellis.enter metric t s true < trellis.enter metric t s false

def survive (metric : σ → Int) (t : Nat) (s : σ) : Int := trellis.enter metric t s (trellis.decision metric t s)

def metric (start : σ → Int) : Nat → σ → Int
  | 0 => start
  | t + 1 => trellis.survive (metric start t) t

structure Path (steps : Nat) where
  state : Nat → σ
  taken : Nat → Bool
  back : ∀ t < steps, trellis.pred (state (t + 1)) (taken t) = state t

variable {trellis} {steps : Nat}

def Path.excess (path : trellis.Path steps) (t : Nat) (s : σ) (d : Bool) : Int :=
  trellis.cost t s d - trellis.cost t (path.state (t + 1)) (path.taken t)

structure Lead (path : trellis.Path steps) (start : σ → Int) where
  lead : Nat → σ → Int
  initial : ∀ s, start (path.state 0) + lead 0 s ≤ start s
  kept : ∀ t < steps, ∀ s d, lead (t + 1) s ≤ lead t (trellis.pred s d) + path.excess t s d
  rival : ∀ t < steps, 0 < lead t (trellis.pred (path.state (t + 1)) (!path.taken t)) +
    path.excess t (path.state (t + 1)) (!path.taken t)

theorem surviveLe (trellis : Trellis σ) (metric : σ → Int) (t : Nat) (s : σ) (d : Bool) :
    trellis.survive metric t s ≤ trellis.enter metric t s d := by
  unfold survive
  cases chosen : trellis.decision metric t s with
  | false =>
    have first := of_decide_eq_false chosen
    cases d
    · exact le_refl _
    · exact not_lt.mp first
  | true =>
    have second := of_decide_eq_true chosen
    cases d
    · exact le_of_lt second
    · exact le_refl _

theorem enterTaken (path : trellis.Path steps) (metric : σ → Int) (inside : t < steps) :
    trellis.enter metric t (path.state (t + 1)) (path.taken t) =
      metric (path.state t) + trellis.cost t (path.state (t + 1)) (path.taken t) := by
  unfold enter
  rw [path.back t inside]

theorem metricLead {path : trellis.Path steps} {start : σ → Int} (lead : Lead path start) (inside : t ≤ steps) (s : σ) :
    trellis.metric start t (path.state t) + lead.lead t s ≤ trellis.metric start t s := by
  induction t generalizing s with
  | zero => exact lead.initial s
  | succ t ih =>
    have own := surviveLe trellis (trellis.metric start t) t (path.state (t + 1)) (path.taken t)
    rw [enterTaken path _ inside] at own
    have before := ih (Nat.le_of_succ_le inside)
      (trellis.pred s (trellis.decision (trellis.metric start t) t s))
    have step := lead.kept t inside s (trellis.decision (trellis.metric start t) t s)
    unfold Path.excess at step
    simp only [metric]
    unfold survive enter at own ⊢
    omega

theorem decisionTaken {path : trellis.Path steps} {start : σ → Int} (lead : Lead path start) (inside : t < steps) :
    trellis.decision (trellis.metric start t) t (path.state (t + 1)) = path.taken t := by
  have own := enterTaken path (trellis.metric start t) inside
  have other := metricLead lead (le_of_lt inside) (trellis.pred (path.state (t + 1)) (!path.taken t))
  have rival := lead.rival t inside
  unfold Path.excess at rival
  unfold decision
  unfold enter at own ⊢
  cases taken : path.taken t with
  | false =>
    rw [taken,Bool.not_false] at other rival
    rw [taken] at own
    rw [decide_eq_false_iff_not]
    omega
  | true =>
    rw [taken,Bool.not_true] at other rival
    rw [taken] at own
    rw [decide_eq_true_eq]
    omega

def Path.total (path : trellis.Path steps) (start : σ → Int) (t : Nat) : Int :=
  start (path.state 0) + ∑ k ∈ Finset.range t, trellis.cost k (path.state (k + 1)) (path.taken k)

theorem metricLeTotal (path : trellis.Path steps) (start : σ → Int) (inside : t ≤ steps) :
    trellis.metric start t (path.state t) ≤ path.total start t := by
  induction t with
  | zero => simp [Path.total,metric]
  | succ t ih =>
    have best := surviveLe trellis (trellis.metric start t) t (path.state (t + 1)) (path.taken t)
    rw [enterTaken path _ inside] at best
    have before := ih (Nat.le_of_succ_le inside)
    unfold Path.total at before ⊢
    rw [Finset.sum_range_succ,← add_assoc]
    exact best.trans (Int.add_le_add_right before _)

section Survivor
variable (trellis) (start : σ → Int) (steps) (last : σ)

/- The states the decisions lead back to, from the last one on. -/
def traced : Nat → σ
  | 0 => last
  | k + 1 => trellis.pred (traced k) (trellis.decision (trellis.metric start (steps - (k + 1))) (steps - (k + 1)) (traced k))

def survivor : trellis.Path steps where
  state t := trellis.traced steps start last (steps - t)
  taken t := trellis.decision (trellis.metric start t) t (trellis.traced steps start last (steps - (t + 1)))
  back := by
    intro t inside
    have later : steps - t = steps - (t + 1) + 1 := by omega
    have now : steps - (steps - (t + 1) + 1) = t := by omega
    rw [later,traced,now]

theorem survivorTotal (inside : t ≤ steps) : (trellis.survivor steps start last).total start t =
    trellis.metric start t ((trellis.survivor steps start last).state t) := by
  induction t with
  | zero => simp [Path.total,metric]
  | succ t ih =>
    have before := ih (Nat.le_of_succ_le inside)
    unfold Path.total at before ⊢
    rw [Finset.sum_range_succ,← add_assoc,before]
    exact (enterTaken (trellis.survivor steps start last) (trellis.metric start t) inside).symm

end Survivor

theorem metricWithin (trellis : Trellis σ) {start : σ → Int} {least most : Int} (starts : ∀ s, 0 ≤ start s ∧ start s ≤ least)
    (costs : ∀ t s d, 0 ≤ trellis.cost t s d ∧ trellis.cost t s d ≤ most) (t : Nat) (s : σ) :
    0 ≤ trellis.metric start t s ∧ trellis.metric start t s ≤ least + most * t := by
  induction t generalizing s with
  | zero => simpa [metric] using starts s
  | succ t ih =>
    have before := ih (trellis.pred s (trellis.decision (trellis.metric start t) t s))
    have cost := costs t s (trellis.decision (trellis.metric start t) t s)
    simp only [metric,survive,enter]
    push_cast
    rw [mul_add,mul_one]
    omega

end Trellis
end DabStar.Lib
