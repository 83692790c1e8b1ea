import DabStar.Lib.Trellis

/-! The scalar Viterbi decoder (support/viterbi_spiral/viterbi_spiral.cpp and
viterbi_scalar.h): rate 1/4, constraint length 7. Path metrics are integers without a bound;
the words of decision bits are lists of flags. -/
namespace DabStar.ViterbiSpiral
open List Lib

def branchtable : List Nat :=
  [0,0,255,255,255,255,0,0,0,0,255,255,255,255,0,0,
   255,255,0,0,0,0,255,255,255,255,0,0,0,0,255,255,
   0,255,255,0,255,0,0,255,0,255,255,0,255,0,0,255,
   0,255,255,0,255,0,0,255,0,255,255,0,255,0,0,255,
   0,255,0,255,0,255,0,255,255,0,255,0,255,0,255,0,
   0,255,0,255,0,255,0,255,255,0,255,0,255,0,255,0,
   0,0,255,255,255,255,0,0,0,0,255,255,255,255,0,0,
   255,255,0,0,0,0,255,255,255,255,0,0,0,0,255,255]

def limitMinMax (sample : Int) : Nat :=
  let tmp := (sample + 127 + 32768) % 65536 - 32768
  if tmp < 0 then 0 else if tmp > 255 then 255 else tmp.toNat

def symbols (input : List Int) (t : Nat) : List Nat := (range 4).map (fun j => limitMinMax (input.getD (4 * t + j) 0))

def branchMetric (syms : List Nat) (i : Nat) : Int :=
  ((branchtable.getD i 0 ^^^ syms.getD 0 0) + (branchtable.getD (32 + i) 0 ^^^ syms.getD 1 0) +
    (branchtable.getD (64 + i) 0 ^^^ syms.getD 2 0) + (branchtable.getD (96 + i) 0 ^^^ syms.getD 3 0) : Nat)

def bfly (oldMetrics : List Int) (syms : List Nat) (i : Nat) : (Int × Bool) × (Int × Bool) :=
  let metric := branchMetric syms i
  let mMetric := 1020 - metric
  let m0 := oldMetrics.getD i 0 + metric
  let m1 := oldMetrics.getD (i + 32) 0 + mMetric
  let m2 := oldMetrics.getD i 0 + mMetric
  let m3 := oldMetrics.getD (i + 32) 0 + metric
  let decision0 : Bool := m0 - m1 > 0
  let decision1 : Bool := m2 - m3 > 0
  ((if decision0 then m1 else m0, decision0), (if decision1 then m3 else m2, decision1))

def survivor (oldMetrics : List Int) (syms : List Nat) (s : Nat) : Int × Bool :=
  if s % 2 = 0 then (bfly oldMetrics syms (s / 2)).1 else (bfly oldMetrics syms (s / 2)).2

structure Forward where
  metrics : List Int
  decisions : List (List Bool)
  deriving DecidableEq, Repr

def forwardStart : Forward := ⟨0 :: replicate 63 1000,[]⟩

def forwardStep (input : List Int) (state : Forward) (t : Nat) : Forward :=
  let survivors := (range 64).map (survivor state.metrics (symbols input t))
  ⟨survivors.map Prod.fst,state.decisions ++ [survivors.map Prod.snd]⟩

def forward (input : List Int) (nbits : Nat) : Forward := (range nbits).foldl (forwardStep input) forwardStart

def chainback (decisions : List (List Bool)) : Nat → Nat → List Bool → List Bool
  | 0, _, output => output
  | framebits + 1, endstate, output =>
    let k := (decisions.getD (framebits + 6) []).getD (endstate >>> 2) false
    chainback decisions framebits ((endstate >>> 1) ||| (k.toNat <<< 7)) (k :: output)

def deconvolve (frameBits : Nat) (input : List Int) : List Bool := chainback (forward input (frameBits + 6)).decisions frameBits 0 []

def partab : List Nat :=
  [0,1,1,0,1,0,0,1,1,0,0,1,0,1,1,0,1,0,0,1,0,1,1,0,0,1,1,0,1,0,0,1,
   1,0,0,1,0,1,1,0,0,1,1,0,1,0,0,1,0,1,1,0,1,0,0,1,1,0,0,1,0,1,1,0,
   1,0,0,1,0,1,1,0,0,1,1,0,1,0,0,1,0,1,1,0,1,0,0,1,1,0,0,1,0,1,1,0,
   0,1,1,0,1,0,0,1,1,0,0,1,0,1,1,0,1,0,0,1,0,1,1,0,0,1,1,0,1,0,0,1,
   1,0,0,1,0,1,1,0,0,1,1,0,1,0,0,1,0,1,1,0,1,0,0,1,1,0,0,1,0,1,1,0,
   0,1,1,0,1,0,0,1,1,0,0,1,0,1,1,0,1,0,0,1,0,1,1,0,0,1,1,0,1,0,0,1,
   0,1,1,0,1,0,0,1,1,0,0,1,0,1,1,0,1,0,0,1,0,1,1,0,0,1,1,0,1,0,0,1,
   1,0,0,1,0,1,1,0,0,1,1,0,1,0,0,1,0,1,1,0,1,0,0,1,1,0,0,1,0,1,1,0]

def parity (x : Nat) : Nat :=
  let x := x ^^^ (x >>> 16)
  let x := x ^^^ (x >>> 8)
  partab.getD x 0

def polys : List Nat := [109,79,83,109]

def shift (sr : Nat) (bit : Bool) : Nat := ((sr <<< 1) ||| bit.toNat) &&& 0xff

def registers : Nat → List Bool → List Nat
  | _, [] => []
  | sr, bit :: bits => shift sr bit :: registers (shift sr bit) bits

/- The bits calculate_BER compares the input with: those of the word and of the zeros
that empty the register. -/
def convolve (word : List Bool) : List Bool :=
  (registers 0 (word ++ replicate 6 false)).flatMap (fun sr => polys.map (fun poly => parity (sr &&& poly) = 1))

def codeBit (register j : Nat) : Bool := parity (register &&& polys.getD j 0) = 1

def symCost (bit : Bool) (sym : Nat) : Int := ((if bit then 255 else 0) ^^^ sym : Nat)

def register (s : Fin 64) (d : Bool) : Nat := s + if d then 64 else 0

theorem registerLt (s : Fin 64) (d : Bool) : register s d < 128 := by
  unfold register
  cases d <;> simp <;> omega

def trellis (input : List Int) : Trellis (Fin 64) where
  pred s d := ⟨register s d / 2,by have bound := registerLt s d; omega⟩
  cost t s d := ∑ j ∈ Finset.range 4, symCost (codeBit (register s d) j) (limitMinMax (input.getD (4 * t + j) 0))

theorem limitMinMaxLt (sample : Int) : limitMinMax sample < 256 := by
  unfold limitMinMax
  dsimp only
  split
  · omega
  · split <;> omega

variable (input : List Int)

theorem symbolsGet (t : Nat) {j : Nat} (small : j < 4) : (symbols input t).getD j 0 = limitMinMax (input.getD (4 * t + j) 0) := by
  unfold symbols
  rw [getD_eq_getElem _ _ (by simpa using small)]
  simp

theorem symCostNot (bit : Bool) {sym : Nat} (byte : sym < 256) : symCost (!bit) sym = 255 - symCost bit sym := by
  have flip : ∀ sym < 256, (255 ^^^ sym) + sym = 255 := by decide +kernel
  have sum := flip sym byte
  unfold symCost
  cases bit <;> simp <;> omega

theorem branchtableCode : ∀ j < 4, ∀ i < 32, branchtable.getD (32 * j + i) 0 = if codeBit (2 * i) j then 255 else 0 := by decide

theorem codeBitOldest : ∀ j < 4, ∀ r < 64, codeBit (r + 64) j = !codeBit r j := by decide

theorem codeBitNewest : ∀ j < 4, ∀ i < 64, codeBit (2 * i + 1) j = !codeBit (2 * i) j := by decide

theorem butterflyCode (s : Fin 64) (d : Bool) {j : Nat} (small : j < 4) :
    codeBit (register s d) j = ((s.val % 2 == 1) ^^ d ^^ codeBit (2 * (s.val / 2)) j) := by
  have even : codeBit s j = ((s.val % 2 == 1) ^^ codeBit (2 * (s.val / 2)) j) := by
    rcases Nat.mod_two_eq_zero_or_one s.val with newest | newest
    · have value : s.val = 2 * (s.val / 2) := by omega
      rw [newest,← value]
      simp
    · have value : s.val = 2 * (s.val / 2) + 1 := by omega
      have flipped := codeBitNewest j small (s.val / 2) (by omega)
      rw [← value] at flipped
      rw [newest,flipped]
      simp
  unfold register
  cases d with
  | false => simpa using even
  | true =>
    rw [if_pos rfl,codeBitOldest j small s s.isLt,even]
    cases (s.val % 2 == 1) <;> cases codeBit (2 * (s.val / 2)) j <;> rfl

theorem branchMetricSum (t : Nat) {i : Nat} (small : i < 32) : branchMetric (symbols input t) i =
      ∑ j ∈ Finset.range 4, symCost (codeBit (2 * i) j) (limitMinMax (input.getD (4 * t + j) 0)) := by
  have table : ∀ j < 4, branchtable.getD (32 * j + i) 0 = if codeBit (2 * i) j then 255 else 0 :=
    fun j bound => branchtableCode j bound i small
  have first := table 0 (by decide)
  rw [Nat.mul_zero,Nat.zero_add] at first
  unfold branchMetric
  rw [first,table 1 (by decide),table 2 (by decide),table 3 (by decide)]
  simp only [Finset.sum_range_succ,Finset.sum_range_zero,zero_add,symbolsGet input t (by decide : 0 < 4),
    symbolsGet input t (by decide : 1 < 4),symbolsGet input t (by decide : 2 < 4),
    symbolsGet input t (by decide : 3 < 4),symCost]
  push_cast
  rfl

theorem costButterfly (t : Nat) (s : Fin 64) (d : Bool) : (trellis input).cost t s d =
      if (s.val % 2 == 1) ^^ d then 1020 - branchMetric (symbols input t) (s.val / 2) else branchMetric (symbols input t) (s.val / 2) := by
  rw [branchMetricSum input t (by omega)]
  unfold trellis
  dsimp only
  cases flipped : (s.val % 2 == 1) ^^ d with
  | false =>
    rw [if_neg Bool.false_ne_true]
    refine Finset.sum_congr rfl (fun j inside => ?_)
    rw [butterflyCode s d (Finset.mem_range.mp inside),flipped,Bool.false_xor]
  | true =>
    rw [if_pos rfl]
    have complement : ∀ j ∈ Finset.range 4, symCost (codeBit (register s d) j) (limitMinMax (input.getD (4 * t + j) 0)) =
          255 - symCost (codeBit (2 * (s.val / 2)) j) (limitMinMax (input.getD (4 * t + j) 0)) := by
      intro j inside
      rw [butterflyCode s d (Finset.mem_range.mp inside),flipped,Bool.true_xor,symCostNot _ (limitMinMaxLt _)]
    rw [Finset.sum_congr rfl complement,Finset.sum_sub_distrib]
    simp

theorem selectSurvive (trellis : Trellis (Fin 64)) (metric : Fin 64 → Int) (t : Nat) (s : Fin 64) {m0 m1 : Int}
    (first : trellis.enter metric t s false = m0) (second : trellis.enter metric t s true = m1) :
    ((if (decide (m0 - m1 > 0)) = true then m1 else m0), decide (m0 - m1 > 0)) =
      (trellis.survive metric t s, trellis.decision metric t s) := by
  have chosen : trellis.decision metric t s = decide (m0 - m1 > 0) := by
    unfold Trellis.decision
    rw [first,second,decide_eq_decide]
    omega
  unfold Trellis.survive
  rw [chosen]
  cases decide (m0 - m1 > 0) with
  | false => rw [first]; rfl
  | true => rw [second]; rfl

theorem survivorTrellis {oldMetrics : List Int} {metric : Fin 64 → Int} (t : Nat)
    (same : ∀ s : Fin 64, oldMetrics.getD s 0 = metric s) (s : Fin 64) : survivor oldMetrics (symbols input t) s =
      ((trellis input).survive metric t s, (trellis input).decision metric t s) := by
  have first : (trellis input).enter metric t s false = oldMetrics.getD (s.val / 2) 0 + (trellis input).cost t s false := by
    unfold Trellis.enter
    rw [← same]
    rfl
  have second : (trellis input).enter metric t s true = oldMetrics.getD (s.val / 2 + 32) 0 + (trellis input).cost t s true := by
    have older : ((trellis input).pred s true).val = s.val / 2 + 32 := by
      show (s.val + 64) / 2 = s.val / 2 + 32
      omega
    unfold Trellis.enter
    rw [← same,older]
  rw [costButterfly] at first second
  unfold survivor bfly
  rcases Nat.mod_two_eq_zero_or_one s.val with even | odd
  · rw [even] at first second
    rw [if_pos even]
    exact selectSurvive (trellis input) metric t s first second
  · rw [odd] at first second
    rw [if_neg (by omega)]
    exact selectSurvive (trellis input) metric t s first second

def startMetric (s : Fin 64) : Int := if s = 0 then 0 else 1000

theorem forwardTrellis (nbits : Nat) : (∀ s : Fin 64, (forward input nbits).metrics.getD s 0 = (trellis input).metric startMetric nbits s) ∧
    (forward input nbits).decisions.length = nbits ∧ ∀ t < nbits, ∀ s : Fin 64, ((forward input nbits).decisions.getD t []).getD s false =
      (trellis input).decision ((trellis input).metric startMetric t) t s := by
  induction nbits with
  | zero =>
    refine ⟨?_,rfl,?_⟩
    · show ∀ s : Fin 64, forwardStart.metrics.getD s 0 = startMetric s
      decide
    · intro t impossible
      omega
  | succ nbits ih =>
    obtain ⟨metrics,count,decisions⟩ := ih
    have step : forward input (nbits + 1) = forwardStep input (forward input nbits) nbits := by
      unfold forward
      rw [range_succ,foldl_append]
      rfl
    have survivors : ∀ s : Fin 64, survivor (forward input nbits).metrics (symbols input nbits) s = _ := survivorTrellis input nbits metrics
    rw [step]
    unfold forwardStep
    dsimp only
    refine ⟨?_,?_,?_⟩
    · intro s
      rw [getD_eq_getElem _ _ (by simp)]
      simp only [getElem_map,getElem_range]
      rw [survivors s]
      rfl
    · rw [length_append,count]
      rfl
    · intro t inside s
      rcases Nat.lt_or_ge t nbits with old | new
      · rw [getD_append _ _ _ _ (by omega)]
        exact decisions t old s
      · have last : t = nbits := by omega
        rw [last,getD_append_right _ _ _ _ (by omega),count,Nat.sub_self,getD_cons_zero,getD_eq_getElem _ _ (by simp)]
        simp only [getElem_map,getElem_range]
        rw [survivors s]

end DabStar.ViterbiSpiral
