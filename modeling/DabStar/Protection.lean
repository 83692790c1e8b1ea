import DabStar.Fig0
import DabStar.ProtTables
import DabStar.Lib.Puncture
import DabStar.ViterbiSpiral

/-! The protection handlers (protection/protection.cpp, eep_protection.cpp,
uep_protection.cpp): which positions of the Viterbi block a sub-channel's soft bits go to.
Theorems take the place of the asserts. -/
namespace DabStar
open List Lib ProtTables Puncture

structure Protection where
  bitRate : Nat
  viterbiBlock : List Int
  viterbiBlockAddresses : List Nat
  deriving DecidableEq, Repr

namespace Protection
variable {blocks : List (Int × Nat)}

def newProtection (bitRate : Int) : Option Protection :=
  if bitRate < 0 then none else some ⟨bitRate.toNat,replicate (24 * bitRate.toNat * 4 + 24) 0,[]⟩

def extractViterbiBlockAddresses (acc : Nat × List Nat) (lx : Int) (piX : List Nat) : Nat × List Nat :=
  (range lx.toNat).foldl (fun acc _ =>
    (range 128).foldl (fun acc j => register acc (piX.getD (j % 32) 0 ≠ 0)) acc) acc

def extractTail (acc : Nat × List Nat) : Nat × List Nat := (range 24).foldl (fun acc i => register acc ((getPiCodes 8).getD i 0 ≠ 0)) acc

def extractBlocks (blocks : List (Int × Nat)) : Nat × List Nat :=
  extractTail (blocks.foldl (fun acc b => extractViterbiBlockAddresses acc b.1 (getPiCodes b.2)) (0, []))

def eepBlocks (bitRate : Nat) (protLevel : Int) : List (Int × Nat) :=
  let level := protLevel % 4
  let option := protLevel / 4 % 2
  if option = 0 then
    let n : Int := (bitRate / 8 : Nat)
    if level = 0 then [(6 * n - 3, 24),(3, 23)]
    else if level = 1 then
      if n = 1 then [(5, 13),(1, 12)] else [(2 * n - 3, 14),(4 * n + 3, 13)]
    else if level = 2 then [(6 * n - 3, 8),(3, 7)]
    else [(4 * n - 3, 3),(2 * n + 3, 2)]
  else
    let n : Int := (bitRate / 32 : Nat)
    if level = 0 then [(24 * n - 3, 10),(3, 9)]
    else if level = 1 then [(24 * n - 3, 6),(3, 5)]
    else if level = 2 then [(24 * n - 3, 4),(3, 3)]
    else [(24 * n - 3, 2),(3, 1)]

def eepProtection (bitRate protLevel : Int) : Option Protection :=
  (newProtection bitRate).map (fun p =>
    { p with viterbiBlockAddresses := (extractBlocks (eepBlocks p.bitRate protLevel)).2 })

structure ProtectionProfile where
  bitRate : Int
  protLevel : Int
  l1 : Int
  l2 : Int
  l3 : Int
  l4 : Int
  pi1 : Nat
  pi2 : Nat
  pi3 : Nat
  pi4 : Option Nat
  deriving DecidableEq, Repr

def cProfileTable : List ProtectionProfile :=
  [⟨32,5,3,4,17,0,5,3,2,none⟩,⟨32,4,3,3,18,0,11,6,5,none⟩,⟨32,3,3,4,14,3,15,9,6,some 8⟩,⟨32,2,3,4,14,3,22,13,8,some 13⟩,
   ⟨32,1,3,5,13,3,24,17,12,some 17⟩,⟨48,5,4,3,26,3,5,4,2,some 3⟩,⟨48,4,3,4,26,3,9,6,4,some 6⟩,⟨48,3,3,4,26,3,15,10,6,some 9⟩,
   ⟨48,2,3,4,26,3,24,14,8,some 15⟩,⟨48,1,3,5,25,3,24,18,13,some 18⟩,⟨56,5,6,10,23,3,5,4,2,some 3⟩,⟨56,4,6,10,23,3,9,6,4,some 5⟩,
   ⟨56,3,6,12,21,3,16,7,6,some 9⟩,⟨56,2,6,10,23,3,23,13,8,some 13⟩,⟨64,5,6,9,31,2,5,3,2,some 3⟩,⟨64,4,6,9,33,0,11,6,5,none⟩,
   ⟨64,3,6,12,27,3,16,8,6,some 9⟩,⟨64,2,6,10,29,3,23,13,8,some 13⟩,⟨64,1,6,11,28,3,24,18,12,some 18⟩,⟨80,5,6,10,41,3,6,3,2,some 3⟩,
   ⟨80,4,6,10,41,3,11,6,5,some 6⟩,⟨80,3,6,11,40,3,16,8,6,some 7⟩,⟨80,2,6,10,41,3,23,13,8,some 13⟩,⟨80,1,6,10,41,3,24,7,12,some 18⟩,
   ⟨96,5,7,9,53,3,5,4,2,some 4⟩,⟨96,4,7,10,52,3,9,6,4,some 6⟩,⟨96,3,6,12,51,3,16,9,6,some 10⟩,⟨96,2,6,10,53,3,22,12,9,some 12⟩,
   ⟨96,1,6,13,50,3,24,18,13,some 19⟩,⟨112,5,14,17,50,3,5,4,2,some 5⟩,⟨112,4,11,21,49,3,9,6,4,some 8⟩,⟨112,3,11,23,47,3,16,8,6,some 9⟩,
   ⟨112,2,11,21,49,3,23,12,9,some 14⟩,⟨128,5,12,19,62,3,5,3,2,some 4⟩,⟨128,4,11,21,61,3,11,6,5,some 7⟩,⟨128,3,11,22,60,3,16,9,6,some 10⟩,
   ⟨128,2,11,21,61,3,22,12,9,some 14⟩,⟨128,1,11,20,62,3,24,17,13,some 19⟩,⟨160,5,11,19,87,3,5,4,2,some 4⟩,⟨160,4,11,23,83,3,11,6,5,some 9⟩,
   ⟨160,3,11,24,82,3,16,8,6,some 11⟩,⟨160,2,11,21,85,3,22,11,9,some 13⟩,⟨160,1,11,22,84,3,24,18,12,some 19⟩,⟨192,5,11,20,110,3,6,4,2,some 5⟩,
   ⟨192,4,11,22,108,3,10,6,4,some 9⟩,⟨192,3,11,24,106,3,16,10,6,some 11⟩,⟨192,2,11,20,110,3,22,13,9,some 13⟩,⟨192,1,11,21,109,3,24,20,13,some 24⟩,
   ⟨224,5,12,22,131,3,8,6,2,some 6⟩,⟨224,4,12,26,127,3,12,8,4,some 11⟩,⟨224,3,11,20,134,3,16,10,7,some 9⟩,⟨224,2,11,22,132,3,24,16,10,some 15⟩,
   ⟨224,1,11,24,130,3,24,20,12,some 20⟩,⟨256,5,11,24,154,3,6,5,2,some 5⟩,⟨256,4,11,24,154,3,12,9,5,some 10⟩,⟨256,3,11,27,151,3,16,10,7,some 10⟩,
   ⟨256,2,11,22,156,3,24,14,10,some 13⟩,⟨256,1,11,26,152,3,24,19,14,some 18⟩,⟨320,5,11,26,200,3,8,5,2,some 6⟩,⟨320,4,11,25,201,3,13,9,5,some 10⟩,
   ⟨320,2,11,26,200,3,24,17,9,some 17⟩,⟨384,5,11,27,247,3,8,6,2,some 7⟩,⟨384,3,11,24,250,3,16,9,7,some 10⟩,⟨384,1,12,28,245,3,24,20,14,some 23⟩]

def findIndex (bitRate protLevel : Int) : Option Nat := cProfileTable.findIdx? (fun p => p.bitRate = bitRate ∧ p.protLevel = protLevel)

def uepBlocks (pp : ProtectionProfile) : List (Int × Nat) :=
  [(pp.l1, pp.pi1),(pp.l2, pp.pi2),(pp.l3, pp.pi3)] ++
    match pp.pi4 with
    | some pi4 => [(pp.l4, pi4)]
    | none => []

def uepProfile (bitRate protLevel : Int) : ProtectionProfile :=
  cProfileTable.getD ((findIndex bitRate protLevel).getD 1) ⟨0,-1,-1,-1,-1,-1,0,0,0,none⟩

def uepProtection (bitRate protLevel : Int) : Option Protection :=
  (newProtection bitRate).map (fun p =>
    { p with viterbiBlockAddresses := (extractBlocks (uepBlocks (uepProfile bitRate protLevel))).2 })

def depuncture (p : Protection) (v : Nat → Int) : Protection × Nat :=
  let scattered := scatter v p.viterbiBlockAddresses (p.viterbiBlock, 0)
  ({ p with viterbiBlock := scattered.1 }, scattered.2)

def deconvolve (p : Protection) (v : Nat → Int) : Protection × List Bool :=
  let p := (p.depuncture v).1
  (p, ViterbiSpiral.deconvolve (24 * p.bitRate) p.viterbiBlock)

def after (p : Protection) (calls : List (Nat → Int)) : Protection := calls.foldl (fun p v => (p.deconvolve v).1) p

def profileMask (blocks : List (Int × Nat)) : List Bool :=
  blocks.flatMap (fun b => (replicate b.1.toNat (blockMask (getPiCodes b.2))).flatten) ++ tailMask

theorem extractMask (acc : Nat × List Nat) (lx : Int) (piX : List Nat) :
    extractViterbiBlockAddresses acc lx piX = (replicate lx.toNat (blockMask piX)).flatten.foldl register acc := by
  have round : ∀ acc, (range 128).foldl (fun acc j => register acc (piX.getD (j % 32) 0 ≠ 0)) acc = (blockMask piX).foldl register acc := by
    intro acc
    unfold blockMask
    rw [foldl_map]
  unfold extractViterbiBlockAddresses
  simp only [round]
  induction lx.toNat with
  | zero => rfl
  | succ rounds ih =>
    rw [range_succ,foldl_append,ih,replicate_succ',flatten_append,foldl_append,flatten_singleton,foldl_cons,foldl_nil]

theorem extractBlocksMask (blocks : List (Int × Nat)) :
    extractBlocks blocks = ((profileMask blocks).length, positions 0 (profileMask blocks)) := by
  have all : ∀ acc, blocks.foldl (fun acc b => extractViterbiBlockAddresses acc b.1 (getPiCodes b.2)) acc =
      (blocks.flatMap (fun b => (replicate b.1.toNat (blockMask (getPiCodes b.2))).flatten)).foldl register acc := by
    induction blocks with
    | nil => exact fun _ => rfl
    | cons b blocks ih =>
      intro acc
      rw [foldl_cons,flatMap_cons,foldl_append,ih,extractMask]
  have tail : ∀ acc, extractTail acc = tailMask.foldl register acc := by
    intro acc
    unfold extractTail tailMask
    rw [foldl_map]
  unfold extractBlocks
  rw [tail,all,← foldl_append]
  have registered := registerAll (profileMask blocks) (0, [])
  rw [Nat.zero_add,nil_append] at registered
  exact registered

theorem profileMaskLength (blocks : List (Int × Nat)) : (profileMask blocks).length = 128 * (blocks.map (fun b => b.1.toNat)).sum + 24 := by
  have tail : tailMask.length = 24 := by decide
  unfold profileMask
  rw [length_append,tail]
  congr 1
  induction blocks with
  | nil => rfl
  | cons b blocks ih =>
    rw [flatMap_cons,length_append,ih,map_cons,sum_cons,length_flatten,map_replicate,sum_replicate,blockMaskLength,smul_eq_mul]
    ring

def Numbered (blocks : List (Int × Nat)) : Prop := ∀ b ∈ blocks, 1 ≤ b.2 ∧ b.2 ≤ 24
  deriving Decidable

theorem profileMaskCount (numbered : Numbered blocks) :
    (profileMask blocks).count true = (blocks.map (fun b => b.1.toNat * (4 * (b.2 + 8)))).sum + 12 := by
  unfold profileMask
  rw [count_append,tailMaskCount]
  congr 1
  induction blocks with
  | nil => rfl
  | cons b blocks ih =>
    have number := numbered b mem_cons_self
    have kept := blockMaskCount (b.2 - 1) (by omega)
    rw [show b.2 - 1 + 1 = b.2 by omega,show b.2 - 1 + 9 = b.2 + 8 by omega] at kept
    rw [flatMap_cons,count_append,ih (fun c later => numbered c (mem_cons_of_mem _ later)),
      map_cons,sum_cons,count_flatten,map_replicate,sum_replicate,kept,smul_eq_mul]

def Covers (mask : List Bool) : Prop := ∀ a < mask.length, (getPiCodes 1).getD (a % 32) 0 ≠ 0 → mask.getD a false = true

theorem coversAppend {mask rest : List Bool} (aligned : 32 ∣ mask.length) (first : Covers mask) (second : Covers rest) :
    Covers (mask ++ rest) := by
  intro a inside kept
  rcases Nat.lt_or_ge a mask.length with before | behind
  · rw [getD_append _ _ _ _ before]
    exact first a before kept
  · rw [length_append] at inside
    have phase : (a - mask.length) % 32 = a % 32 := by omega
    rw [getD_append_right _ _ _ _ behind]
    exact second (a - mask.length) (by omega) (by rw [phase]; exact kept)

theorem coversBlock {piCode : Nat} (number : 1 ≤ piCode ∧ piCode ≤ 24) : Covers (blockMask (getPiCodes piCode)) := by
  intro a inside kept
  have nested := piCodesNested (piCode - 1) (by omega) (a % 32) (by omega) kept
  rw [show piCode - 1 + 1 = piCode by omega] at nested
  rw [blockMaskLength] at inside
  rw [blockMaskGet _ inside]
  exact decide_eq_true nested

theorem coversBlocks {piCode : Nat} (number : 1 ≤ piCode ∧ piCode ≤ 24) (rounds : Nat) :
    32 ∣ (replicate rounds (blockMask (getPiCodes piCode))).flatten.length ∧
    Covers (replicate rounds (blockMask (getPiCodes piCode))).flatten := by
  have block := blockMaskLength (getPiCodes piCode)
  induction rounds with
  | zero => exact ⟨⟨0,rfl⟩,fun _ impossible => absurd impossible (Nat.not_lt_zero _)⟩
  | succ rounds ih =>
    rw [replicate_succ,flatten_cons]
    refine ⟨?_,coversAppend (by omega) (coversBlock number) ih.2⟩
    rw [length_append]
    omega

theorem coversProfile (numbered : Numbered blocks) : Covers (profileMask blocks) := by
  have tail : Covers tailMask := by
    unfold Covers
    decide
  have all : 32 ∣ (blocks.flatMap (fun b => (replicate b.1.toNat (blockMask (getPiCodes b.2))).flatten)).length ∧
      Covers (blocks.flatMap (fun b => (replicate b.1.toNat (blockMask (getPiCodes b.2))).flatten)) := by
    induction blocks with
    | nil => exact ⟨⟨0,rfl⟩,fun _ impossible => absurd impossible (Nat.not_lt_zero _)⟩
    | cons b blocks ih =>
      have first := coversBlocks (numbered b mem_cons_self) b.1.toNat
      have rest := ih (fun c later => numbered c (mem_cons_of_mem _ later))
      rw [flatMap_cons]
      refine ⟨?_,coversAppend first.1 first.2 rest.2⟩
      rw [length_append]
      exact dvd_add first.1 rest.1
  exact coversAppend all.1 all.2 tail

structure Depunctures (p : Protection) (viterbiCounter size : Nat) : Prop where
  registered : p.viterbiBlockAddresses.length = 64 * size
  increasing : p.viterbiBlockAddresses.Pairwise (· < ·)
  inside : ∀ a ∈ p.viterbiBlockAddresses, a < p.viterbiBlock.length
  counted : viterbiCounter = 96 * p.bitRate + 24
  blockSize : p.viterbiBlock.length = 96 * p.bitRate + 24
  consumed : ∀ calls v, ((p.after calls).depuncture v).2 = 64 * size
  written : ∀ calls v, ∀ k < 64 * size,
    ((p.after calls).depuncture v).1.viterbiBlock.getD (p.viterbiBlockAddresses.getD k 0) 0 = v k
  silent : ∀ calls a, a ∉ p.viterbiBlockAddresses → (p.after calls).viterbiBlock.getD a 0 = 0

theorem afterKeeps (p : Protection) (calls : List (Nat → Int)) : (p.after calls).bitRate = p.bitRate ∧
    (p.after calls).viterbiBlockAddresses = p.viterbiBlockAddresses ∧ (p.after calls).viterbiBlock.length = p.viterbiBlock.length ∧
    ∀ a ∉ p.viterbiBlockAddresses, (p.after calls).viterbiBlock.getD a 0 = p.viterbiBlock.getD a 0 := by
  induction calls generalizing p with
  | nil => exact ⟨rfl,rfl,rfl,fun _ _ => rfl⟩
  | cons v calls ih =>
    obtain ⟨bitRate,addresses,length,others⟩ := ih (p.deconvolve v).1
    have block := (scatterCount v p.viterbiBlockAddresses (p.viterbiBlock, 0)).2
    refine ⟨bitRate,addresses,length.trans block,?_⟩
    intro a other
    exact (others a other).trans (scatterOther v 0 other _)

theorem afterSnoc (p : Protection) (calls : List (Nat → Int)) (v : Nat → Int) :
    p.after (calls ++ [v]) = ((p.after calls).deconvolve v).1 := foldl_append

theorem deconvolveAgree (p : Protection) (calls others : List (Nat → Int)) {v w : Nat → Int}
    (same : ∀ k < p.viterbiBlockAddresses.length, v k = w k) : ((p.after calls).deconvolve v).2 = ((p.after others).deconvolve w).2 := by
  obtain ⟨rate,addresses,length,outside⟩ := afterKeeps p calls
  obtain ⟨rateToo,addressesToo,lengthToo,outsideToo⟩ := afterKeeps p others
  have block : (scatter v (p.after calls).viterbiBlockAddresses ((p.after calls).viterbiBlock, 0)).1 =
      (scatter w (p.after others).viterbiBlockAddresses ((p.after others).viterbiBlock, 0)).1 := by
    rw [addresses,addressesToo]
    refine scatterAgree 0 (length.trans lengthToo.symm) rfl ?_ ?_
    · intro a other
      exact (outside a other).trans (outsideToo a other).symm
    · intro k small
      rw [Nat.zero_add]
      exact same k small
  unfold deconvolve depuncture
  dsimp only
  rw [block,rate,rateToo]

def ofBlocks (bitRate : Nat) (blocks : List (Int × Nat)) : Protection :=
  ⟨bitRate,replicate (24 * bitRate * 4 + 24) 0,(extractBlocks blocks).2⟩

theorem newProtectionNat (bitRate : Nat) : newProtection bitRate = some ⟨bitRate,replicate (24 * bitRate * 4 + 24) 0,[]⟩ := by
  unfold newProtection
  rw [if_neg (not_lt.mpr (Int.natCast_nonneg _)),Int.toNat_natCast]

theorem eepOfBlocks (bitRate : Nat) (protLevel : Int) :
    eepProtection bitRate protLevel = some (ofBlocks bitRate (eepBlocks bitRate protLevel)) := by
  unfold eepProtection
  rw [newProtectionNat]
  rfl

theorem uepOfBlocks (bitRate : Nat) (protLevel : Int) :
    uepProtection bitRate protLevel = some (ofBlocks bitRate (uepBlocks (uepProfile bitRate protLevel))) := by
  unfold uepProtection
  rw [newProtectionNat]
  rfl

def Fills (bitRate : Nat) (blocks : List (Int × Nat)) : Prop := Numbered blocks ∧ 4 * (blocks.map (fun b => b.1.toNat)).sum = 3 * bitRate

def kept (blocks : List (Int × Nat)) : Nat := (blocks.map (fun b => b.1.toNat * (4 * (b.2 + 8)))).sum + 12

theorem ofBlocksRegistered (numbered : Numbered blocks) (bitRate : Nat) :
    (ofBlocks bitRate blocks).viterbiBlockAddresses.length = kept blocks := by
  unfold ofBlocks
  rw [extractBlocksMask,positionsLength,profileMaskCount numbered]
  rfl

theorem ofBlocksInside {bitRate : Nat} (fills : Fills bitRate blocks) :
    ∀ a ∈ (ofBlocks bitRate blocks).viterbiBlockAddresses, a < (ofBlocks bitRate blocks).viterbiBlock.length := by
  have filled := fills.2
  intro a registered
  unfold ofBlocks at registered ⊢
  rw [extractBlocksMask] at registered
  have bound := positionsInside registered
  rw [profileMaskLength] at bound
  rw [length_replicate]
  omega

theorem ofBlocksDepunctures {bitRate size : Nat} (fills : Fills bitRate blocks) (enough : kept blocks = 64 * size) :
    Depunctures (ofBlocks bitRate blocks) (extractBlocks blocks).1 size := by
  have filled := fills.2
  have registered : (ofBlocks bitRate blocks).viterbiBlockAddresses.length = 64 * size := (ofBlocksRegistered fills.1 bitRate).trans enough
  have increasing : (ofBlocks bitRate blocks).viterbiBlockAddresses.Pairwise (· < ·) := by
    unfold ofBlocks
    rw [extractBlocksMask]
    exact positionsIncreasing 0 _
  have inside := ofBlocksInside fills
  refine ⟨registered,increasing,inside,?_,?_,?_,?_,?_⟩
  · rw [extractBlocksMask,profileMaskLength]
    show _ = 96 * bitRate + 24
    omega
  · show (replicate (24 * bitRate * 4 + 24) (0 : Int)).length = 96 * bitRate + 24
    rw [length_replicate]
    omega
  · intro calls v
    obtain ⟨_,addresses,_,_⟩ := afterKeeps (ofBlocks bitRate blocks) calls
    unfold depuncture
    dsimp only
    rw [(scatterCount _ _ _).1,addresses,registered,Nat.zero_add]
  · intro calls v k small
    obtain ⟨_,addresses,length,_⟩ := afterKeeps (ofBlocks bitRate blocks) calls
    unfold depuncture
    dsimp only
    rw [addresses]
    have written := scatterWritten v 0 increasing (((ofBlocks bitRate blocks).after calls).viterbiBlock, 0)
      (by rw [length]; exact inside) (by rw [registered]; exact small)
    rwa [Nat.zero_add] at written
  · intro calls a other
    obtain ⟨_,_,_,others⟩ := afterKeeps (ofBlocks bitRate blocks) calls
    rw [others a other]
    unfold ofBlocks
    simp

theorem eepBlocksA {n level : Nat} (positive : 1 ≤ n) (small : level < 4) : Fills (8 * n) (eepBlocks (8 * n) level) ∧
    kept (eepBlocks (8 * n) level) = 64 * (n * Fib.FibDecoder.optionATable.getD level 0) := by
  have rate : (8 * n) / 8 = n := by omega
  unfold Fills Numbered kept eepBlocks Fib.FibDecoder.optionATable
  rw [rate]
  interval_cases level
  · simp
    omega
  · by_cases single : n = 1
    · subst single
      decide
    · have several : (n : Int) ≠ 1 := by omega
      simp [several]
      omega
  · simp
    omega
  · simp
    omega

theorem eepBlocksB {n level : Nat} (positive : 1 ≤ n) (small : level < 4) : Fills (32 * n) (eepBlocks (32 * n) (level + 4)) ∧
    kept (eepBlocks (32 * n) (level + 4)) = 64 * (n * Fib.FibDecoder.optionBTable.getD level 0) := by
  have rate : (32 * n) / 32 = n := by omega
  unfold Fills Numbered kept eepBlocks Fib.FibDecoder.optionBTable
  rw [rate]
  interval_cases level
  all_goals
    simp
    omega

theorem eepDepunctures (n level : Nat) (positive : 1 ≤ n) (small : level < 4) :
    (∃ p, eepProtection (8 * n : Nat) level = some p ∧ p.bitRate = 8 * n ∧
      Depunctures p (extractBlocks (eepBlocks (8 * n) level)).1 (n * Fib.FibDecoder.optionATable.getD level 0)) ∧
    (∃ p, eepProtection (32 * n : Nat) (level + 4) = some p ∧ p.bitRate = 32 * n ∧
      Depunctures p (extractBlocks (eepBlocks (32 * n) (level + 4))).1 (n * Fib.FibDecoder.optionBTable.getD level 0)) := by
  obtain ⟨fillsA,enoughA⟩ := eepBlocksA positive small
  obtain ⟨fillsB,enoughB⟩ := eepBlocksB positive small
  exact ⟨⟨_,eepOfBlocks _ _,rfl,ofBlocksDepunctures fillsA enoughA⟩,⟨_,eepOfBlocks _ _,rfl,ofBlocksDepunctures fillsB enoughB⟩⟩

theorem eepDepuncturesSmallest : ∃ p, eepProtection (8 * 1 : Nat) (1 : Nat) = some p ∧ p.bitRate = 8 * 1 ∧
    Depunctures p (extractBlocks (eepBlocks (8 * 1) (1 : Nat))).1 (1 * Fib.FibDecoder.optionATable.getD 1 0) :=
  (eepDepunctures 1 1 (by decide) (by decide)).1

end Protection
end DabStar
