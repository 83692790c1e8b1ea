import DabStar.Multiplex
import DabStar.Protection

/-! From a stored description to its protection handler (backend/backend_deconvolver.cpp): when
the handler exists, stays inside its block and takes soft bits from every capacity unit of the
sub-channel. -/
namespace DabStar.SubChannel
open Fib Fib.FibDecoder Fib.Multiplex Protection
variable {e : Fig0s1}

def backendDeconvolver (shortForm : Bool) (bitRate protLevel : Int) : Option Protection :=
  if shortForm then uepProtection bitRate protLevel else eepProtection bitRate protLevel

def handler (e : Fig0s1) : Option Protection := backendDeconvolver e.shortForm e.bitRate e.protectionLevel

def FindsProfile (e : Fig0s1) : Prop :=
  if e.shortForm then (findIndex e.bitRate e.protectionLevel).isSome = true else e.option = e.protectionLevel / 4 % 2

def Inside (p : Protection) : Prop := ∀ a ∈ p.viterbiBlockAddresses, a < p.viterbiBlock.length

def UsesUnits (p : Protection) (size : Int) : Prop :=
  p.viterbiBlockAddresses.length ≤ 64 * size ∧ 64 * (size - 1) < p.viterbiBlockAddresses.length

structure Decodable (e : Fig0s1) : Prop where
  rate : 0 < e.bitRate
  profile : FindsProfile e
  built : ∃ p, handler e = some p ∧ Inside p ∧ UsesUnits p e.subChannelSize

def Supported (d : Bits) (bitOffset : Nat) : Prop :=
  if getBits1 d (bitOffset + 16) = 0 then getBits6 d (bitOffset + 18) ≠ 23
  else
    let option := getBits3 d (bitOffset + 17)
    let level := getBits2 d (bitOffset + 20)
    let size := getBits d (bitOffset + 22) 10
    0 < size ∧ ((option = 0 ∧ optionATable.getD level 1 ∣ size) ∨ (option = 1 ∧ optionBTable.getD level 1 ∣ size))

instance (bitRate blocks) : Decidable (Fills bitRate blocks) := by unfold Fills; infer_instance

/- All 64 short forms have a profile that fills the block and stays within the
sub-channel; only that of index 23 leaves capacity units unused. -/
theorem shortForms : ∀ index < 64, let entry := cProtLevelTable.getD index ⟨0,0,0⟩
    let blocks := uepBlocks (uepProfile entry.bitRate entry.protLevel)
    0 < entry.bitRate ∧ (findIndex entry.bitRate entry.protLevel).isSome ∧ Fills entry.bitRate blocks ∧
      kept blocks ≤ 64 * entry.cuSize ∧ (64 * entry.cuSize < kept blocks + 64 ↔ index ≠ 23) := by decide

theorem shortDecodable (index : Nat) (small : index < 64) (short : e.shortForm = true)
    (described : e.bitRate = (cProtLevelTable.getD index ⟨0,0,0⟩).bitRate ∧
      e.protectionLevel = (cProtLevelTable.getD index ⟨0,0,0⟩).protLevel ∧
      e.subChannelSize = (cProtLevelTable.getD index ⟨0,0,0⟩).cuSize) : Decodable e ↔ index ≠ 23 := by
  obtain ⟨rate,found,fills,most,all⟩ := shortForms index small
  obtain ⟨bitRate,protLevel,cuSize⟩ := described
  have built : handler e = some (ofBlocks (cProtLevelTable.getD index ⟨0,0,0⟩).bitRate
      (uepBlocks (uepProfile (cProtLevelTable.getD index ⟨0,0,0⟩).bitRate
        (cProtLevelTable.getD index ⟨0,0,0⟩).protLevel))) := by
    unfold handler backendDeconvolver
    rw [if_pos short,bitRate,protLevel]
    exact uepOfBlocks _ _
  have count := ofBlocksRegistered fills.1 (cProtLevelTable.getD index ⟨0,0,0⟩).bitRate
  rw [← all]
  constructor
  · intro decodable
    obtain ⟨p,same,_,_,uses⟩ := decodable.built
    rw [built] at same
    rw [← Option.some.inj same,count,cuSize] at uses
    omega
  · intro uses
    refine ⟨by rw [bitRate]; exact Int.natCast_pos.mpr rate,?_,_,built,ofBlocksInside fills,?_,?_⟩
    · unfold FindsProfile
      rw [if_pos short,bitRate,protLevel]
      exact found
    · rw [count,cuSize]
      exact_mod_cast most
    · rw [count,cuSize]
      omega

/- A long form with n whole units of its profile: with a rest some capacity unit stays
unused, with no unit there is no bit rate. -/
theorem longDecodable {size unit times : Nat} (long : e.shortForm = false) (option : e.option = e.protectionLevel / 4 % 2)
    (rate : e.bitRate = size / unit * times) (sized : e.subChannelSize = size) (unitPositive : 0 < unit) (often : 0 < times)
    (profile : ∀ {n}, 1 ≤ n → Fills (times * n) (eepBlocks (times * n : Nat) e.protectionLevel) ∧
      kept (eepBlocks (times * n : Nat) e.protectionLevel) = 64 * (n * unit)) : Decodable e ↔ 0 < size ∧ unit ∣ size := by
  replace rate : e.bitRate = (times * (size / unit) : Nat) := by
    rw [rate]
    push_cast
    ring
  have rated : 0 < times * (size / unit) ↔ 1 ≤ size / unit := Nat.mul_pos_iff_of_pos_left often
  replace profile := @profile (size / unit)
  generalize times * (size / unit) = bitRate at rate rated profile
  have built : handler e = some (ofBlocks bitRate (eepBlocks bitRate e.protectionLevel)) := by
    unfold handler backendDeconvolver
    rw [if_neg (by rw [long]; exact Bool.false_ne_true),rate]
    exact eepOfBlocks _ _
  have split := Nat.div_add_mod size unit
  rw [Nat.mul_comm] at split
  constructor
  · intro decodable
    have positive := decodable.rate
    rw [rate,Int.natCast_pos,rated] at positive
    obtain ⟨fills,enough⟩ := profile positive
    obtain ⟨p,same,_,_,uses⟩ := decodable.built
    rw [built] at same
    rw [← Option.some.inj same,ofBlocksRegistered fills.1,enough,sized] at uses
    have units : 0 < size / unit * unit := Nat.mul_pos positive unitPositive
    exact ⟨by omega,Nat.dvd_of_mod_eq_zero (by omega)⟩
  · rintro ⟨positive,whole⟩
    have units : 1 ≤ size / unit := Nat.div_pos (Nat.le_of_dvd positive whole) unitPositive
    have exactly := Nat.div_mul_cancel whole
    obtain ⟨fills,enough⟩ := profile units
    have count := ofBlocksRegistered fills.1 bitRate
    refine ⟨by rw [rate]; exact Int.natCast_pos.mpr (rated.mpr units),?_,_,built,ofBlocksInside fills,?_,?_⟩
    · unfold FindsProfile
      rw [if_neg (by rw [long]; exact Bool.false_ne_true)]
      exact option
    · rw [count,enough,sized,exactly]
      push_cast
      exact le_refl _
    · rw [count,enough,sized,exactly]
      push_cast
      omega

theorem unitA : ∀ level < 4, 0 < optionATable.getD level 1 ∧ optionATable.getD level 0 = optionATable.getD level 1 := by decide

theorem unitB : ∀ level < 4, 0 < optionBTable.getD level 1 ∧ optionBTable.getD level 0 = optionBTable.getD level 1 := by decide

theorem readDecodable (d : Bits) (bitOffset : Nat) : Decodable (readFig0s1 d bitOffset) ↔ Supported d bitOffset := by
  have level : getBits2 d (bitOffset + 20) < 4 := getBitsLt d (bitOffset + 20) 2
  unfold Supported readFig0s1
  dsimp only
  split
  · exact shortDecodable (getBits6 d (bitOffset + 18)) (getBitsLt d (bitOffset + 18) 6) rfl ⟨rfl,rfl,rfl⟩
  · split
    · rename_i optionA
      refine (longDecodable rfl (by dsimp only; omega) rfl rfl (unitA _ level).1 (by decide)
        fun units => (unitA _ level).2 ▸ eepBlocksA units level).trans ?_
      simp [optionA]
    · split
      · rename_i optionB
        refine (longDecodable rfl (by dsimp only; omega) rfl rfl (unitB _ level).1 (by decide)
          fun units => (unitB _ level).2 ▸ eepBlocksB units level).trans ?_
        simp [optionB]
      · rename_i notA notB
        constructor
        · intro decodable
          -- an option that is not supported leaves the bit rate unset
          have unset : (0 : Int) < -1 := decodable.rate
          omega
        · rintro ⟨_,⟨optionA,_⟩ | ⟨optionB,_⟩⟩
          · exact absurd optionA notA
          · exact absurd optionB notB

theorem readFills {d : Bits} {bitOffset : Nat} (rated : 0 < (readFig0s1 d bitOffset).bitRate) :
    ∃ (rate : Nat) (blocks : List (Int × Nat)), (readFig0s1 d bitOffset).bitRate = rate ∧
      handler (readFig0s1 d bitOffset) = some (ofBlocks rate blocks) ∧ Fills rate blocks ∧
      kept blocks ≤ 64 * (readFig0s1 d bitOffset).subChannelSize := by
  have level : getBits2 d (bitOffset + 20) < 4 := getBitsLt d (bitOffset + 20) 2
  have rateA : ∀ size unit : Nat, (size : Int) / unit * 8 = (8 * (size / unit) : Nat) := fun _ _ => by push_cast; ring
  have rateB : ∀ size unit : Nat, (size : Int) / unit * 32 = (32 * (size / unit) : Nat) := fun _ _ => by push_cast; ring
  revert rated
  unfold readFig0s1 handler backendDeconvolver
  generalize getBits2 d (bitOffset + 20) = protLevel at level
  generalize getBits d (bitOffset + 22) 10 = size
  dsimp only
  split
  · intro _
    obtain ⟨_,_,fills,most,_⟩ := shortForms (getBits6 d (bitOffset + 18)) (getBitsLt d (bitOffset + 18) 6)
    exact ⟨_,_,rfl,uepOfBlocks _ _,fills,by dsimp only; exact_mod_cast most⟩
  · split
    · intro rated
      dsimp only at rated ⊢
      rw [rateA] at rated ⊢
      obtain ⟨fills,enough⟩ := eepBlocksA (n := size / optionATable.getD protLevel 1) (by omega) level
      have whole := Nat.div_mul_le_self size (optionATable.getD protLevel 1)
      rw [(unitA _ level).2] at enough
      exact ⟨_,_,rfl,eepOfBlocks _ _,fills,by rw [enough]; omega⟩
    · split
      · intro rated
        dsimp only at rated ⊢
        rw [rateB] at rated ⊢
        obtain ⟨fills,enough⟩ := eepBlocksB (n := size / optionBTable.getD protLevel 1) (by omega) level
        have whole := Nat.div_mul_le_self size (optionBTable.getD protLevel 1)
        rw [(unitB _ level).2] at enough
        exact ⟨_,_,rfl,eepOfBlocks _ _,fills,by rw [enough]; omega⟩
      · intro rated
        have unset : (0 : Int) < -1 := rated
        omega

theorem handlerWithin {d : Bits} {bitOffset : Nat} {p : Protection} (built : handler (readFig0s1 d bitOffset) = some p)
    (rated : 0 < (readFig0s1 d bitOffset).bitRate) :
    (p.viterbiBlockAddresses.length : Int) ≤ 64 * (readFig0s1 d bitOffset).subChannelSize := by
  obtain ⟨rate,blocks,-,handled,fills,most⟩ := readFills rated
  obtain rfl := Option.some.inj (handled.symm.trans built)
  rwa [ofBlocksRegistered fills.1]

theorem storedDecodable (toQString : Nat → List Nat → List Nat) (events : List Event) : Both Described (run toQString {} events) ∧
    ∀ d bitOffset, Decodable (readFig0s1 d bitOffset) ↔ Supported d bitOffset :=
  ⟨runFromStart describedKept toQString events,readDecodable⟩

def wastefulFib : Bits := fibOf [0x04,0x01,0x04,0x00,0x17,0xFF]

theorem wastefulStored : ∃ e ∈ (run plainText {} [.fib wastefulFib]).fig0Curr.fig0s1Vec, ¬ Decodable e := by
  refine ⟨readFig0s1 wastefulFib 16,by decide,?_⟩
  rw [readDecodable]
  unfold Supported
  decide

end DabStar.SubChannel
