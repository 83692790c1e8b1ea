import DabStar.XmlReader

/-! Opening an XML file and jumping in it. The header is read until five hundred zeros have
come one after the other; a jump goes to a multiple of 24 counted from the begin of the file.
-/
namespace DabStar

namespace XmlDescriptor

section Scan

structure Scan where
  zeroCount : Nat
  xmlText : List U8
  deriving DecidableEq, Repr

def fgetc (file : List U8) (position : Nat) : U8 := file.getD position 0xFF#8

def scanChar (file : List U8) (s : Scan) : Scan :=
  let theChar := fgetc file s.xmlText.length
  ⟨if theChar = 0#8 then s.zeroCount + 1 else 0,s.xmlText ++ [theChar]⟩

def scan (file : List U8) : Nat → Scan
  | 0 => ⟨0,[]⟩
  | n + 1 => if (scan file n).zeroCount < 500 then scanChar file (scan file n) else scan file n

def Ended (s : Scan) : Prop := ¬ s.zeroCount < 500
  deriving Decidable

def ZerosAt (file : List U8) (i : Nat) : Prop := i + 500 ≤ file.length ∧ ∀ j < 500, fgetc file (i + j) = 0#8

variable {file : List U8}

theorem zeroInside {i : Nat} (zero : fgetc file i = 0#8) : i < file.length := by
  by_contra behind
  rw [fgetc,List.getD_eq_default _ _ (by omega)] at zero
  revert zero
  decide

theorem scanZeros (file : List U8) (n : Nat) : (scan file n).zeroCount ≤ (scan file n).xmlText.length ∧ (scan file n).zeroCount ≤ 500 ∧
    ∀ j < (scan file n).zeroCount, fgetc file ((scan file n).xmlText.length - 1 - j) = 0#8 := by
  induction n with
  | zero => exact ⟨le_refl 0,Nat.zero_le _,fun j none => absurd none (Nat.not_lt_zero j)⟩
  | succ n ih =>
    rw [scan]
    split
    · rename_i more
      obtain ⟨few,most,zeros⟩ := ih
      rw [scanChar]
      dsimp only
      rw [List.length_append,List.length_singleton]
      split
      · rename_i zero
        refine ⟨by omega,by omega,fun j counted => ?_⟩
        cases j with
        | zero => exact zero
        | succ j =>
          have before := zeros j (by omega)
          rwa [show (scan file n).xmlText.length + 1 - 1 - (j + 1) = (scan file n).xmlText.length - 1 - j by omega]
      · exact ⟨Nat.zero_le _,Nat.zero_le _,fun j none => absurd none (Nat.not_lt_zero j)⟩
    · exact ih

theorem scanLength (file : List U8) (n : Nat) : (scan file n).xmlText.length ≤ n ∧ (¬ Ended (scan file n) → (scan file n).xmlText.length = n) := by
  induction n with
  | zero => exact ⟨le_refl 0,fun _ => rfl⟩
  | succ n ih =>
    obtain ⟨bounded,running⟩ := ih
    rw [scan]
    split
    · rename_i more
      have length := running (fun ended => ended more)
      rw [scanChar,List.length_append,List.length_singleton]
      exact ⟨by omega,fun _ => by omega⟩
    · rename_i ended
      exact ⟨by omega,fun running => absurd ended running⟩

theorem scanCounts {i : Nat} (zeros : ZerosAt file i) (j : Nat) (inside : j ≤ 500) :
    Ended (scan file (i + j)) ∨ j ≤ (scan file (i + j)).zeroCount := by
  induction j with
  | zero => exact .inr (Nat.zero_le _)
  | succ j ih =>
    by_cases ended : Ended (scan file (i + j))
    · left
      rw [← Nat.add_assoc,scan,if_neg ended]
      exact ended
    · right
      have counted := (ih (by omega)).resolve_left ended
      have length := (scanLength file (i + j)).2 ended
      have zero := zeros.2 j (by omega)
      rw [← Nat.add_assoc,scan,if_pos (not_not.mp ended),scanChar,length]
      dsimp only
      rw [if_pos zero]
      omega

theorem scanEnds (file : List U8) (c : Nat) :
    (∃ n ≤ file.length + c, Ended (scan file n) ∧ (scan file n).xmlText.length ≤ file.length + c) ↔ ∃ i, ZerosAt file i := by
  constructor
  · rintro ⟨n,-,ended,-⟩
    obtain ⟨few,most,zeros⟩ := scanZeros file n
    have all : (scan file n).zeroCount = 500 := by
      unfold Ended at ended
      omega
    rw [all] at few zeros
    have last := zeroInside (zeros 0 (by decide))
    refine ⟨(scan file n).xmlText.length - 500,by omega,fun j inside => ?_⟩
    have zero := zeros (499 - j) (by omega)
    rwa [show (scan file n).xmlText.length - 1 - (499 - j) = (scan file n).xmlText.length - 500 + j by omega] at zero
  · rintro ⟨i,zeros⟩
    have bounded := (scanLength file (i + 500)).1
    have inside := zeros.1
    refine ⟨i + 500,by omega,?_,by omega⟩
    rcases scanCounts zeros 500 (le_refl _) with ended | counted
    · exact ended
    · exact fun more => absurd counted (by omega)

theorem emptyFileNeverEnds : ¬ ∃ n, Ended (scan [] n) := by
  rintro ⟨n,ended⟩
  obtain ⟨-,-,zeros⟩ := scanZeros [] n
  have some : 0 < (scan [] n).zeroCount := by
    unfold Ended at ended
    omega
  exact absurd (zeroInside (zeros 0 some)) (Nat.not_lt_zero _)

end Scan

end XmlDescriptor

namespace XmlFileReader
open XmlReader

section Seek

def startPoint (container : Container) (mFileLength nrElements : Int) : Int :=
  let startPoint := toI32 (mFileLength - nrElements * width container)
  if startPoint < 2048 ∨ startPoint > 1000000 then 2048 else startPoint

def product (a b : Int) : Option Int := if -2 ^ 63 ≤ a * b ∧ a * b < 2 ^ 63 then some (a * b) else none

def seekPosition (startPoint mFileLength samplesToRead iPerMill : Int) : Option Int := do
  let scaled ← product samplesToRead iPerMill
  let mSetNewFilePos := scaled.tdiv 1000
  let behind ← product (mFileLength - startPoint) mSetNewFilePos
  let pos := startPoint + behind.tdiv samplesToRead
  some (pos - pos.tmod 24)

def bytesPerSample (container : Container) (elements : Nat) : Int := elements * width container

def InStep (startPoint mFileLength samplesToRead iPerMill bytes : Int) : Prop :=
  ∃ pos, seekPosition startPoint mFileLength samplesToRead iPerMill = some pos ∧
    startPoint ≤ pos ∧ pos ≤ mFileLength ∧ (pos - startPoint) % bytes = 0

def place (startPoint mFileLength samplesToRead iPerMill : Int) : Int :=
  startPoint + (mFileLength - startPoint) * (samplesToRead * iPerMill / 1000) / samplesToRead

variable {start length samples perMill : Int}

theorem placeInside (begins : start ≤ length) (some : 1 ≤ samples) (low : 0 ≤ perMill) (high : perMill ≤ 1000) :
    start ≤ place start length samples perMill ∧ place start length samples perMill ≤ length := by
  have share : samples * perMill / 1000 ≤ samples := by
    apply Int.ediv_le_of_le_mul (by decide)
    exact mul_le_mul_of_nonneg_left high (by omega)
  have positive : 0 ≤ samples * perMill / 1000 := Int.ediv_nonneg (mul_nonneg (by omega) low) (by decide)
  have scaled : 0 ≤ (length - start) * (samples * perMill / 1000) / samples := Int.ediv_nonneg (mul_nonneg (by omega) positive) (by omega)
  have bounded : (length - start) * (samples * perMill / 1000) / samples ≤ length - start := by
    apply Int.ediv_le_of_le_mul (by omega)
    exact mul_le_mul_of_nonneg_left share (by omega)
  unfold place
  omega

def Fits (startPoint mFileLength samplesToRead iPerMill : Int) : Prop :=
  samplesToRead * iPerMill < 2 ^ 63 ∧ (mFileLength - startPoint) * (samplesToRead * iPerMill / 1000) < 2 ^ 63

theorem productPositive {a b : Int} (positive : 0 ≤ a * b) : product a b = if a * b < 2 ^ 63 then some (a * b) else none := by
  unfold product
  split <;> split <;> first | rfl | omega

theorem seekRounds (front : 0 ≤ start) (begins : start ≤ length) (many : 1 ≤ samples) (low : 0 ≤ perMill) (pos : Int) :
    seekPosition start length samples perMill = some pos ↔
      Fits start length samples perMill ∧ pos = place start length samples perMill - place start length samples perMill % 24 := by
  have scaled : 0 ≤ samples * perMill := mul_nonneg (by omega) low
  have positive : 0 ≤ samples * perMill / 1000 := Int.ediv_nonneg scaled (by decide)
  have behind : 0 ≤ (length - start) * (samples * perMill / 1000) := mul_nonneg (by omega) positive
  have inside : 0 ≤ (length - start) * (samples * perMill / 1000) / samples := Int.ediv_nonneg behind (by omega)
  unfold seekPosition Fits
  rw [productPositive scaled]
  by_cases first : samples * perMill < 2 ^ 63
  · rw [if_pos first,Option.bind_eq_bind,Option.bind_some,Int.tdiv_eq_ediv_of_nonneg scaled]
    dsimp only
    rw [productPositive behind]
    by_cases second : (length - start) * (samples * perMill / 1000) < 2 ^ 63
    · rw [if_pos second,Option.bind_some,Int.tdiv_eq_ediv_of_nonneg behind]
      rw [Int.tmod_eq_emod_of_nonneg (by omega),Option.some.injEq,eq_comm]
      exact ⟨fun same => ⟨⟨first,second⟩,same⟩,And.right⟩
    · rw [if_neg second]
      exact iff_of_false (fun none => nomatch none) (fun right => second right.1.2)
  · rw [if_neg first]
    exact iff_of_false (fun none => nomatch none) (fun right => first right.1.1)

theorem roundedInStep (container : Container) {elements : Nat} (one : elements = 1 ∨ elements = 2) (p start : Int) :
    (p - p % 24 - start) % bytesPerSample container elements = 0 ↔ start % bytesPerSample container elements = 0 := by
  rcases one with rfl | rfl <;> cases container <;> simp only [bytesPerSample,width] <;> omega

theorem startPointFront (container : Container) (mFileLength nrElements : Int) : 2048 ≤ startPoint container mFileLength nrElements := by
  unfold startPoint
  dsimp only
  split <;> omega

theorem jumpInStep (container : Container) (channels : Nat) (mFileLength nrElements samplesToRead iPerMill : Int)
    (order : channels = 1 ∨ channels = 2) (begins : startPoint container mFileLength nrElements ≤ mFileLength)
    (many : 1 ≤ samplesToRead) (low : 0 ≤ iPerMill) (high : iPerMill ≤ 1000) :
    InStep (startPoint container mFileLength nrElements) mFileLength samplesToRead iPerMill (bytesPerSample container channels) ↔
      Fits (startPoint container mFileLength nrElements) mFileLength samplesToRead iPerMill ∧
      startPoint container mFileLength nrElements % bytesPerSample container channels = 0 ∧
      (startPoint container mFileLength nrElements + 23) / 24 * 24 ≤
        place (startPoint container mFileLength nrElements) mFileLength samplesToRead iPerMill := by
  have front := startPointFront container mFileLength nrElements
  obtain ⟨lower,upper⟩ := placeInside begins many low high
  have rounds := seekRounds (by omega) begins many low
  have step := roundedInStep container order
  unfold InStep
  simp only [rounds]
  generalize startPoint container mFileLength nrElements = start at *
  generalize place start mFileLength samplesToRead iPerMill = p at *
  constructor
  · rintro ⟨pos,⟨fits,rfl⟩,behind,-,aligned⟩
    exact ⟨fits,(step p start).mp aligned,by omega⟩
  · rintro ⟨fits,aligned,reaches⟩
    exact ⟨p - p % 24,⟨fits,rfl⟩,by omega,by omega,(step p start).mpr aligned⟩

theorem jumpInStepHalf : InStep (startPoint .int16 6064 2000) 6064 1000 500 (bytesPerSample .int16 2) := by
  rw [jumpInStep .int16 2 6064 2000 1000 500 (by decide) (by decide) (by decide) (by decide) (by decide)]
  unfold Fits place
  decide

/- Back to the begin of a file with the usual header: eight bytes in front of the samples. Half
way through a file of 24 bits: in the middle of an element. -/
theorem jumpsOutOfStep : ¬ InStep (startPoint .int16 6048 2000) 6048 1000 0 (bytesPerSample .int16 2) ∧
    ¬ InStep (startPoint .int24 8048 2000) 8048 1000 500 (bytesPerSample .int24 2) := by
  constructor
  · rintro ⟨pos,found,behind,-⟩
    have there : seekPosition (startPoint .int16 6048 2000) 6048 1000 0 = some 2040 := by decide
    cases there.symm.trans found
    revert behind
    decide
  · rintro ⟨pos,found,-,-,aligned⟩
    have there : seekPosition (startPoint .int24 8048 2000) 8048 1000 500 = some 5040 := by decide
    cases there.symm.trans found
    revert aligned
    decide

end Seek

end XmlFileReader

end DabStar
