import Mathlib

/-! Runs of bits between zeros: a string with a one in it is zeros, a run that begins and
ends with a one, and zeros, in one way only. -/
namespace DabStar.Lib.BitRuns
open List

def Trimmed (run : List Bool) : Prop := run.head? = some true ∧ run.getLast? = some true
  deriving Decidable

theorem trimmedFront {run : List Bool} (trimmed : Trimmed run) : ∃ rest, run = true :: rest := by
  cases run with
  | nil => cases trimmed.1
  | cons bit rest => exact ⟨rest,by rw [Option.some.inj trimmed.1]⟩

theorem trimmedReverse {run : List Bool} (trimmed : Trimmed run) : Trimmed run.reverse := by simpa [Trimmed,and_comm] using trimmed

theorem firstOne (l : List Bool) (one : true ∈ l) : ∃ a rest, l = replicate a false ++ true :: rest := by
  induction l with
  | nil => cases one
  | cons bit l ih =>
    cases bit with
    | true => exact ⟨0,l,rfl⟩
    | false =>
      obtain ⟨a,rest,split⟩ := ih (by simpa using one)
      exact ⟨a + 1,rest,by rw [split,replicate_succ,cons_append]⟩

theorem firstUnique {a b : Nat} {l m : List Bool}
    (same : replicate a false ++ true :: l = replicate b false ++ true :: m) : a = b ∧ l = m := by
  induction a generalizing b with
  | zero =>
    cases b with
    | zero => exact ⟨rfl,(List.cons.inj same).2⟩
    | succ b => simp [replicate_succ] at same
  | succ a ih =>
    cases b with
    | zero => simp [replicate_succ] at same
    | succ b =>
      simp only [replicate_succ,cons_append,List.cons.injEq,true_and] at same
      obtain ⟨front,rest⟩ := ih same
      exact ⟨congrArg Nat.succ front,rest⟩

theorem trim (l : List Bool) (one : true ∈ l) : ∃ a inner b, l = replicate a false ++ inner ++ replicate b false ∧ Trimmed inner := by
  obtain ⟨a,rest,front⟩ := firstOne l one
  obtain ⟨b,back,behind⟩ := firstOne (true :: rest).reverse (by simp)
  have turned : true :: rest = back.reverse ++ [true] ++ replicate b false := by simpa using congrArg List.reverse behind
  refine ⟨a,back.reverse ++ [true],b,by rw [front,turned,← append_assoc],?_,by simp⟩
  have head := congrArg List.head? turned
  cases reversed : back.reverse with
  | nil => rfl
  | cons bit more =>
    rw [reversed] at head
    exact head.symm

theorem trimUnique {a b c d : Nat} {r q : List Bool} (trimmed : Trimmed r) (trimmed' : Trimmed q)
    (same : replicate a false ++ r ++ replicate b false = replicate c false ++ q ++ replicate d false) : a = c ∧ r = q := by
  obtain ⟨r',front⟩ := trimmedFront trimmed
  obtain ⟨q',front'⟩ := trimmedFront trimmed'
  obtain ⟨r'',behind⟩ := trimmedFront (trimmedReverse trimmed)
  obtain ⟨q'',behind'⟩ := trimmedFront (trimmedReverse trimmed')
  have start : a = c := by
    rw [front,front'] at same
    simp only [append_assoc,cons_append] at same
    exact (firstUnique same).1
  subst start
  rw [append_assoc,append_assoc] at same
  have inner := congrArg List.reverse (append_cancel_left same)
  simp only [reverse_append,reverse_replicate,behind,behind'] at inner
  have ends := (firstUnique inner).2
  exact ⟨rfl,reverse_injective (by rw [behind,behind',ends])⟩

end DabStar.Lib.BitRuns
