import Mathlib.Data.List.Basic
import Mathlib.Tactic.Common

/-! Programs that read fields of bits. A program is the tree of its reads, so what it
computes and which bits it touches come from one text. A loop whose rounds are used up is
stuck; a program that is not stuck returns. -/
namespace DabStar.Lib.BitReader

inductive Reader (α : Type) where
  | done (value : α)
  | stuck
  | read (first count : Nat) (next : Nat → Reader α)

namespace Reader

variable {α β σ γ : Type}

def bind : Reader α → (α → Reader β) → Reader β
  | done a, k => k a
  | stuck, _ => stuck
  | read first count next, k => read first count fun bits => (next bits).bind k

instance : Monad Reader where
  pure := done
  bind := bind

theorem bindAssoc (p : Reader α) (k : α → Reader β) (l : β → Reader γ) : (p.bind k).bind l = p.bind fun a => (k a).bind l := by
  induction p with
  | done a | stuck => rfl
  | read first count next ih => exact congrArg (read first count) (funext ih)

theorem bindDone (p : Reader α) : p.bind done = p := by
  induction p with
  | done a | stuck => rfl
  | read first count next ih => exact congrArg (read first count) (funext ih)

instance : LawfulMonad Reader := LawfulMonad.mk' Reader bindDone (fun _ _ => rfl) bindAssoc

def field (first count : Nat) : Reader Nat := read first count done

def run (fetch : Nat → Nat → Nat) : Reader α → Option α
  | done a => some a
  | stuck => none
  | read first count next => (next (fetch first count)).run fetch

def Within (fetch : Nat → Nat → Nat) (size : Nat) : Reader α → Prop
  | done _ => True
  | stuck => True
  | read first count next => first + count ≤ size ∧ (next (fetch first count)).Within fetch size

instance decidableWithin (fetch : Nat → Nat → Nat) (size : Nat) : (p : Reader α) → Decidable (p.Within fetch size)
  | done _ => isTrue trivial
  | stuck => isTrue trivial
  | read first count next =>
    have := decidableWithin fetch size (next (fetch first count))
    inferInstanceAs (Decidable (first + count ≤ size ∧ (next (fetch first count)).Within fetch size))

variable (fetch : Nat → Nat → Nat) {size : Nat}

section Rules

@[simp] theorem runPure (a : α) : (pure a : Reader α).run fetch = some a := rfl

@[simp] theorem runDone (a : α) : (done a).run fetch = some a := rfl

@[simp] theorem runField (first count : Nat) : (field first count).run fetch = some (fetch first count) := rfl

@[simp] theorem runFieldBind (first count : Nat) (k : Nat → Reader α) :
    (field first count >>= k).run fetch = (k (fetch first count)).run fetch := rfl

theorem runIf {c : Prop} [Decidable c] (p q : Reader α) : (if c then p else q).run fetch = if c then p.run fetch else q.run fetch := by
  split <;> rfl

theorem runBind (p : Reader α) (k : α → Reader β) : (p >>= k).run fetch = (p.run fetch).bind fun a => (k a).run fetch := by
  induction p with
  | done a | stuck => rfl
  | read first count next ih => exact ih (fetch first count)

variable {fetch}

theorem runBindOf {p : Reader α} {k : α → Reader β} {a : α} (value : p.run fetch = some a) : (p >>= k).run fetch = (k a).run fetch := by
  rw [runBind,value,Option.bind_some]

@[simp] theorem withinPure (a : α) : (pure a : Reader α).Within fetch size ↔ True := Iff.rfl

@[simp] theorem withinField (first count : Nat) : (field first count).Within fetch size ↔ first + count ≤ size := and_iff_left trivial

@[simp] theorem withinFieldBind (first count : Nat) (k : Nat → Reader α) :
    (field first count >>= k).Within fetch size ↔ first + count ≤ size ∧ (k (fetch first count)).Within fetch size := Iff.rfl

theorem withinBindOf {p : Reader α} {k : α → Reader β} {a : α} (value : p.run fetch = some a) :
    (p >>= k).Within fetch size ↔ p.Within fetch size ∧ (k a).Within fetch size := by
  induction p with
  | done b =>
    cases value
    exact (and_iff_right trivial).symm
  | stuck => exact nomatch value
  | read first count next ih => exact (and_congr_right fun _ => ih (fetch first count) value).trans and_assoc.symm

theorem withinIf {c : Prop} [Decidable c] {p q : Reader α} :
    (if c then p else q).Within fetch size ↔ (c → p.Within fetch size) ∧ (¬ c → q.Within fetch size) := by by_cases yes : c <;> simp [yes]

end Rules

def shift (distance : Nat) : Reader α → Reader α
  | done a => done a
  | stuck => stuck
  | read first count next => read (distance + first) count fun bits => (next bits).shift distance

section Lists

def fields (count : Nat) : List Nat → Reader (List Nat)
  | [] => pure []
  | first :: rest => do
      let value ← field first count
      let values ← fields count rest
      pure (value :: values)

def fold (step : β → γ → Reader β) : List γ → β → Reader β
  | [], b => pure b
  | c :: rest, b => do
      let next ← step b c
      fold step rest next

variable {fetch}

theorem runFields (count : Nat) (places : List Nat) :
    (fields count places).run fetch = some (places.map fun first => fetch first count) := by
  induction places with
  | nil => rfl
  | cons first rest ih =>
    rw [fields,runFieldBind,runBindOf ih]
    rfl

theorem withinFields (count : Nat) (places : List Nat) :
    (fields count places).Within fetch size ↔ ∀ first ∈ places, first + count ≤ size := by
  induction places with
  | nil => simp [fields]
  | cons first rest ih =>
    rw [fields,withinFieldBind,withinBindOf (runFields count rest),ih,withinPure,and_true,List.forall_mem_cons]

theorem runFold {step : β → γ → Reader β} {f : β → γ → β} (each : ∀ b c, (step b c).run fetch = some (f b c))
    (l : List γ) (b : β) : (fold step l b).run fetch = some (l.foldl f b) := by
  induction l generalizing b with
  | nil => rfl
  | cons c rest ih =>
    rw [fold,runBindOf (each b c)]
    exact ih (f b c)

theorem withinFold {step : β → γ → Reader β} {f : β → γ → β} (each : ∀ b c, (step b c).run fetch = some (f b c))
    {F : List γ → β → Prop} (keeps : ∀ b c rest, F (c :: rest) b → F rest (f b c)) {N : γ → Prop}
    (needs : ∀ b c rest, F (c :: rest) b → ((step b c).Within fetch size ↔ N c)) {l : List γ} {b : β}
    (fits : F l b) : (fold step l b).Within fetch size ↔ ∀ c ∈ l, N c := by
  induction l generalizing b with
  | nil => simp [fold]
  | cons c rest ih =>
    rw [fold,withinBindOf (each b c),needs b c rest fits,ih (keeps b c rest fits),List.forall_mem_cons]

end Lists

section Loops
variable {step : σ → Reader (σ ⊕ β)}

def loop (step : σ → Reader (σ ⊕ β)) : Nat → σ → Reader β
  | 0, _ => stuck
  | fuel + 1, x => do
      match ← step x with
      | .inl y => loop step fuel y
      | .inr b => pure b

def visited (step : σ → Reader (σ ⊕ β)) : Nat → σ → List σ
  | 0, _ => []
  | fuel + 1, x => x :: match (step x).run fetch with
      | some (.inl y) => visited step fuel y
      | _ => []

variable {fetch}

theorem withinLoop (returns : ∀ x, ∃ r, (step x).run fetch = some r) (fuel : Nat) (x : σ) :
    (loop step fuel x).Within fetch size ↔ ∀ y ∈ visited fetch step fuel x, (step y).Within fetch size := by
  induction fuel generalizing x with
  | zero => simp [loop,visited,Within]
  | succ fuel ih =>
    obtain ⟨r,value⟩ := returns x
    rw [loop,withinBindOf value,visited,List.forall_mem_cons,value]
    cases r with
    | inl y => exact and_congr_right fun _ => ih y
    | inr b => simp

/- A round that does not return comes nearer to the end, so the loop returns, and with what
the same rounds compute without the reading. -/
theorem loopValue {I : σ → Prop} (left : σ → Nat) (f : Nat → σ → β)
    (round : ∀ x, I x → ∃ r, (step x).run fetch = some r ∧ (∀ fuel, f (fuel + 1) x = r.elim (f fuel) id) ∧
      ∀ y, r = .inl y → I y ∧ left y < left x)
    {fuel : Nat} {x : σ} (inv : I x) (enough : left x < fuel) : (loop step fuel x).run fetch = some (f fuel x) := by
  induction fuel generalizing x with
  | zero => omega
  | succ fuel ih =>
    obtain ⟨r,value,same,nearer⟩ := round x inv
    rw [loop,runBindOf value,same]
    cases r with
    | inl y =>
      obtain ⟨invNext,less⟩ := nearer y rfl
      exact ih invNext (by omega)
    | inr b => rfl

theorem visitedKeep {I : σ → Prop} (round : ∀ x y, I x → (step x).run fetch = some (.inl y) → I y) {fuel : Nat} {x : σ} (inv : I x) :
    ∀ y ∈ visited fetch step fuel x, I y := by
  induction fuel generalizing x with
  | zero => exact fun _ member => nomatch member
  | succ fuel ih =>
    rw [visited,List.forall_mem_cons]
    refine ⟨inv,?_⟩
    split
    · rename_i y value
      exact ih (round x y inv value)
    · exact fun _ member => nomatch member

end Loops

theorem runShift (distance : Nat) (p : Reader α) :
    (p.shift distance).run fetch = p.run fun first count => fetch (distance + first) count := by
  induction p with
  | done a | stuck => rfl
  | read first count next ih => exact ih (fetch (distance + first) count)

end Reader
end DabStar.Lib.BitReader
