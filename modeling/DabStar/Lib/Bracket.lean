import Mathlib

/-! Starts and stops that something emits on its way. If each step emits nothing, a start
when it turns on, or a stop when it turns off, then the whole way alternates. -/
namespace DabStar.Lib.Bracket

def Alternates : Bool → List Bool → Prop
  | _, [] => True
  | on, started :: rest => started = !on ∧ Alternates started rest

instance decidableAlternates : ∀ on signals, Decidable (Alternates on signals)
  | _, [] => isTrue trivial
  | on, started :: rest => @instDecidableAnd (started = !on) (Alternates started rest) _ (decidableAlternates started rest)

inductive Switches (before after : Bool) : List Bool → Prop where
  | silent (same : after = before) : Switches before after []
  | starts (off : before = false) (on : after = true) : Switches before after [true]
  | stops (on : before = true) (off : after = false) : Switches before after [false]

theorem switchesAlternate {before after : Bool} {signals rest : List Bool} (switches : Switches before after signals)
    (onwards : Alternates after rest) : Alternates before (signals ++ rest) := by
  cases switches with
  | silent same => exact same ▸ onwards
  | starts off on => exact ⟨by rw [off]; rfl,on ▸ onwards⟩
  | stops on off => exact ⟨by rw [on]; rfl,off ▸ onwards⟩

section Runs
variable {σ ω ε : Type} (step : σ → ω → σ) (emits : σ → ω → List ε)

def emitted : σ → List ω → List ε
  | _, [] => []
  | s, op :: ops => emits s op ++ emitted (step s op) ops

def Along (good : σ → ω → Prop) : σ → List ω → Prop
  | _, [] => True
  | s, op :: ops => good s op ∧ Along good (step s op) ops

instance decidableAlong (good : σ → ω → Prop) [∀ s op,Decidable (good s op)] : ∀ s ops, Decidable (Along step good s ops)
  | _, [] => isTrue trivial
  | s, op :: ops => @instDecidableAnd (good s op) (Along step good (step s op) ops) _ (decidableAlong good (step s op) ops)

variable {step emits}

theorem runAlternates {good : σ → ω → Prop} {inv : σ → Prop} {on : σ → Bool} {kinds : List ε → List Bool}
    (split : ∀ a b, kinds (a ++ b) = kinds a ++ kinds b) (kept : ∀ {s op}, inv s → inv (step s op))
    (each : ∀ {s op}, inv s → good s op → Switches (on s) (on (step s op)) (kinds (emits s op)))
    {s : σ} {ops : List ω} (sound : inv s) (along : Along step good s ops) : Alternates (on s) (kinds (emitted step emits s ops)) := by
  induction ops generalizing s with
  | nil =>
    have none : kinds [] = [] := by
      have twice := congrArg List.length (split [] [])
      rw [List.append_nil,List.length_append] at twice
      exact List.eq_nil_of_length_eq_zero (by omega)
    rw [emitted,none]
    trivial
  | cons op ops ih =>
    rw [emitted,split]
    exact switchesAlternate (each sound along.1) (ih (kept sound) along.2)

end Runs

end DabStar.Lib.Bracket
