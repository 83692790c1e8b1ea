import DabStar.FibSteps
import DabStar.Lib.KeyedStore

/-! The keys of the FIG 0 stores: over every run none comes twice. FIG 0/5 drops the upper bits
of a service component identifier, FIG 0/13 looks into the current configuration for an entry
of the next one. -/
namespace DabStar.Fib.FibDecoder
open Lib.KeyedStore List

/- No key twice; long form languages as far as the lookup tells the identifiers apart. -/
structure UniqueKeys (c : FibConfigFig0) : Prop where
  fig0s1 : c.fig0s1Vec.Pairwise (fun a b => a.subChId ≠ b.subChId)
  fig0s2 : c.fig0s2Vec.Pairwise (fun a b => ¬ (a.sId = b.sId ∧ a.serviceCompCIndex = b.serviceCompCIndex))
  fig0s3 : c.fig0s3Vec.Pairwise (fun a b => a.scId ≠ b.scId)
  fig0s5SubChId : c.fig0s5Vec.Pairwise (fun a b => ¬ (a.lsFlag = 0 ∧ b.lsFlag = 0 ∧ a.subChId = b.subChId))
  fig0s5SCId : c.fig0s5Vec.Pairwise (fun a b => ¬ (a.lsFlag = 1 ∧ b.lsFlag = 1 ∧ a.scId = b.scId ∧ a.scId < 256))
  fig0s7 : c.fig0s7Vec.length ≤ 1
  fig0s8 : c.fig0s8Vec.Pairwise (fun a b => ¬ (a.sId = b.sId ∧ a.scIdS = b.scIdS))
  fig0s9 : c.fig0s9Vec.length ≤ 1
  fig0s14 : c.fig0s14Vec.Pairwise (fun a b => a.subChId ≠ b.subChId)
  fig0s17 : c.fig0s17Vec.Pairwise (fun a b => a.sId ≠ b.sId)

def UniqueUserApps (c : FibConfigFig0) : Prop := c.fig0s13Vec.Pairwise (fun a b => ¬ (a.sId = b.sId ∧ a.scIdS = b.scIdS))

theorem uniqueKeysStored {d : Bits} {s : FibDecoder} {cnFlag : Nat} {c : FibConfigFig0} (stored : Stores d s cnFlag c)
    (unique : UniqueKeys (s.getConfig cnFlag)) : UniqueKeys c := by
  cases stored with
  | fig0s1 bitOffset unknown =>
    refine { unique with fig0s1 := pairwiseAppend unique.fig0s1 (fun a member same => ?_) }
    have other := absent unknown member
    rw [same,readSubChId] at other
    simp at other
  | fig0s2 e service index unknown =>
    exact { unique with fig0s2 := pairwiseAppend unique.fig0s2 fun a member => of_decide_eq_false (absent unknown member) }
  | fig0s3 e component unknown =>
    exact { unique with fig0s3 := pairwiseAppend unique.fig0s3 fun a member => of_decide_eq_false (absent unknown member) }
  | fig0s5Short subChId language channel curr unknown =>
    refine { unique with
      fig0s5SubChId := pairwiseAppend unique.fig0s5SubChId (fun a member same => ?_)
      fig0s5SCId := pairwiseAppend unique.fig0s5SCId (fun a member same => absurd same.2.1 (show ¬ (0 : Int) = 1 by decide)) }
    exact of_decide_eq_false (absent unknown member) ⟨same.1,same.2.2⟩
  | fig0s5Long scId language curr unknown =>
    refine { unique with
      fig0s5SubChId := pairwiseAppend unique.fig0s5SubChId (fun a member same => absurd same.2.1 (show ¬ (1 : Int) = 0 by decide))
      fig0s5SCId := pairwiseAppend unique.fig0s5SCId (fun a member same => ?_) }
    obtain ⟨long,-,equal,small⟩ := same
    have other := of_decide_eq_false (absent unknown member)
    dsimp only at equal
    exact other ⟨long,by omega⟩
  | fig0s7 e unknown => exact { unique with fig0s7 := le_refl 1 }
  | fig0s8 e service component unknown =>
    exact { unique with fig0s8 := pairwiseAppend unique.fig0s8 fun a member => of_decide_eq_false (absent unknown member) }
  | fig0s9 e curr unknown => exact { unique with fig0s9 := le_refl 1 }
  | fig0s13 => exact { unique with }
  | fig0s14 e channel unknown =>
    exact { unique with fig0s14 := pairwiseAppend unique.fig0s14 fun a member => of_decide_eq_false (absent unknown member) }
  | fig0s17 e service curr unknown =>
    exact { unique with fig0s17 := pairwiseAppend unique.fig0s17 fun a member => of_decide_eq_false (absent unknown member) }

theorem uniqueKeysKept : Invariant (fun _ => True) UniqueKeys where
  initial := ⟨.nil,.nil,.nil,.nil,.nil,Nat.zero_le 1,.nil,Nat.zero_le 1,.nil,.nil⟩
  cleared _ := ⟨.nil,.nil,.nil,.nil,.nil,Nat.zero_le 1,.nil,Nat.zero_le 1,.nil,.nil⟩
  clusters _ unique := { unique with }
  stored _ stored unique := uniqueKeysStored stored unique

theorem uniqueUserAppsKept : Invariant (fun d => ¬ userAppsOfNext d) UniqueUserApps where
  initial := .nil
  cleared _ := .nil
  clusters _ unique := unique
  stored := by
    intro d s cnFlag c ok stored unique
    cases stored with
    | fig0s13 e service component sized named unknown =>
      have current : cnFlag = 0 := not_not.mp (fun next => ok (named next))
      subst current
      exact pairwiseAppend unique fun a member => of_decide_eq_false (absent unknown member)
    | _ => exact unique

structure KeyRanges (c : FibConfigFig0) : Prop where
  fig0s1 : ∀ e ∈ c.fig0s1Vec, ∃ subChId : Nat, subChId < 64 ∧ e.subChId = subChId
  fig0s2 : ∀ e ∈ c.fig0s2Vec, e.sId < 2 ^ 32 ∧ ∃ i : Nat, i < 16 ∧ e.serviceCompCIndex = i
  fig0s3 : ∀ e ∈ c.fig0s3Vec, ∃ scId : Nat, scId < 4096 ∧ e.scId = scId
  fig0s5 : ∀ e ∈ c.fig0s5Vec, (e.lsFlag = 0 ∧ ∃ subChId : Nat, subChId < 64 ∧ e.subChId = subChId) ∨
    (e.lsFlag = 1 ∧ ∃ scId : Nat, e.scId = scId)
  fig0s8 : ∀ e ∈ c.fig0s8Vec, e.sId < 2 ^ 32 ∧ ∃ scIdS : Nat, scIdS < 16 ∧ e.scIdS = scIdS
  fig0s13 : ∀ e ∈ c.fig0s13Vec, e.sId < 2 ^ 32 ∧ ∃ scIdS : Nat, scIdS < 16 ∧ e.scIdS = scIdS
  fig0s14 : ∀ e ∈ c.fig0s14Vec, ∃ subChId : Nat, subChId < 64 ∧ e.subChId = subChId
  fig0s17 : ∀ e ∈ c.fig0s17Vec, e.sId < 2 ^ 16

theorem forallSnoc {α : Type} {P : α → Prop} {l : List α} {e : α} (before : ∀ a ∈ l, P a) (new : P e) :
    ∀ a ∈ l ++ [e], P a := forall_mem_append.mpr ⟨before,forall_mem_singleton.mpr new⟩

theorem keyRangesKept : Invariant (fun _ => True) KeyRanges where
  initial := by constructor <;> exact fun _ member => absurd member not_mem_nil
  cleared _ := by constructor <;> exact fun _ member => absurd member not_mem_nil
  clusters _ ranges := { ranges with }
  stored := by
    intro d s cnFlag c _ stored ranges
    cases stored with
    | fig0s1 bitOffset =>
      refine { ranges with fig0s1 := forallSnoc ranges.fig0s1 ⟨_,getBitsLt d bitOffset 6,?_⟩ }
      exact readSubChId d bitOffset
    | fig0s2 e service index => exact { ranges with fig0s2 := forallSnoc ranges.fig0s2 ⟨service,index⟩ }
    | fig0s3 e component => exact { ranges with fig0s3 := forallSnoc ranges.fig0s3 component }
    | fig0s5Short subChId language channel =>
      exact { ranges with fig0s5 := forallSnoc ranges.fig0s5 (.inl ⟨rfl,subChId,channel,rfl⟩) }
    | fig0s5Long scId => exact { ranges with fig0s5 := forallSnoc ranges.fig0s5 (.inr ⟨rfl,scId,rfl⟩) }
    | fig0s7 | fig0s9 => exact { ranges with }
    | fig0s8 e service component => exact { ranges with fig0s8 := forallSnoc ranges.fig0s8 ⟨service,component⟩ }
    | fig0s13 e service component => exact { ranges with fig0s13 := forallSnoc ranges.fig0s13 ⟨service,component⟩ }
    | fig0s14 e channel => exact { ranges with fig0s14 := forallSnoc ranges.fig0s14 channel }
    | fig0s17 e service => exact { ranges with fig0s17 := forallSnoc ranges.fig0s17 service }

def findable (e : Fig0s5) : Bool := e.lsFlag = 0 ∨ e.scId < 256

structure Bounded (c : FibConfigFig0) : Prop where
  fig0s1 : c.fig0s1Vec.length ≤ 64
  fig0s2 : c.fig0s2Vec.length ≤ 2 ^ 36
  fig0s3 : c.fig0s3Vec.length ≤ 4096
  fig0s5 : (c.fig0s5Vec.filter findable).length ≤ 320
  fig0s7 : c.fig0s7Vec.length ≤ 1
  fig0s8 : c.fig0s8Vec.length ≤ 2 ^ 36
  fig0s9 : c.fig0s9Vec.length ≤ 1
  fig0s14 : c.fig0s14Vec.length ≤ 64
  fig0s17 : c.fig0s17Vec.length ≤ 2 ^ 16

section Bounds
variable {α : Type} {l : List α}

theorem fieldBound {n : Nat} {f : α → Int} (unique : l.Pairwise (fun a b => f a ≠ f b))
    (range : ∀ e ∈ l, ∃ k : Nat, k < n ∧ f e = k) : l.length ≤ n := by
  refine keysBound (k := fun e => (f e).toNat) ?_ ?_
  · refine unique.imp_of_mem (fun first second apart same => apart ?_)
    obtain ⟨a,-,eqA⟩ := range _ first
    obtain ⟨b,-,eqB⟩ := range _ second
    omega
  · intro e member
    obtain ⟨k,small,same⟩ := range e member
    omega

theorem serviceBound {sId : α → Nat} {field : α → Int} (unique : l.Pairwise (fun a b => ¬ (sId a = sId b ∧ field a = field b)))
    (range : ∀ e ∈ l, sId e < 2 ^ 32 ∧ ∃ k : Nat, k < 16 ∧ field e = k) : l.length ≤ 2 ^ 36 := by
  refine keysBound (k := fun e => 16 * sId e + (field e).toNat) ?_ ?_
  · refine unique.imp_of_mem (fun first second apart same => apart ?_)
    obtain ⟨-,a,smallA,eqA⟩ := range _ first
    obtain ⟨-,b,smallB,eqB⟩ := range _ second
    omega
  · intro e member
    obtain ⟨service,k,small,same⟩ := range e member
    omega

end Bounds

theorem languagesBound {c : FibConfigFig0} (unique : UniqueKeys c) (ranges : KeyRanges c) : (c.fig0s5Vec.filter findable).length ≤ 320 := by
  have both := (unique.fig0s5SubChId.and unique.fig0s5SCId).filter findable
  have range : ∀ e ∈ c.fig0s5Vec.filter findable, ∃ k : Nat, k < 320 ∧ (if e.lsFlag = 0 then e.subChId else 64 + e.scId) = k := by
    intro e member
    obtain ⟨stored,found⟩ := mem_filter.mp member
    rcases ranges.fig0s5 e stored with ⟨short,subChId,small,same⟩ | ⟨long,scId,same⟩
    · exact ⟨subChId,by omega,by rw [if_pos short,same]⟩
    · have notShort : ¬ e.lsFlag = 0 := by rw [long]; decide
      have small := (of_decide_eq_true found).resolve_left notShort
      exact ⟨64 + scId,by omega,by rw [if_neg notShort,same]; push_cast; rfl⟩
  refine fieldBound (f := fun e => if e.lsFlag = 0 then e.subChId else 64 + e.scId) ?_ range
  refine both.imp_of_mem (fun {a b} first second apart same => ?_)
  obtain ⟨storedA,foundA⟩ := mem_filter.mp first
  obtain ⟨storedB,foundB⟩ := mem_filter.mp second
  have findableA := of_decide_eq_true foundA
  rcases ranges.fig0s5 a storedA with ⟨shortA,i,smallI,eqI⟩ | ⟨longA,i,eqI⟩ <;>
    rcases ranges.fig0s5 b storedB with ⟨shortB,j,smallJ,eqJ⟩ | ⟨longB,j,eqJ⟩
  · rw [if_pos shortA,if_pos shortB] at same
    exact apart.1 ⟨shortA,shortB,same⟩
  · rw [if_pos shortA,if_neg (by rw [longB]; decide)] at same
    omega
  · rw [if_neg (by rw [longA]; decide),if_pos shortB] at same
    omega
  · rw [if_neg (by rw [longA]; decide),if_neg (by rw [longB]; decide)] at same
    exact apart.2 ⟨longA,longB,by omega,by omega⟩

theorem uniqueBounded {c : FibConfigFig0} (unique : UniqueKeys c) (ranges : KeyRanges c) : Bounded c where
  fig0s1 := fieldBound unique.fig0s1 ranges.fig0s1
  fig0s2 := serviceBound unique.fig0s2 ranges.fig0s2
  fig0s3 := fieldBound unique.fig0s3 ranges.fig0s3
  fig0s5 := languagesBound unique ranges
  fig0s7 := unique.fig0s7
  fig0s8 := serviceBound unique.fig0s8 ranges.fig0s8
  fig0s9 := unique.fig0s9
  fig0s14 := fieldBound unique.fig0s14 ranges.fig0s14
  fig0s17 := keysBound unique.fig0s17 ranges.fig0s17

theorem userAppsBounded {c : FibConfigFig0} (unique : UniqueUserApps c) (ranges : KeyRanges c) :
    c.fig0s13Vec.length ≤ 2 ^ 36 := serviceBound unique ranges.fig0s13

end DabStar.Fib.FibDecoder
