import DabStar.Multiplex
import DabStar.Lib.Bracket

/-! Announcement clusters. A start is signalled at the fifth count only, a stop at any count,
and a service may join at any time. -/
namespace DabStar.Fib.FibDecoder
open List

def slotOf (table : List Cluster) (clusterId : Int) : Option Nat :=
  (range 64).find? (fun i => (table.getD i {}).inUse ∧ (table.getD i {}).clusterId = clusterId)

def clusterOf (table : List Cluster) (clusterId : Int) : Cluster :=
  match slotOf table clusterId with
  | some i => table.getD i {}
  | none => { inUse := true, clusterId := clusterId }

def Room (table : List Cluster) (clusterId : Int) : Prop := (slotOf table clusterId).isSome ∨ ∃ i < 64, (table.getD i {}).inUse = false

instance (table clusterId) : Decidable (Room table clusterId) := by unfold Room; infer_instance

structure ValidTable (table : List Cluster) : Prop where
  size : table.length = 128
  unused : ∀ c ∈ table, c.inUse = false → c = {}
  services : ∀ c ∈ table, c.servicesSIDs.Nodup

inductive Found (table : List Cluster) (clusterId : Int) : List Cluster × Nat → Prop where
  | known {i : Nat} (slot : slotOf table clusterId = some i) : Found table clusterId (table, i)
  | claimed {i : Nat} (small : i < 64) (unknown : slotOf table clusterId = none) (free : (table.getD i {}).inUse = false) :
      Found table clusterId (table.set i { table.getD i {} with inUse := true, clusterId := clusterId }, i)
  | full (unknown : slotOf table clusterId = none) (none : ∀ i < 64, (table.getD i {}).inUse = true) :
      Found table clusterId (table, 0)

theorem getClusterFound (table : List Cluster) (clusterId : Int) : Found table clusterId (getCluster table clusterId) := by
  unfold getCluster
  split
  · rename_i slot
    exact .known slot
  · rename_i unknown
    split
    · rename_i i free
      have here := List.find?_some free
      have small := mem_range.mp (mem_of_find?_eq_some free)
      exact .claimed small unknown (by simpa using here)
    · rename_i none
      refine .full unknown (fun i small => ?_)
      have used := List.find?_eq_none.mp none i (mem_range.mpr small)
      simpa using used

theorem slotUsed {table : List Cluster} {clusterId : Int} {i : Nat} (slot : slotOf table clusterId = some i) :
    i < 64 ∧ (table.getD i {}).inUse = true ∧ (table.getD i {}).clusterId = clusterId := by
  refine ⟨mem_range.mp (mem_of_find?_eq_some slot),?_⟩
  have here := List.find?_some slot
  simpa using here

theorem getDSet {table : List Cluster} (size : table.length = 128) {i : Nat} (small : i < 64) (c : Cluster) (k : Nat) :
    (table.set i c).getD k {} = if k = i then c else table.getD k {} := by
  rw [getD_eq_getElem?_getD,List.getElem?_set]
  by_cases same : i = k
  · rw [if_pos same,if_pos (show i < table.length by omega),if_pos same.symm]
    rfl
  · rw [if_neg same,if_neg (Ne.symm same),getD_eq_getElem?_getD]

theorem getDMem {table : List Cluster} (size : table.length = 128) {i : Nat} (small : i < 64) : table.getD i {} ∈ table := by
  rw [getD_eq_getElem table {} (show i < table.length by omega)]
  exact getElem_mem _

structure Writes (table later : List Cluster) (clusterId : Int) (cluster : Cluster) : Prop where
  write : ∃ i < 64, later = table.set i cluster ∧
    (slotOf table clusterId = some i ∨ slotOf table clusterId = none ∧ (table.getD i {}).inUse = false)
  used : cluster.inUse = true
  named : cluster.clusterId = clusterId

theorem updatedWrites {table : List Cluster} (valid : ValidTable table) {clusterId : Int} (room : Room table clusterId)
    {f : Cluster → Cluster} (keeps : ∀ c, (f c).inUse = c.inUse ∧ (f c).clusterId = c.clusterId) :
    lookedUp table clusterId = clusterOf table clusterId ∧
    Writes table (updated table clusterId f) clusterId (f (clusterOf table clusterId)) := by
  have found := getClusterFound table clusterId
  unfold updated lookedUp
  generalize getCluster table clusterId = result at found ⊢
  cases found with
  | known slot =>
    rename_i i
    obtain ⟨small,used,named⟩ := slotUsed slot
    have here : clusterOf table clusterId = table.getD i {} := by
      unfold clusterOf
      rw [slot]
    rw [here]
    exact ⟨rfl,⟨_,small,rfl,.inl slot⟩,(keeps _).1.trans used,(keeps _).2.trans named⟩
  | claimed small unknown free =>
    rename_i i
    have blank : table.getD i {} = {} := valid.unused _ (getDMem valid.size small) free
    have here : clusterOf table clusterId = { inUse := true, clusterId := clusterId } := by
      unfold clusterOf
      rw [unknown]
    have looked : (table.set i { table.getD i {} with inUse := true, clusterId := clusterId }).getD i {} =
        { inUse := true, clusterId := clusterId } := by
      rw [getDSet valid.size small,if_pos rfl,blank]
    rw [looked,here,set_set]
    exact ⟨rfl,⟨i,small,rfl,.inr ⟨unknown,free⟩⟩,(keeps _).1,(keeps _).2⟩
  | full unknown none =>
    rcases room with known | ⟨i,small,free⟩
    · rw [unknown] at known
      cases known
    · exact absurd (free.symm.trans (none i small)) (by decide)

theorem slotCongr {table later : List Cluster} {clusterId : Int}
    (same : ∀ k < 64, ((later.getD k {}).inUse = true ∧ (later.getD k {}).clusterId = clusterId ↔
      (table.getD k {}).inUse = true ∧ (table.getD k {}).clusterId = clusterId)) : slotOf later clusterId = slotOf table clusterId := by
  unfold slotOf
  refine List.find?_congr (fun k member => ?_)
  exact decide_eq_decide.mpr (same k (mem_range.mp member))

theorem writesOther {table later : List Cluster} (valid : ValidTable table) {clusterId other : Int} {cluster : Cluster}
    (writes : Writes table later clusterId cluster) (apart : other ≠ clusterId) : clusterOf later other = clusterOf table other := by
  obtain ⟨⟨i,small,rfl,place⟩,used,named⟩ := writes
  have notHere : ¬ ((table.getD i {}).inUse = true ∧ (table.getD i {}).clusterId = other) := by
    rintro ⟨inUse,id⟩
    rcases place with slot | ⟨-,free⟩
    · exact apart (id.symm.trans (slotUsed slot).2.2)
    · exact absurd (free.symm.trans inUse) (by decide)
  have slots : slotOf (table.set i cluster) other = slotOf table other := by
    refine slotCongr (fun k bound => ?_)
    rw [getDSet valid.size small]
    split
    · rename_i same
      subst same
      exact ⟨fun new => absurd (new.2.symm.trans named) apart,fun old => absurd old notHere⟩
    · rfl
  unfold clusterOf
  rw [slots]
  split
  · rename_i k slot
    have elsewhere : k ≠ i := by
      rintro rfl
      exact notHere (slotUsed slot).2
    rw [getDSet valid.size small,if_neg elsewhere]
  · rfl

theorem writesSame {table later : List Cluster} (valid : ValidTable table) {clusterId : Int} {cluster : Cluster}
    (writes : Writes table later clusterId cluster) : clusterOf later clusterId = cluster := by
  obtain ⟨⟨i,small,rfl,place⟩,used,named⟩ := writes
  have slot : slotOf (table.set i cluster) clusterId = some i := by
    rcases place with known | ⟨unknown,free⟩
    · rw [← known]
      refine slotCongr (fun k bound => ?_)
      rw [getDSet valid.size small]
      split
      · rename_i same
        subst same
        exact ⟨fun _ => (slotUsed known).2,fun _ => ⟨used,named⟩⟩
      · rfl
    · have matching : ∃ k, slotOf (table.set i cluster) clusterId = some k := by
        refine Option.isSome_iff_exists.mp (List.find?_isSome.mpr ⟨i,mem_range.mpr small,?_⟩)
        rw [getDSet valid.size small,if_pos rfl]
        exact decide_eq_true ⟨used,named⟩
      obtain ⟨k,slot⟩ := matching
      obtain ⟨bound,inUse,id⟩ := slotUsed slot
      -- any other slot of this identifier would have been found before
      by_cases same : k = i
      · rw [slot,same]
      · rw [getDSet valid.size small,if_neg same] at inUse id
        have missed := List.find?_eq_none.mp unknown k (mem_range.mpr bound)
        exact absurd (decide_eq_true ⟨inUse,id⟩) missed
  unfold clusterOf
  rw [slot]
  dsimp only
  rw [getDSet valid.size small,if_pos rfl]

theorem joinsKeeps (sId asuFlags : Nat) (c : Cluster) :
    (joins sId asuFlags c).inUse = c.inUse ∧ (joins sId asuFlags c).clusterId = c.clusterId := ⟨rfl,rfl⟩

theorem countsKeeps (aswFlags : Nat) (c : Cluster) : (counts aswFlags c).inUse = c.inUse ∧ (counts aswFlags c).clusterId = c.clusterId := by
  unfold counts
  split <;> exact ⟨rfl,rfl⟩

theorem joinsServices {c : Cluster} (before : c.servicesSIDs.Nodup) (sId asuFlags : Nat) : (joins sId asuFlags c).servicesSIDs.Nodup := by
  unfold joins
  dsimp only
  split
  · exact before
  · rename_i new
    exact List.Nodup.append before (nodup_singleton sId) (by simpa using new)

theorem countsServices (aswFlags : Nat) (c : Cluster) : (counts aswFlags c).servicesSIDs = c.servicesSIDs := by
  unfold counts
  split <;> rfl

theorem validSet {table : List Cluster} (valid : ValidTable table) {c : Cluster} (used : c.inUse = true)
    (services : c.servicesSIDs.Nodup) (i : Nat) : ValidTable (table.set i c) where
  size := (length_set).trans valid.size
  unused := by
    intro other member free
    rcases mem_or_eq_of_mem_set member with old | rfl
    · exact valid.unused other old free
    · exact absurd (used.symm.trans free) (by decide)
  services := by
    intro other member
    rcases mem_or_eq_of_mem_set member with old | rfl
    · exact valid.services other old
    · exact services

theorem validUpdated {table : List Cluster} (valid : ValidTable table) (clusterId : Int) {f : Cluster → Cluster}
    (keeps : ∀ c, (f c).inUse = c.inUse ∧ (f c).clusterId = c.clusterId)
    (services : ∀ c, c.servicesSIDs.Nodup → (f c).servicesSIDs.Nodup) : ValidTable (updated table clusterId f) := by
  have found := getClusterFound table clusterId
  unfold updated lookedUp
  generalize getCluster table clusterId = result at found ⊢
  cases found with
  | known slot =>
    obtain ⟨small,used,-⟩ := slotUsed slot
    exact validSet valid ((keeps _).1.trans used) (services _ (valid.services _ (getDMem valid.size small))) _
  | claimed small unknown free =>
    rename_i i
    have old : ({ table.getD i {} with inUse := true, clusterId := clusterId } : Cluster).servicesSIDs.Nodup :=
      valid.services (table.getD i {}) (getDMem valid.size small)
    dsimp only
    rw [getDSet valid.size small,if_pos rfl,set_set]
    exact validSet valid (keeps _).1 (services _ old) _
  | full unknown none =>
    exact validSet valid ((keeps _).1.trans (none 0 (by decide)))
      (services _ (valid.services _ (getDMem valid.size (by decide)))) _

theorem validStep {table later : List Cluster} (step : TableStep table later) (valid : ValidTable table) : ValidTable later := by
  cases step with
  | joins clusterId sId asuFlags =>
    exact validUpdated valid clusterId (joinsKeeps sId asuFlags) (fun c before => joinsServices before sId asuFlags)
  | counts clusterId aswFlags =>
    refine validUpdated valid clusterId (countsKeeps aswFlags) (fun c before => ?_)
    rw [countsServices]
    exact before

theorem validKept : Invariant (fun _ => True) (fun c => ValidTable c.clusterTable) where
  initial := by
    refine ⟨length_replicate,fun c member _ => eq_of_mem_replicate member,fun c member => ?_⟩
    rw [eq_of_mem_replicate member]
    exact nodup_nil
  cleared valid := valid
  clusters step valid := validStep step valid
  stored := by
    intro d s cnFlag c _ stored valid
    cases stored <;> exact valid

section Operations

inductive Op where
  | join (cnFlag : Nat) (clusterId : Int) (sId asuFlags : Nat)
  | switch (cnFlag : Nat) (clusterId : Int) (aswFlags subChId : Nat)

namespace Op

def cnFlag : Op → Nat
  | join cnFlag _ _ _ => cnFlag
  | switch cnFlag _ _ _ => cnFlag

def clusterId : Op → Int
  | join _ clusterId _ _ => clusterId
  | switch _ clusterId _ _ => clusterId

def change : Op → Cluster → Cluster
  | join _ _ sId asuFlags => joins sId asuFlags
  | switch _ _ aswFlags _ => counts aswFlags

end Op

def apply (s : FibDecoder) : Op → FibDecoder
  | .join cnFlag clusterId sId asuFlags => setCluster s cnFlag clusterId sId asuFlags
  | .switch cnFlag clusterId aswFlags subChId => switchAnnouncement s cnFlag clusterId aswFlags subChId

def announces (s : FibDecoder) : Op → List Announced
  | .join _ _ _ _ => []
  | .switch cnFlag clusterId aswFlags _ =>
    switchAnnounces (clusterOf (s.getConfig cnFlag).clusterTable clusterId) clusterId aswFlags

def clusterIn (s : FibDecoder) (cnFlag : Nat) (clusterId : Int) : Cluster := clusterOf (s.getConfig cnFlag).clusterTable clusterId

/- There is a slot for the cluster; a service joins before it is announced or is in already; an
announcement ends before it is counted or after it was started, and not while the other
configuration announces the cluster. -/
def Orderly (s : FibDecoder) (op : Op) : Prop :=
  Room (s.getConfig op.cnFlag).clusterTable op.clusterId ∧
  match op with
  | .join cnFlag clusterId sId _ =>
    sId ∈ (s.clusterIn cnFlag clusterId).servicesSIDs ∨ (s.clusterIn cnFlag clusterId).announcing < 5
  | .switch cnFlag clusterId aswFlags _ =>
    ((s.clusterIn cnFlag clusterId).flags &&& aswFlags ≠ 0 ∨ (s.clusterIn cnFlag clusterId).announcing = 0 ∨
      5 ≤ (s.clusterIn cnFlag clusterId).announcing) ∧
    (s.clusterIn (if cnFlag = 0 then 1 else 0) clusterId).announcing < 5

instance (s op) : Decidable (Orderly s op) := by
  unfold Orderly
  cases op <;> infer_instance

def on (c : Cluster) (sId : Nat) : Bool := 5 ≤ c.announcing ∧ sId ∈ c.servicesSIDs

def plays (s : FibDecoder) (clusterId : Int) (sId : Nat) : Bool := on (s.clusterIn 0 clusterId) sId || on (s.clusterIn 1 clusterId) sId

def kindsOf (clusterId : Int) (sId : Nat) (list : List Announced) : List Bool :=
  (list.filter (fun a => a.clusterId = clusterId ∧ a.sId = sId)).map Announced.started

theorem kindsOther {clusterId other : Int} (apart : other ≠ clusterId) (sId : Nat) (services : List Nat) (started : Bool) :
    kindsOf other sId (services.map (fun sId => ⟨clusterId,sId,started⟩)) = [] := by
  unfold kindsOf
  rw [map_eq_nil_iff,filter_eq_nil_iff,forall_mem_map]
  intro _ _ same
  exact apart (of_decide_eq_true same).1.symm

theorem kindsSame {services : List Nat} (distinct : services.Nodup) (clusterId : Int) (sId : Nat) (started : Bool) :
    kindsOf clusterId sId (services.map (fun sId => ⟨clusterId,sId,started⟩)) = if sId ∈ services then [started] else [] := by
  have same : kindsOf clusterId sId (services.map (fun sId => ⟨clusterId,sId,started⟩)) =
      (services.filter (fun x => x = sId)).map (fun _ => started) := by
    unfold kindsOf
    rw [filter_map,map_map]
    simp [Function.comp_def]
  rw [same,filter_eq sId,distinct.count]
  split <;> rfl

section Cluster
variable {c : Cluster} {sId : Nat}

theorem joinsOn {joining asuFlags : Nat} (orderly : joining ∈ c.servicesSIDs ∨ c.announcing < 5) :
    on (joins joining asuFlags c) sId = on c sId := by
  unfold on joins
  dsimp only
  rcases orderly with inside | early
  · rw [if_pos inside]
  · rw [decide_eq_decide]
    exact ⟨fun later => absurd later.1 (by omega),fun before => absurd before.1 (by omega)⟩

theorem offEarly (early : c.announcing < 5) : on c sId = false := decide_eq_false (fun both => absurd both.1 (by omega))

theorem onLate (late : 5 ≤ c.announcing) : on c sId = decide (sId ∈ c.servicesSIDs) := by
  unfold on
  simp [late]

open Lib.Bracket (Switches)

theorem countsSwitches (distinct : c.servicesSIDs.Nodup) {aswFlags : Nat} (clusterId : Int)
    (orderly : c.flags &&& aswFlags ≠ 0 ∨ c.announcing = 0 ∨ 5 ≤ c.announcing) :
    Switches (on c sId) (on (counts aswFlags c) sId) (kindsOf clusterId sId (switchAnnounces c clusterId aswFlags)) := by
  unfold switchAnnounces counts
  by_cases active : c.flags &&& aswFlags ≠ 0
  · rw [if_pos active,if_pos active]
    by_cases fifth : c.announcing + 1 = 5
    · have before : on c sId = false := offEarly (by omega)
      have after : on { c with announcing := c.announcing + 1 } sId = decide (sId ∈ c.servicesSIDs) := onLate (by dsimp only; omega)
      rw [if_pos fifth,kindsSame distinct,before,after]
      by_cases member : sId ∈ c.servicesSIDs
      · rw [if_pos member]
        exact .starts rfl (decide_eq_true member)
      · rw [if_neg member]
        exact .silent (decide_eq_false member)
    · rw [if_neg fifth]
      refine .silent (decide_eq_decide.mpr ?_)
      dsimp only
      rw [show 5 ≤ c.announcing + 1 ↔ 5 ≤ c.announcing by omega]
  · rw [if_neg active,if_neg active]
    have after : on { c with announcing := 0 } sId = false := offEarly (show 0 < 5 by decide)
    rcases orderly.resolve_left active with zero | late
    · rw [if_neg (by omega),after]
      exact .silent (offEarly (by omega)).symm
    · rw [if_pos (by omega),kindsSame distinct,after,onLate late]
      by_cases member : sId ∈ c.servicesSIDs
      · rw [if_pos member]
        exact .stops (decide_eq_true member) rfl
      · rw [if_neg member]
        exact .silent (decide_eq_false member).symm

end Cluster

def Sound (s : FibDecoder) : Prop := 4 ≤ s.fibLoadingState.rank ∧ BothConfigs (fun c => ValidTable c.clusterTable) s

theorem applyExact {s : FibDecoder} (loaded : 4 ≤ s.fibLoadingState.rank) (op : Op) : ∃ signals, s.apply op =
    { s.setConfig op.cnFlag { s.getConfig op.cnFlag with
        clusterTable := updated (s.getConfig op.cnFlag).clusterTable op.clusterId op.change } with signals := signals } := by
  cases op with
  | join cnFlag clusterId sId asuFlags =>
    unfold apply
    dsimp only
    rw [setClusterExact,if_neg (not_lt.mpr loaded)]
    exact ⟨_,rfl⟩
  | switch => exact ⟨_,switchAnnouncementExact _ _ _ _ _⟩

variable {s : FibDecoder}

theorem applyState (loaded : 4 ≤ s.fibLoadingState.rank) (op : Op) : (s.apply op).fibLoadingState = s.fibLoadingState ∧
    (s.apply op).fig1 = s.fig1 ∧ (s.apply op).restartFibDecoding = s.restartFibDecoding := by
  obtain ⟨signals,same⟩ := applyExact loaded op
  rw [same]
  unfold setConfig
  split <;> exact ⟨rfl,rfl,rfl⟩

theorem soundKept (sound : Sound s) (op : Op) : Sound (s.apply op) := by
  have state := (applyState sound.1 op).1
  obtain ⟨signals,same⟩ := applyExact sound.1 op
  refine ⟨state ▸ sound.1,?_⟩
  have valid := bothConfigsGet sound.2 op.cnFlag
  rw [same]
  refine bothConfigsSet sound.2 op.cnFlag (validStep ?_ valid)
  cases op with
  | join => exact .joins _ _ _
  | switch => exact .counts _ _

theorem changeKeeps (op : Op) (c : Cluster) : (op.change c).inUse = c.inUse ∧ (op.change c).clusterId = c.clusterId := by
  cases op with
  | join => exact joinsKeeps _ _ c
  | switch => exact countsKeeps _ c

theorem applySame (sound : Sound s) {op : Op} (room : Room (s.getConfig op.cnFlag).clusterTable op.clusterId) :
    (s.apply op).clusterIn op.cnFlag op.clusterId = op.change (s.clusterIn op.cnFlag op.clusterId) := by
  have valid := bothConfigsGet sound.2 op.cnFlag
  obtain ⟨signals,same⟩ := applyExact sound.1 op
  unfold clusterIn
  rw [same]
  refine Eq.trans ?_ (writesSame valid (updatedWrites valid room (changeKeeps op)).2)
  exact congrArg (fun c : FibConfigFig0 => clusterOf c.clusterTable op.clusterId) (getSet s op.cnFlag _)

theorem applyOther (sound : Sound s) {op : Op} (room : Room (s.getConfig op.cnFlag).clusterTable op.clusterId) {other : Int}
    (apart : other ≠ op.clusterId) (cnFlag : Nat) : (s.apply op).clusterIn cnFlag other = s.clusterIn cnFlag other := by
  obtain ⟨signals,same⟩ := applyExact sound.1 op
  have config : (s.apply op).getConfig cnFlag = (s.setConfig op.cnFlag { s.getConfig op.cnFlag with
      clusterTable := updated (s.getConfig op.cnFlag).clusterTable op.clusterId op.change }).getConfig cnFlag := by
    rw [same]
    rfl
  unfold clusterIn
  rw [config]
  by_cases here : op.cnFlag = 0 ↔ cnFlag = 0
  · have equal : ∀ t : FibDecoder, t.getConfig cnFlag = t.getConfig op.cnFlag := fun t => if_congr here.symm rfl rfl
    have valid := bothConfigsGet sound.2 op.cnFlag
    rw [equal,equal,getSet]
    exact writesOther valid (updatedWrites valid room (changeKeeps op)).2 apart
  · rw [getSetOther s _ here]

theorem applyElsewhere (sound : Sound s) (op : Op) {cnFlag : Nat} (elsewhere : ¬ (op.cnFlag = 0 ↔ cnFlag = 0)) (clusterId : Int) :
    (s.apply op).clusterIn cnFlag clusterId = s.clusterIn cnFlag clusterId := by
  obtain ⟨signals,same⟩ := applyExact sound.1 op
  unfold clusterIn
  rw [same]
  exact congrArg (fun c : FibConfigFig0 => clusterOf c.clusterTable clusterId) (getSetOther s _ elsewhere)

theorem playsFrom (s : FibDecoder) (cnFlag : Nat) (clusterId : Int) (sId : Nat) : s.plays clusterId sId =
    (on (s.clusterIn cnFlag clusterId) sId || on (s.clusterIn (if cnFlag = 0 then 1 else 0) clusterId) sId) := by
  unfold plays
  by_cases current : cnFlag = 0
  · rw [if_pos current,current]
  · have next : s.clusterIn cnFlag clusterId = s.clusterIn 1 clusterId := by
      unfold clusterIn getConfig
      rw [if_neg current]
      rfl
    rw [if_neg current,next,Bool.or_comm]

theorem servicesDistinct (sound : Sound s) (cnFlag : Nat) (clusterId : Int) : (s.clusterIn cnFlag clusterId).servicesSIDs.Nodup := by
  have valid := bothConfigsGet sound.2 cnFlag
  unfold clusterIn clusterOf
  split
  · rename_i slot
    exact valid.services _ (getDMem valid.size (slotUsed slot).1)
  · exact nodup_nil

open Lib.Bracket

theorem otherConfig (cnFlag : Nat) : ¬ (cnFlag = 0 ↔ (if cnFlag = 0 then 1 else 0) = 0) := by split <;> rename_i current <;> simp [current]

theorem applySwitches {op : Op} (sound : Sound s) (orderly : Orderly s op) (clusterId : Int) (sId : Nat) :
    Switches (s.plays clusterId sId) ((s.apply op).plays clusterId sId) (kindsOf clusterId sId (s.announces op)) := by
  by_cases same : clusterId = op.clusterId
  · subst same
    have here := applySame sound orderly.1
    have elsewhere := applyElsewhere sound op (otherConfig op.cnFlag) op.clusterId
    rw [playsFrom s op.cnFlag,playsFrom (s.apply op) op.cnFlag,here,elsewhere]
    cases op with
    | join cnFlag clusterId joining asuFlags =>
      have kept : on (joins joining asuFlags (s.clusterIn cnFlag clusterId)) sId = on (s.clusterIn cnFlag clusterId) sId :=
        joinsOn orderly.2
      exact .silent (congrArg (fun now => now || _) kept)
    | switch cnFlag clusterId aswFlags subChId =>
      obtain ⟨-,steady,apart⟩ := orderly
      have off : on (s.clusterIn (if cnFlag = 0 then 1 else 0) clusterId) sId = false := offEarly apart
      show Switches (on (s.clusterIn cnFlag clusterId) sId || on (s.clusterIn (if cnFlag = 0 then 1 else 0) clusterId) sId)
        (on (counts aswFlags (s.clusterIn cnFlag clusterId)) sId ||
          on (s.clusterIn (if cnFlag = 0 then 1 else 0) clusterId) sId) _
      rw [off,Bool.or_false,Bool.or_false]
      exact countsSwitches (servicesDistinct sound cnFlag clusterId) clusterId steady
  · have silent : kindsOf clusterId sId (s.announces op) = [] := by
      cases op with
      | join => rfl
      | switch cnFlag other aswFlags subChId =>
        show kindsOf clusterId sId (switchAnnounces _ _ _) = []
        unfold switchAnnounces
        split
        · split
          · exact kindsOther same sId _ true
          · rfl
        · split
          · exact kindsOther same sId _ false
          · rfl
    rw [silent]
    refine .silent ?_
    unfold plays
    rw [applyOther sound orderly.1 same,applyOther sound orderly.1 same]

end Operations

section Figs
open Lib.Bracket

def joinOps (d : Bits) (fh : FigHeader) : Nat → Nat → List Op
  | 0, _ => []
  | fuel + 1, bitOffset =>
    if bitOffset ≤ fh.length * 8 then
      let nrClusters := getBits d (bitOffset + 37) 3
      (range nrClusters).filterMap (fun i =>
        let clusterId := getBits d (bitOffset + 40 + 8 * i) 8
        if clusterId = 0 then none
        else some (.join fh.cnFlag clusterId (getBits d bitOffset 16) (getBits d (bitOffset + 16) 16))) ++
      joinOps d fh fuel (bitOffset + 40 + nrClusters * 8)
    else []

def switchOps (d : Bits) (fh : FigHeader) : Nat → Nat → List Op
  | 0, _ => []
  | fuel + 1, bitOffset =>
    if bitOffset ≤ fh.length * 8 then
      .switch fh.cnFlag (getBits d bitOffset 8) (getBits d (bitOffset + 8) 16) (getBits d (bitOffset + 26) 6) ::
      switchOps d fh fuel (bitOffset + if getBits d (bitOffset + 25) 1 = 1 then 40 else 32)
    else []

def opsOf (d : Bits) : List Op := if getBits5 d 11 = 18 then joinOps d (getFigHeader d) 32 16 else switchOps d (getFigHeader d) 32 16

def IsAnnouncement (d : Bits) : Prop := getBits3 d 0 = 0 ∧ (getBits5 d 11 = 18 ∨ getBits5 d 11 = 19)

instance (d) : Decidable (IsAnnouncement d) := by unfold IsAnnouncement; infer_instance

theorem joinsApplied (d : Bits) (fh : FigHeader) (fuel : Nat) (s : FibDecoder) (bitOffset : Nat) :
    fig0s18Loop d fh fuel s bitOffset = (joinOps d fh fuel bitOffset).foldl apply s := by
  induction fuel generalizing s bitOffset with
  | zero => rfl
  | succ fuel ih =>
    unfold fig0s18Loop joinOps
    split
    · dsimp only
      rw [foldl_append,← ih,foldl_filterMap]
      congr 1
      refine congrArg (fun f => List.foldl f s _) (funext fun t => funext fun i => ?_)
      split <;> rfl
    · rfl

theorem switchesApplied (d : Bits) (fh : FigHeader) (fuel : Nat) {s : FibDecoder} (loaded : 4 ≤ s.fibLoadingState.rank)
    (bitOffset : Nat) : fig0s19Loop d fh fuel s bitOffset = (switchOps d fh fuel bitOffset).foldl apply s := by
  induction fuel generalizing s bitOffset with
  | zero => rfl
  | succ fuel ih =>
    unfold fig0s19Loop switchOps
    split
    · rw [if_neg (not_lt.mpr loaded),foldl_cons]
      have still := (applyState loaded (.switch fh.cnFlag (getBits d bitOffset 8) (getBits d (bitOffset + 8) 16)
        (getBits d (bitOffset + 26) 6))).1
      exact ih (still ▸ loaded) _
    · rfl

variable (toQString : Nat → List Nat → List Nat)

theorem figApplied {s : FibDecoder} (loaded : 4 ≤ s.fibLoadingState.rank) {d : Bits}
    (announcement : IsAnnouncement d) : processFig toQString s d = (opsOf d).foldl apply s := by
  obtain ⟨typed,extension⟩ := announcement
  unfold processFig processFig0 opsOf
  rw [typed]
  rcases extension with joins | switches
  · rw [joins]
    exact (if_neg (by simp)).trans (joinsApplied d _ 32 s 16)
  · rw [switches]
    exact (if_neg (by simp)).trans (switchesApplied d _ 32 loaded 16)

theorem opsLoaded {s : FibDecoder} (loaded : 4 ≤ s.fibLoadingState.rank) (ops : List Op) :
    4 ≤ (ops.foldl apply s).fibLoadingState.rank := by
  induction ops generalizing s with
  | nil => exact loaded
  | cons op ops ih => exact ih ((applyState loaded op).1 ▸ loaded)

theorem figsApplied {s : FibDecoder} (loaded : 4 ≤ s.fibLoadingState.rank) {figs : List Bits} (all : ∀ d ∈ figs, IsAnnouncement d) :
    figs.foldl (processFig toQString) s = (figs.flatMap opsOf).foldl apply s := by
  induction figs generalizing s with
  | nil => rfl
  | cons d figs ih =>
    rw [forall_mem_cons] at all
    rw [foldl_cons,flatMap_cons,foldl_append,figApplied toQString loaded all.1]
    exact ih (opsLoaded loaded _) all.2

def signalsOf (s : FibDecoder) (op : Op) : List Signal :=
  match op with
  | .join _ _ _ _ => []
  | .switch _ _ _ subChId => (s.announces op).map (announcement s.fig1 subChId)

theorem applySignals {s : FibDecoder} (sound : Sound s) {op : Op} (orderly : Orderly s op) :
    (s.apply op).signals = s.signals ++ s.signalsOf op := by
  cases op with
  | join cnFlag clusterId sId asuFlags =>
    unfold apply signalsOf
    dsimp only
    rw [setClusterExact,if_neg (not_lt.mpr sound.1),setConfigSignals]
  | switch cnFlag clusterId aswFlags subChId =>
    have valid := bothConfigsGet sound.2 cnFlag
    have looked := (updatedWrites valid orderly.1 (countsKeeps aswFlags)).1
    unfold apply signalsOf announces
    dsimp only [Op.cnFlag,Op.clusterId] at looked ⊢
    rw [switchAnnouncementExact,looked]

theorem opsSignals {s : FibDecoder} (sound : Sound s) {ops : List Op} (orderly : Along apply Orderly s ops) :
    (ops.foldl apply s).signals = s.signals ++ emitted apply signalsOf s ops := by
  induction ops generalizing s with
  | nil => exact (append_nil _).symm
  | cons op ops ih =>
    rw [foldl_cons,ih (soundKept sound op) orderly.2,applySignals sound orderly.1,emitted,append_assoc]

def Apart (s : FibDecoder) (op : Op) : Prop :=
  ∀ clusterId ≠ op.clusterId, ∀ cnFlag, (s.apply op).clusterIn cnFlag clusterId = s.clusterIn cnFlag clusterId

theorem opsApart {s : FibDecoder} (sound : Sound s) {ops : List Op} (orderly : Along apply Orderly s ops) : Along apply Apart s ops := by
  induction ops generalizing s with
  | nil => trivial
  | cons op ops ih =>
    exact ⟨fun _ apart cnFlag => applyOther sound orderly.1.1 apart cnFlag,ih (soundKept sound op) orderly.2⟩

theorem announcementsBracketed (toQString : Nat → List Nat → List Nat) (events : List Event) {s : FibDecoder}
    (reached : s = run toQString {} events) (loaded : 4 ≤ s.fibLoadingState.rank)
    (off : ∀ cnFlag clusterId, (s.clusterIn cnFlag clusterId).announcing < 5) {figs : List Bits}
    (all : ∀ d ∈ figs, IsAnnouncement d) (orderly : Along apply Orderly s (figs.flatMap opsOf)) :
    (figs.foldl (processFig toQString) s).signals = s.signals ++ emitted apply signalsOf s (figs.flatMap opsOf) ∧
    (∀ clusterId sId, Alternates false (kindsOf clusterId sId (emitted apply announces s (figs.flatMap opsOf)))) ∧
    Along apply Apart s (figs.flatMap opsOf) := by
  have valid := startKeeps validKept toQString (fun _ _ _ _ => trivial : AllFigs (fun _ => True) events)
  have sound : Sound s := ⟨loaded,reached ▸ valid⟩
  refine ⟨?_,fun clusterId sId => ?_,opsApart sound orderly⟩
  · rw [figsApplied toQString loaded all]
    exact opsSignals sound orderly
  · have quiet : s.plays clusterId sId = false := by
      unfold plays
      rw [offEarly (off 0 clusterId),offEarly (off 1 clusterId)]
      rfl
    have split : ∀ a b, kindsOf clusterId sId (a ++ b) = kindsOf clusterId sId a ++ kindsOf clusterId sId b := by
      intro a b
      unfold kindsOf
      rw [filter_append,map_append]
    have each : ∀ {s op}, Sound s → Orderly s op →
        Switches (s.plays clusterId sId) ((s.apply op).plays clusterId sId) (kindsOf clusterId sId (s.announces op)) :=
      fun sound orderly => applySwitches sound orderly clusterId sId
    rw [← quiet]
    exact @runAlternates _ _ _ apply announces Orderly Sound (fun s => s.plays clusterId sId) (kindsOf clusterId sId)
      split (fun sound => soundKept sound _) each s _ sound orderly

def loaded : FibDecoder := run Multiplex.plainText {} [.timerCheckStateAndPrintFigs]

def joinFig (sId : Nat) : Bits := Multiplex.fibOf [0x07,0x12,sId / 256,sId % 256,0x00,0x01,0x01,0x01]
def onFig : Bits := Multiplex.fibOf [0x05,0x13,0x01,0x00,0x01,0x05]
def offFig : Bits := Multiplex.fibOf [0x05,0x13,0x01,0x00,0x00,0x05]

def announced (figs : List Bits) (sId : Nat) : List Bool := kindsOf 1 sId (emitted apply announces loaded (figs.flatMap opsOf))

theorem offEverywhere (cnFlag : Nat) (clusterId : Int) : (loaded.clusterIn cnFlag clusterId).announcing < 5 := by
  have blank : (loaded.getConfig cnFlag).clusterTable = replicate 128 {} := by
    unfold getConfig
    split <;> rfl
  unfold clusterIn clusterOf
  rw [blank]
  split
  · rename_i slot
    rw [getD_replicate _ ((slotUsed slot).1.trans (by decide))]
    decide
  · exact show 0 < 5 by decide

theorem fiveCounts : announced [joinFig 0x1234,onFig,onFig,onFig,onFig,onFig,offFig] 0x1234 = [true,false] ∧
    Alternates false (announced [joinFig 0x1234,onFig,onFig,onFig,onFig,onFig,offFig] 0x1234) :=
  ⟨by decide,(announcementsBracketed Multiplex.plainText [.timerCheckStateAndPrintFigs] rfl (by decide) offEverywhere
    (by decide) (by decide)).2.1 1 0x1234⟩

def crowded : FibDecoder := (range 64).foldl (fun s i => s.apply (.join 0 (i + 1) 0x1234 1)) loaded

theorem stopsWithoutStart : announced [joinFig 0x1234,onFig,offFig] 0x1234 = [false] ∧
    announced [joinFig 0x1234,onFig,onFig,onFig,onFig,onFig,joinFig 0x5678,offFig] 0x5678 = [false] ∧
    (([joinFig 0x1234,onFig,offFig].foldl (processFig Multiplex.plainText) loaded).signals = loaded.signals ++ [.stopAnnouncement [] 5]) ∧
    (crowded.apply (.join 0 65 0x5678 2)).clusterIn 0 1 ≠ crowded.clusterIn 0 1 := by decide +kernel

end Figs

end DabStar.Fib.FibDecoder
