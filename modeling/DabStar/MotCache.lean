import DabStar.MotHandler
import DabStar.Lib.RingTable

/-! The table of MOT objects as a cache: it holds the last fifteen objects that were set,
whatever the requests. Every object is set right after it was created, so the order number
tells objects apart. -/
namespace DabStar.MotHandler
open List Lib.RingTable

inductive Call where
  | pair (transportId : Nat) (h : MotObject)
  | add (transportId : Nat) (change : MotObject → MotObject)

def answer (s : MotHandler) : Call → MotHandler
  | .pair transportId h => match s.getHandle transportId with
    | some _ => s
    | none => s.setHandle h transportId
  | .add transportId change => match s.getHandle transportId with
    | some handle => (s.addAt handle fun h => (change h, [])).1
    | none => s

def deletes (s : MotHandler) : Option Nat :=
  match s.mMotTable.findIdx? Option.isNone with
  | some _ => none
  | none => (s.mMotTable.getD s.oldestSlot none).map SMotTable.orderNumber

def deletion (s : MotHandler) : Call → Option Nat
  | .pair transportId _ => match s.getHandle transportId with
    | some _ => none
    | none => s.deletes
  | .add _ _ => none

def serve (acc : MotHandler × List Nat) (c : Call) : MotHandler × List Nat := (acc.1.answer c, acc.2 ++ (acc.1.deletion c).toList)

def served (calls : List Call) : MotHandler × List Nat := calls.foldl serve ({}, [])

abbrev Log := List (Nat × MotObject)

def Kept (log : Log) (transportId : Nat) : Prop := transportId ∈ (log.drop (log.length - 15)).map Prod.fst
  deriving Decidable

def logged (log : Log) : Call → Log
  | .pair transportId h => if Kept log transportId then log else log ++ [(transportId, h)]
  | .add transportId change => log.mapIdx fun k e => if log.length ≤ k + 15 ∧ e.1 = transportId then (e.1, change e.2) else e

def logOf (calls : List Call) : Log := calls.foldl logged []

def Latest (log : Log) (transportId k : Nat) : Prop :=
  (log[k]?).map Prod.fst = some transportId ∧ ∀ l, k < l → (log[l]?).map Prod.fst ≠ some transportId

def setAfter (log : Log) (k : Nat) : Finset Nat := ((log.drop (k + 1)).map Prod.fst).toFinset

section Cached
variable {e : Nat × MotObject} {transportId : Nat} {k : Nat}

def slotOf (number : Nat) (e : Nat × MotObject) : SMotTable := ⟨e.1,number,e.2⟩

structure Cached (log : Log) (gone : List Nat) (s : MotHandler) : Prop where
  noDirectory : s.mpDirectory = none
  count : s.mOrderNumber = log.length
  table : s.mMotTable = ring 15 slotOf log
  apart : ∀ {j k e f}, log[j]? = some e → log[k]? = some f → j < k → k ≤ j + 15 → e.1 ≠ f.1
  deleted : gone = range (log.length - 15)

variable {log : Log} {gone : List Nat} {s : MotHandler}

theorem keptIff : Kept log transportId ↔ ∃ k e, log[k]? = some e ∧ log.length ≤ k + 15 ∧ e.1 = transportId := by
  unfold Kept
  rw [mem_map]
  constructor
  · rintro ⟨e,member,same⟩
    obtain ⟨i,here⟩ := mem_iff_getElem?.mp member
    rw [List.getElem?_drop] at here
    exact ⟨_,e,here,by omega,same⟩
  · rintro ⟨k,e,here,recent,same⟩
    refine ⟨e,mem_iff_getElem?.mpr ⟨k - (log.length - 15),?_⟩,same⟩
    rw [List.getElem?_drop,Nat.add_sub_cancel' (by omega),here]

theorem cachedSlot (cached : Cached log gone s) (here : log[k]? = some e) (recent : log.length ≤ k + 15) :
    s.mMotTable[k % 15]? = some (some (slotOf k e)) := by
  rw [cached.table,ringSlot (Nat.mod_lt k (by decide))]
  exact ⟨k,e,here,rfl,recent,rfl⟩

theorem cachedSame (cached : Cached log gone s) {j k : Nat} {e f : Nat × MotObject} (first : log[j]? = some e) (second : log[k]? = some f)
    (recentFirst : log.length ≤ j + 15) (recentSecond : log.length ≤ k + 15) (same : e.1 = f.1) : j = k := by
  have below := (List.getElem?_eq_some_iff.mp first).1
  have belowSecond := (List.getElem?_eq_some_iff.mp second).1
  rcases Nat.lt_trichotomy j k with less | equal | more
  · exact absurd same (cached.apart first second less (by omega))
  · exact equal
  · exact absurd same.symm (cached.apart second first more (by omega))

theorem slotNamed (cached : Cached log gone s) {i transportId : Nat} {x : Option SMotTable} (here : s.mMotTable[i]? = some x)
    (hit : x.any (fun mt => mt.transportId = transportId) = true) :
    ∃ k e, log[k]? = some e ∧ k % 15 = i ∧ log.length ≤ k + 15 ∧ e.1 = transportId := by
  cases x with
  | none => cases hit
  | some mt =>
    rw [cached.table] at here
    have inside := (List.getElem?_eq_some_iff.mp here).1
    rw [ringLength] at inside
    obtain ⟨k,e,found,slot,recent,rfl⟩ := (ringSlot inside).mp here
    exact ⟨k,e,found,slot,recent,of_decide_eq_true hit⟩

theorem handleKept (cached : Cached log gone s) (here : log[k]? = some e) (recent : log.length ≤ k + 15) :
    s.getHandle e.1 = some (.table (k % 15)) := by
  obtain ⟨inside,content⟩ := List.getElem?_eq_some_iff.mp (cachedSlot cached here recent)
  have found : s.mMotTable.findIdx? (fun mt => mt.any (fun mt => mt.transportId = e.1)) = some (k % 15) := by
    refine List.findIdx?_eq_some_iff_getElem.mpr ⟨inside,by rw [content]; exact decide_eq_true rfl,fun j less hit => ?_⟩
    obtain ⟨l,f,other,slot,near,named⟩ := slotNamed cached (List.getElem?_eq_getElem (less.trans inside)) hit
    rw [cachedSame cached other here near recent named] at slot
    omega
  unfold getHandle
  rw [found]

theorem handleGone (cached : Cached log gone s) (unkept : ¬ Kept log transportId) : s.getHandle transportId = none := by
  have found : s.mMotTable.findIdx? (fun mt => mt.any (fun mt => mt.transportId = transportId)) = none := by
    rw [List.findIdx?_eq_none_iff]
    intro x member
    obtain ⟨i,here⟩ := mem_iff_getElem?.mp member
    by_contra hit
    obtain ⟨k,e,known,-,recent,named⟩ := slotNamed cached here (Bool.eq_true_of_not_eq_false hit)
    exact unkept (keptIff.mpr ⟨k,e,known,recent,named⟩)
  unfold getHandle
  rw [found,cached.noDirectory]

theorem oldestNext (cached : Cached log gone s) (full : 15 ≤ log.length) : s.oldestSlot = log.length % 15 ∧
    (s.mMotTable.getD s.oldestSlot none).map SMotTable.orderNumber = some (log.length - 15) := by
  obtain ⟨e,first⟩ : ∃ e, log[log.length - 15]? = some e := ⟨_,List.getElem?_eq_getElem (by omega)⟩
  have slot := cachedSlot cached first (by omega)
  have place : (log.length - 15) % 15 = log.length % 15 := by omega
  rw [place] at slot
  have ranks : s.oldestSlot = ((range s.mMotTable.length).foldl
      (lowest fun i => (s.mMotTable.getD i none).map SMotTable.orderNumber) (s.mOrderNumber, 0)).2 := by
    unfold oldestSlot lowest
    congr 2
    funext acc i
    dsimp only
    cases s.mMotTable.getD i none <;> rfl
  have here : (s.mMotTable.getD (log.length % 15) none).map SMotTable.orderNumber = some (log.length - 15) := by
    rw [getD_eq_getElem?_getD,slot]
    rfl
  have higher : ∀ i ∈ range 15, i ≠ log.length % 15 → ∀ order,
      (s.mMotTable.getD i none).map SMotTable.orderNumber = some order → log.length - 15 < order := by
    intro i member other order ranked
    have inside := mem_range.mp member
    obtain ⟨mt,content,rfl⟩ := Option.map_eq_some_iff.mp ranked
    rw [getD_eq_getElem _ _ (by rw [cached.table,ringLength]; exact inside)] at content
    have filled : s.mMotTable[i]? = some (some mt) := by rw [← content,List.getElem?_eq_getElem]
    rw [cached.table] at filled
    obtain ⟨k,f,-,onSlot,recent,rfl⟩ := (ringSlot inside).mp filled
    show log.length - 15 < k
    omega
  have oldest : s.oldestSlot = log.length % 15 := by
    have size : s.mMotTable.length = 15 := by rw [cached.table,ringLength]
    have lower : log.length - 15 < s.mOrderNumber := by rw [cached.count]; exact Nat.sub_lt (by omega) (by decide)
    rw [ranks,size,lowestFound (range 15) _ (mem_range.mpr (Nat.mod_lt _ (by decide))) here lower higher]
  exact ⟨oldest,oldest.symm ▸ here⟩

theorem setHandleNext (cached : Cached log gone s) (h : MotObject) (transportId : Nat) : s.setHandle h transportId =
    { s with mOrderNumber := s.mOrderNumber + 1
             mMotTable := s.mMotTable.set (log.length % 15) (some (slotOf log.length (transportId, h))) } := by
  have slot : (s.mMotTable.findIdx? Option.isNone).getD s.oldestSlot = log.length % 15 := by
    rw [cached.table,ringFirstFree]
    split
    · rename_i room
      exact (Nat.mod_eq_of_lt room).symm
    · rename_i full
      exact (oldestNext cached (by omega)).1
  unfold setHandle
  rw [slot,cached.count]
  rfl

theorem setHandleCached (cached : Cached log gone s) (unkept : ¬ Kept log transportId) (h : MotObject) :
    Cached (log ++ [(transportId, h)]) (gone ++ s.deletes.toList) (s.setHandle h transportId) := by
  have next := setHandleNext cached h transportId
  constructor
  · exact cached.noDirectory
  · rw [length_append,length_singleton,← cached.count]
    rfl
  · rw [next,ringAppend,← cached.table]
  · intro j k e f first second less near
    have last := (List.getElem?_eq_some_iff.mp second).1
    rw [length_append,length_singleton] at last
    by_cases new : k = log.length
    · subst new
      rw [List.getElem?_append_left less] at first
      rw [List.getElem?_append_right (le_refl _),Nat.sub_self] at second
      cases second
      exact fun same => unkept (keptIff.mpr ⟨j,e,first,near,same⟩)
    · rw [List.getElem?_append_left (by omega)] at first second
      exact cached.apart first second less near
  · unfold deletes
    rw [cached.table,ringFirstFree,← cached.table,cached.deleted,length_append,length_singleton]
    by_cases room : log.length < 15
    · have none : log.length - 15 = 0 := by omega
      have still : log.length + 1 - 15 = 0 := by omega
      rw [if_pos room,none,still]
      rfl
    · have one : log.length + 1 - 15 = log.length - 15 + 1 := by omega
      rw [if_neg room,one,range_succ]
      dsimp only
      rw [(oldestNext cached (by omega)).2]
      rfl

theorem changeLogged (cached : Cached log gone s) (here : log[k]? = some e) (recent : log.length ≤ k + 15)
    (change : MotObject → MotObject) : logged log (.add e.1 change) = log.set k (e.1, change e.2) := by
  have below := (List.getElem?_eq_some_iff.mp here).1
  refine ext_getElem? fun l => ?_
  unfold logged
  rw [List.getElem?_mapIdx]
  by_cases same : k = l
  · subst same
    rw [List.getElem?_set_self below,here,Option.map_some,if_pos ⟨recent,rfl⟩]
  · rw [List.getElem?_set_ne same]
    cases other : log[l]? with
    | none => rfl
    | some f =>
      have apart : ¬ (log.length ≤ l + 15 ∧ f.1 = e.1) := fun both => same (cachedSame cached here other recent both.1 both.2.symm)
      rw [Option.map_some,if_neg apart]

theorem changeKeys {transportId j : Nat} {change : MotObject → MotObject}
    (here : (logged log (.add transportId change))[j]? = some e) : ∃ f, log[j]? = some f ∧ f.1 = e.1 := by
  unfold logged at here
  rw [List.getElem?_mapIdx] at here
  obtain ⟨f,known,rfl⟩ := Option.map_eq_some_iff.mp here
  refine ⟨f,known,?_⟩
  split <;> rfl

theorem addCached (cached : Cached log gone s) (transportId : Nat) (change : MotObject → MotObject) :
    Cached (logged log (.add transportId change)) gone (s.answer (.add transportId change)) := by
  have length : (logged log (.add transportId change)).length = log.length := length_mapIdx
  have apart : ∀ {j k e f}, (logged log (.add transportId change))[j]? = some e → (logged log (.add transportId change))[k]? = some f →
      j < k → k ≤ j + 15 → e.1 ≠ f.1 := by
    intro j k e f first second less near
    obtain ⟨e',known,same⟩ := changeKeys first
    obtain ⟨f',knownSecond,sameSecond⟩ := changeKeys second
    rw [← same,← sameSecond]
    exact cached.apart known knownSecond less near
  by_cases kept : Kept log transportId
  · obtain ⟨k,e,here,recent,rfl⟩ := keptIff.mp kept
    have below := (List.getElem?_eq_some_iff.mp here).1
    have slot := cachedSlot cached here recent
    have table : s.answer (.add e.1 change) = { s with mMotTable := s.mMotTable.set (k % 15) (some (slotOf k (e.1, change e.2))) } := by
      simp only [answer,handleKept cached here recent,addAt,getD_eq_getElem?_getD,slot,Option.getD_some]
      rfl
    rw [table]
    refine ⟨cached.noDirectory,?_,?_,apart,?_⟩
    · rw [length,← cached.count]
    · rw [changeLogged cached here recent,ringSet below recent,← cached.table]
    · rw [length,cached.deleted]
  · have same : s.answer (.add transportId change) = s := by simp only [answer,handleGone cached kept]
    have unchanged : logged log (.add transportId change) = log := by
      refine ext_getElem? fun l => ?_
      unfold logged
      rw [List.getElem?_mapIdx]
      cases here : log[l]? with
      | none => rfl
      | some f =>
        have other : ¬ (log.length ≤ l + 15 ∧ f.1 = transportId) := fun both => kept (keptIff.mpr ⟨l,f,here,both.1,both.2⟩)
        rw [Option.map_some,if_neg other]
    rw [same,unchanged]
    exact cached

theorem serveCached (cached : Cached log gone s) (c : Call) : Cached (logged log c) (serve (s, gone) c).2 (serve (s, gone) c).1 := by
  cases c with
  | add transportId change =>
    have none : (serve (s, gone) (.add transportId change)).2 = gone := append_nil gone
    rw [none]
    exact addCached cached transportId change
  | pair transportId h =>
    by_cases kept : Kept log transportId
    · obtain ⟨k,e,here,recent,rfl⟩ := keptIff.mp kept
      simpa only [serve,answer,deletion,handleKept cached here recent,logged,kept,if_true,Option.toList_none,append_nil] using cached
    · simpa only [serve,answer,deletion,handleGone cached kept,logged,kept,if_false] using setHandleCached cached kept h

theorem freshCached : Cached [] [] {} where
  noDirectory := rfl
  count := rfl
  table := rfl
  apart := fun first => nomatch first
  deleted := rfl

theorem servedCached (calls : List Call) : Cached (logOf calls) (served calls).2 (served calls).1 := by
  unfold logOf served
  induction calls using List.reverseRecOn with
  | nil => exact freshCached
  | append_singleton calls c ih =>
    rw [foldl_append,foldl_append]
    exact serveCached ih c

end Cached

section Cache
variable {log : Log} {gone : List Nat} {s : MotHandler}

theorem lastDistinct (cached : Cached log gone s) : ((log.drop (log.length - 15)).map Prod.fst).Nodup := by
  rw [List.Nodup,pairwise_map,pairwise_iff_getElem]
  intro i j first second less
  rw [length_drop] at second
  rw [getElem_drop,getElem_drop]
  exact cached.apart (List.getElem?_eq_getElem _) (List.getElem?_eq_getElem _) (by omega) (by omega)

theorem fewAfter (cached : Cached log gone s) {k : Nat} (below : k < log.length) : (setAfter log k).card < 15 ↔ log.length ≤ k + 15 := by
  unfold setAfter
  constructor
  · intro few
    by_contra more
    have last : log.drop (log.length - 15) = (log.drop (k + 1)).drop (log.length - 15 - (k + 1)) := by
      rw [drop_drop]
      congr 1
      omega
    have among : ((log.drop (log.length - 15)).map Prod.fst).toFinset ⊆ ((log.drop (k + 1)).map Prod.fst).toFinset := by
      rw [last]
      intro t member
      rw [mem_toFinset] at member ⊢
      exact map_subset _ (drop_subset _ _) member
    have most := Finset.card_le_card among
    rw [toFinset_card_of_nodup (lastDistinct cached),length_map,length_drop] at most
    omega
  · intro recent
    have most := toFinset_card_le ((log.drop (k + 1)).map Prod.fst)
    rw [length_map,length_drop] at most
    omega

theorem latestKept (cached : Cached log gone s) {k : Nat} {e : Nat × MotObject} (here : log[k]? = some e) (recent : log.length ≤ k + 15) :
    Latest log e.1 k := by
  refine ⟨by rw [here]; rfl,fun l later same => ?_⟩
  obtain ⟨f,known,named⟩ := Option.map_eq_some_iff.mp same
  have below := (List.getElem?_eq_some_iff.mp known).1
  exact cached.apart here known later (by omega) named.symm

structure FifoCache (log : Log) (gone : List Nat) (s : MotHandler) : Prop where
  distinct : (s.mMotTable.filterMap (Option.map SMotTable.transportId)).Nodup
  found : ∀ transportId k, Latest log transportId k → (setAfter log k).card < 15 →
    ∃ h i, log[k]? = some (transportId, h) ∧ s.getHandle transportId = some (.table i) ∧ s.mMotTable[i]? = some (some ⟨transportId,k,h⟩)
  missing : ∀ transportId, (∀ k, Latest log transportId k → 15 ≤ (setAfter log k).card) → s.getHandle transportId = none
  oldest : gone = range (log.length - 15)
  alive : ∀ transportId i mt, s.getHandle transportId = some (.table i) → s.mMotTable[i]? = some (some mt) → mt.orderNumber ∉ gone

theorem handleTableFifo (calls : List Call) : FifoCache (logOf calls) (served calls).2 (served calls).1 := by
  have cached := servedCached calls
  generalize logOf calls = log at cached ⊢
  generalize served calls = acc at cached ⊢
  obtain ⟨s,gone⟩ := acc
  dsimp only at cached ⊢
  constructor
  · rw [List.Nodup,pairwise_filterMap,pairwise_iff_getElem]
    intro i j first second less t named t' named' same
    obtain ⟨mt,content,rfl⟩ := Option.map_eq_some_iff.mp named
    obtain ⟨mt',content',rfl⟩ := Option.map_eq_some_iff.mp named'
    obtain ⟨k,e,here,slot,recent,key⟩ := slotNamed cached (List.getElem?_eq_getElem first) (by rw [content]; exact decide_eq_true rfl)
    obtain ⟨l,f,there,slot',recent',key'⟩ := slotNamed cached (List.getElem?_eq_getElem second) (by rw [content']; exact decide_eq_true rfl)
    have equal := cachedSame cached here there recent recent' (key.trans (same.trans key'.symm))
    rw [equal] at slot
    omega
  · intro transportId k latest few
    obtain ⟨e,here,rfl⟩ := Option.map_eq_some_iff.mp latest.1
    have below := (List.getElem?_eq_some_iff.mp here).1
    have recent := (fewAfter cached below).mp few
    exact ⟨e.2,k % 15,here,handleKept cached here recent,cachedSlot cached here recent⟩
  · intro transportId many
    refine handleGone cached fun kept => ?_
    obtain ⟨k,e,here,recent,rfl⟩ := keptIff.mp kept
    have below := (List.getElem?_eq_some_iff.mp here).1
    have few := (fewAfter cached below).mpr recent
    have enough := many k (latestKept cached here recent)
    omega
  · exact cached.deleted
  · intro transportId i mt _ slot deleted
    rw [cached.table] at slot
    have inside := (List.getElem?_eq_some_iff.mp slot).1
    rw [ringLength] at inside
    obtain ⟨k,e,here,-,recent,rfl⟩ := (ringSlot inside).mp slot
    rw [cached.deleted,mem_range] at deleted
    have below := (List.getElem?_eq_some_iff.mp here).1
    have number : (slotOf k e).orderNumber = k := rfl
    omega

end Cache

section Groups
variable {log : Log} {gone : List Nat} {s : MotHandler}

def shortHeader : List Bool :=
  [false,false,false,true,false,false,true,true] ++ replicate 11 false ++ [true,false,false,true,false] ++ replicate 15 false ++ [true]

end Groups

end DabStar.MotHandler
