import DabStar.MotHandler
import DabStar.MotReassembly
import DabStar.Lib.Slots

/-! Objects in packet mode without a directory. An object is opened by its first data group,
header or not, and what that group reads like as a header is what the object is emitted with.
-/
namespace DabStar
open List Lib.Slots

namespace MotHandler

section Map
variable {transportId : Nat}

def slideIn (transportId : Nat) (mt : Option SMotTable) : Option MotObject :=
  mt.bind (fun mt => if mt.transportId = transportId then some mt.motSlide else none)

def slide (s : MotHandler) (transportId : Nat) : Option MotObject := s.mMotTable.findSome? (slideIn transportId)

theorem slideInNone {mt : Option SMotTable} : slideIn transportId mt = none ↔ mt.any (fun mt => mt.transportId = transportId) = false := by
  cases mt with
  | none => exact ⟨fun _ => rfl,fun _ => rfl⟩
  | some mt =>
    by_cases same : mt.transportId = transportId <;> simp [slideIn,same]

def groupStep (g : MotDataGroup) : Option MotObject → Option MotObject × List MotSignal
  | none =>
    let opened := MotObject.newMotObjectWithHeader false false g.transportId g.segment
    if g.groupType = 3 then (some opened, [])
    else
      let added := opened.addBodySegment g.segment g.segmentNumber g.segmentSize g.lastFlag g.transportId
      (some added.1, added.2)
  | some h =>
    if g.groupType = 3 then (some h, [])
    else
      let added := h.addBodySegment g.segment g.segmentNumber g.segmentSize g.lastFlag g.transportId
      (some added.1, added.2)

theorem groupStepHeader {g : MotDataGroup} (type : g.groupType = 3) (h : Option MotObject) :
    groupStep g h = (some (h.getD (MotObject.newMotObjectWithHeader false false g.transportId g.segment)), []) := by
  cases h with
  | none | some h => exact if_pos type

theorem groupStepBody {g : MotDataGroup} (type : g.groupType = 4) (h : Option MotObject) : groupStep g h =
    let opened := h.getD (MotObject.newMotObjectWithHeader false false g.transportId g.segment)
    let added := opened.addBodySegment g.segment g.segmentNumber g.segmentSize g.lastFlag g.transportId
    (some added.1, added.2) := by
  have other : ¬ g.groupType = 3 := by omega
  cases h with
  | none | some h => exact if_neg other

structure Tabled (ids : List Nat) (s : MotHandler) : Prop where
  noDirectory : s.mpDirectory = none
  slots : s.mMotTable.length = 15
  distinct : (s.mMotTable.filterMap (Option.map SMotTable.transportId)).Nodup
  among : ∀ t ∈ s.mMotTable.filterMap (Option.map SMotTable.transportId), t ∈ ids

def Plain (g : MotDataGroup) : Prop := (g.groupType = 3 ∧ g.segmentNumber = 0) ∨ g.groupType = 4

variable {ids : List Nat} {s : MotHandler} {g : MotDataGroup}

theorem slideUnknown : s.slide transportId = none ↔
    s.mMotTable.findIdx? (fun mt => mt.any (fun mt => mt.transportId = transportId)) = none := by
  unfold slide
  rw [List.findSome?_eq_none_iff,List.findIdx?_eq_none_iff]
  exact forall₂_congr (fun mt _ => slideInNone)

theorem handleUnknown (tabled : Tabled ids s) (unknown : s.slide transportId = none) : s.getHandle transportId = none := by
  unfold getHandle
  rw [slideUnknown.mp unknown,tabled.noDirectory]

theorem handleKnown {h : MotObject} (known : s.slide transportId = some h) : ∃ i mt,
    s.getHandle transportId = some (.table i) ∧ s.mMotTable[i]? = some (some mt) ∧ mt.transportId = transportId ∧
      mt.motSlide = h ∧ ∀ j < i, ∀ a, s.mMotTable[j]? = some a → slideIn transportId a = none := by
  cases found : s.mMotTable.findIdx? (fun mt => mt.any (fun mt => mt.transportId = transportId)) with
  | none =>
    rw [slideUnknown.mpr found] at known
    exact nomatch known
  | some i =>
    obtain ⟨inside,hit,front⟩ := List.findIdx?_eq_some_iff_getElem.mp found
    have before : ∀ j < i, ∀ a, s.mMotTable[j]? = some a → slideIn transportId a = none := by
      intro j less a here
      have other := front j less
      rw [slideInNone,← Bool.not_eq_true]
      rw [List.getElem?_eq_getElem (less.trans inside)] at here
      rwa [← Option.some.inj here]
    cases slot : s.mMotTable[i] with
    | none =>
      rw [slot] at hit
      exact nomatch hit
    | some mt =>
      rw [slot] at hit
      have same : mt.transportId = transportId := of_decide_eq_true hit
      have here : s.mMotTable[i]? = some (some mt) := by rw [List.getElem?_eq_getElem inside,slot]
      refine ⟨i,mt,by simp only [getHandle,found],here,same,?_,before⟩
      -- writing the slot with itself changes nothing, so it is the slot that answers
      have answers := findSomeSet (f := slideIn transportId) before inside (b := some mt) (v := mt.motSlide) (if_pos same)
      rw [← slot,set_getElem_self] at answers
      exact Option.some.inj (answers.symm.trans known)

theorem addedSlide {transportId i : Nat} {mt : SMotTable} (here : s.mMotTable[i]? = some (some mt))
    (same : mt.transportId = transportId) (front : ∀ j < i, ∀ a, s.mMotTable[j]? = some a → slideIn transportId a = none)
    (h : MotObject) (t : Nat) : (s.mMotTable.set i (some { mt with motSlide := h })).findSome? (slideIn t) =
      if t = transportId then some h else s.slide t := by
  have inside : i < s.mMotTable.length := (List.getElem?_eq_some_iff.mp here).1
  split
  · rename_i this
    subst this
    exact findSomeSet front inside (if_pos same)
  · rename_i other
    refine findSomeSetOther (fun a old => ?_) (if_neg (fun e => other (e.symm.trans same)))
    rw [here] at old
    rw [← Option.some.inj old]
    exact if_neg (fun e => other (e.symm.trans same))

theorem openedSlide {transportId i : Nat} (free : s.mMotTable[i]? = some none) (unknown : s.slide transportId = none)
    (order : Nat) (h : MotObject) (t : Nat) :
    (s.mMotTable.set i (some ⟨transportId,order,h⟩)).findSome? (slideIn t) = if t = transportId then some h else s.slide t := by
  have inside : i < s.mMotTable.length := (List.getElem?_eq_some_iff.mp free).1
  split
  · rename_i this
    subst this
    refine findSomeSet (fun j _ a here => ?_) inside (if_pos rfl)
    exact List.findSome?_eq_none_iff.mp unknown a (mem_of_getElem? here)
  · rename_i other
    refine findSomeSetOther (fun a old => ?_) (if_neg (fun e => other e.symm))
    rw [free] at old
    rw [← Option.some.inj old]
    rfl

theorem roomFor (tabled : Tabled ids s) (few : ids.length ≤ 15) (listed : transportId ∈ ids)
    (unknown : s.slide transportId = none) : ∃ i, s.mMotTable.findIdx? Option.isNone = some i ∧ s.mMotTable[i]? = some none ∧
      (transportId :: s.mMotTable.filterMap (Option.map SMotTable.transportId)).Nodup := by
  have absent : transportId ∉ s.mMotTable.filterMap (Option.map SMotTable.transportId) := by
    intro member
    obtain ⟨a,here,mapped⟩ := mem_filterMap.mp member
    obtain ⟨mt,rfl,same⟩ := Option.map_eq_some_iff.mp mapped
    have silent := List.findSome?_eq_none_iff.mp unknown _ here
    unfold slideIn at silent
    rw [Option.bind_some,if_pos same] at silent
    exact nomatch silent
  have distinct := nodup_cons.mpr ⟨absent,tabled.distinct⟩
  have counted := (distinct.subperm (cons_subset.mpr ⟨listed,tabled.among⟩)).length_le
  rw [length_cons] at counted
  obtain ⟨i,found⟩ := freeSlot (g := SMotTable.transportId) (l := s.mMotTable) (by rw [tabled.slots]; omega)
  obtain ⟨inside,empty,-⟩ := List.findIdx?_eq_some_iff_getElem.mp found
  exact ⟨i,found,by rw [List.getElem?_eq_getElem inside,Option.isNone_iff_eq_none.mp empty],distinct⟩

theorem setHandleSlide (tabled : Tabled ids s) (few : ids.length ≤ 15) (listed : transportId ∈ ids)
    (unknown : s.slide transportId = none) (h : MotObject) : Tabled ids (s.setHandle h transportId) ∧
      ∀ t, (s.setHandle h transportId).slide t = if t = transportId then some h else s.slide t := by
  obtain ⟨i,found,free,distinct⟩ := roomFor tabled few listed unknown
  have table : (s.setHandle h transportId).mMotTable = s.mMotTable.set i (some ⟨transportId,s.mOrderNumber,h⟩) := by
    unfold setHandle
    rw [found]
    rfl
  have keys := fillPerm (g := SMotTable.transportId) free ⟨transportId,s.mOrderNumber,h⟩
  refine ⟨⟨tabled.noDirectory,?_,?_,?_⟩,fun t => ?_⟩
  · rw [table,length_set]
    exact tabled.slots
  · rw [table]
    exact keys.nodup_iff.mpr distinct
  · rw [table]
    intro t member
    rcases mem_cons.mp (keys.subset member) with rfl | old
    · exact listed
    · exact tabled.among t old
  · unfold slide
    rw [table]
    exact openedSlide free unknown _ h t

theorem handleGroupSlide (tabled : Tabled ids s) (few : ids.length ≤ 15) (plain : Plain g) (listed : g.transportId ∈ ids) :
    Tabled ids (s.handleGroup g).next ∧ (s.handleGroup g).signals = (groupStep g (s.slide g.transportId)).2 ∧
      ∀ t, (s.handleGroup g).next.slide t = if t = g.transportId then (groupStep g (s.slide g.transportId)).1 else s.slide t := by
  have kept : ∀ {t : Nat} {r : Option MotObject}, s.slide g.transportId = r → s.slide t = if t = g.transportId then r else s.slide t := by
    intro t r same
    split
    · rename_i this
      rw [this,same]
    · rfl
  cases known : s.slide g.transportId with
  | none =>
    have unhandled := handleUnknown tabled known
    rcases plain with ⟨type,first⟩ | type
    · have called : s.handleGroup g = { next := s.setHandle (MotObject.newMotObjectWithHeader false false g.transportId g.segment) g.transportId } := by
        unfold handleGroup headerGroup
        rw [type,unhandled]
        exact if_pos first
      obtain ⟨table,slides⟩ := setHandleSlide tabled few listed known (MotObject.newMotObjectWithHeader false false g.transportId g.segment)
      rw [called,groupStepHeader type]
      exact ⟨table,rfl,slides⟩
    · let added := (MotObject.newMotObjectWithHeader false false g.transportId g.segment).addBodySegment g.segment g.segmentNumber
        g.segmentSize g.lastFlag g.transportId
      have called : s.handleGroup g = { next := s.setHandle added.1 g.transportId, signals := added.2 } := by
        unfold handleGroup bodyGroup
        rw [type,unhandled]
        rfl
      obtain ⟨table,slides⟩ := setHandleSlide tabled few listed known added.1
      rw [called,groupStepBody type]
      exact ⟨table,rfl,slides⟩
  | some h =>
    obtain ⟨i,mt,handled,here,same,slid,front⟩ := handleKnown known
    rcases plain with ⟨type,first⟩ | type
    · have called : s.handleGroup g = { next := s } := by
        unfold handleGroup headerGroup
        rw [type,handled]
        exact if_pos first
      rw [called,groupStepHeader type]
      exact ⟨tabled,rfl,fun t => kept known⟩
    · let added := h.addBodySegment g.segment g.segmentNumber g.segmentSize g.lastFlag g.transportId
      have called : s.handleGroup g =
          { next := { s with mMotTable := s.mMotTable.set i (some { mt with motSlide := added.1 }) }, signals := added.2 } := by
        unfold handleGroup bodyGroup addAt
        rw [type,handled]
        simp only [getD_eq_getElem?_getD,here,Option.getD_some,slid]
        rfl
      rw [called,groupStepBody type]
      have keys := overwriteKeys (g := SMotTable.transportId) here (y := { mt with motSlide := added.1 }) rfl
      refine ⟨⟨tabled.noDirectory,?_,?_,?_⟩,rfl,fun t => addedSlide here same front added.1 t⟩
      · exact length_set.trans tabled.slots
      · exact keys ▸ tabled.distinct
      · exact keys ▸ tabled.among

end Map

def emissions : MotHandler → List MotDataGroup → List (Nat × MotSignal)
  | _, [] => []
  | s, g :: gs => (objects (s.handleGroup g).signals).map (fun x => (g.transportId, x)) ++ emissions (s.handleGroup g).next gs

def emitted : MotHandler → List (List Bool) → List (Nat × MotSignal)
  | _, [] => []
  | s, msc :: rest =>
    (objects (s.addMscDataGroup msc).signals).map (fun x => (((decodeGroup msc).map MotDataGroup.transportId).getD 0, x)) ++
      emitted (s.addMscDataGroup msc).next rest

def groupsIn (mscs : List (List Bool)) : List MotDataGroup := mscs.filterMap decodeGroup

theorem emittedGroups (mscs : List (List Bool)) (s : MotHandler) : emitted s mscs = emissions s (groupsIn mscs) := by
  induction mscs generalizing s with
  | nil => rfl
  | cons msc rest ih =>
    unfold emitted addMscDataGroup groupsIn
    cases decoded : decodeGroup msc with
    | none =>
      rw [filterMap_cons_none decoded]
      exact ih s
    | some g =>
      rw [filterMap_cons_some decoded]
      exact congrArg _ (ih _)

def objectRun : Option MotObject → List MotDataGroup → List MotSignal
  | _, [] => []
  | h, g :: gs => objects (groupStep g h).2 ++ objectRun (groupStep g h).1 gs

def ofId (transportId : Nat) (gs : List MotDataGroup) : List MotDataGroup := gs.filter (fun g => g.transportId = transportId)

theorem emissionsOfId {ids : List Nat} (few : ids.length ≤ 15) (gs : List MotDataGroup) {s : MotHandler} (tabled : Tabled ids s)
    (plain : ∀ g ∈ gs, Plain g) (listed : ∀ g ∈ gs, g.transportId ∈ ids) (transportId : Nat) :
    ((emissions s gs).filter (fun x => x.1 = transportId)).map Prod.snd = objectRun (s.slide transportId) (ofId transportId gs) := by
  induction gs generalizing s with
  | nil => rfl
  | cons g gs ih =>
    rw [forall_mem_cons] at plain listed
    obtain ⟨table,signals,slides⟩ := handleGroupSlide tabled few plain.1 listed.1
    have rest := ih table plain.2 listed.2
    unfold emissions ofId
    rw [filter_append,map_append,rest,slides]
    by_cases same : g.transportId = transportId
    · subst same
      have all : ∀ l : List MotSignal, ((l.map (fun x => (g.transportId, x))).filter (fun x => x.1 = g.transportId)).map Prod.snd = l := by
        intro l
        rw [filter_eq_self.mpr (by simp),map_map]
        exact map_id l
      rw [filter_cons_of_pos (by simp),if_pos rfl,signals,all]
      rfl
    · rw [filter_cons_of_neg (by simpa using same),if_neg (fun e => same e.symm)]
      simp [same,ofId]

end MotHandler

namespace MotTransfer
open MotHandler

def Sends (o : MotTransfer) (g : MotDataGroup) : Prop :=
  g.transportId = o.transportId ∧ ((g.groupType = 3 ∧ g.segmentNumber = 0 ∧ g.segment = o.header) ∨
    (g.groupType = 4 ∧ g.segmentNumber < o.number ∧ g.lastFlag = decide (g.segmentNumber + 1 = o.number) ∧
      Mp4Processor.slice g.segment 0 g.segmentSize = o.segment g.segmentNumber))
  deriving Decidable

def readAs (o : MotTransfer) (header : List U8) : MotTransfer := { o with header := header }

def BodyArrives (o : MotTransfer) (gs : List MotDataGroup) : Prop :=
  ∀ k < o.number, ∃ g ∈ gs, g.transportId = o.transportId ∧ g.groupType = 4 ∧ g.segmentNumber = k

def HeaderArrives (o : MotTransfer) (gs : List MotDataGroup) : Prop := ∃ g ∈ gs, g.transportId = o.transportId ∧ g.groupType = 3

def opening (o : MotTransfer) (gs : List MotDataGroup) : Option MotDataGroup := gs.find? (fun g => g.transportId = o.transportId)

def reading (o : MotTransfer) (header : List U8) : List U8 × Nat :=
  ((o.readAs header).name, (MotObject.readHeaderCore header).getContentType)

theorem emissionReading (o : MotTransfer) (header other : List U8) :
    (o.readAs header).emission false = (o.readAs other).emission false ↔ o.reading header = o.reading other := by
  unfold emission reading readAs
  constructor
  · intro same
    injection same with _ name type
    exact Prod.ext name type
  · intro same
    rw [Prod.mk.injEq] at same
    dsimp only at same ⊢
    rw [same.1,same.2]

variable {o : MotTransfer} {header : List U8} {w : List MotEvent} {h : MotObject} {g : MotDataGroup}

theorem openedWith (o : MotTransfer) (header : List U8) : MotObject.Gathered (o.readAs header) false [(o.readAs header).headerEvent]
    (MotObject.newMotObjectWithHeader false false o.transportId header) := by
  have other : (MotObject.newMotObject false false).mTransportId ≠ ((o.readAs header).transportId : Int) := by
    show (-1 : Int) ≠ o.transportId
    omega
  exact (MotObject.headerStep (MotObject.openedGathered other)).1

theorem bodySent (sends : o.Sends g) (type : g.groupType = 4) (h : MotObject) : g.segmentNumber < o.number ∧
    h.addBodySegment g.segment g.segmentNumber g.segmentSize g.lastFlag g.transportId =
      h.step ((o.readAs header).bodyEvent g.segmentNumber) := by
  obtain ⟨id,⟨wrong,-⟩ | ⟨-,small,last,bytes⟩⟩ := sends
  · omega
  · refine ⟨small,?_⟩
    show _ = h.addBodySegment (o.segment g.segmentNumber) g.segmentNumber (o.segment g.segmentNumber).length
      (decide (g.segmentNumber + 1 = o.number)) o.transportId
    have size : (o.segment g.segmentNumber).length = g.segmentSize := by
      rw [← bytes]
      simp [Mp4Processor.slice]
    have whole : Mp4Processor.slice (o.segment g.segmentNumber) 0 (g.segmentSize : Int) = o.segment g.segmentNumber := by
      rw [← size]
      exact MotObject.sliceWhole _
    unfold MotObject.addBodySegment
    rw [last,id,size,bytes,whole]

def bodyEvents (o : MotTransfer) (gs : List MotDataGroup) : List MotEvent :=
  (gs.filter (fun g => g.groupType = 4)).map (fun g => o.bodyEvent g.segmentNumber)

theorem bodyEventsIff (sends : ∀ g ∈ gs, o.Sends g) {k : Nat} :
    o.bodyEvent k ∈ o.bodyEvents gs ↔ ∃ g ∈ gs, g.transportId = o.transportId ∧ g.groupType = 4 ∧ g.segmentNumber = k := by
  unfold bodyEvents
  rw [mem_map]
  constructor
  · rintro ⟨g,member,same⟩
    obtain ⟨inside,type⟩ := mem_filter.mp member
    exact ⟨g,inside,(sends g inside).1,of_decide_eq_true type,o.bodyEventInj same⟩
  · rintro ⟨g,inside,-,type,rfl⟩
    exact ⟨g,mem_filter.mpr ⟨inside,decide_eq_true type⟩,rfl⟩

theorem objectRunFrom (gs : List MotDataGroup) (sends : ∀ g ∈ gs, o.Sends g) (gathered : MotObject.Gathered (o.readAs header) false w h) :
    objectRun (some h) gs = if ¬ (o.readAs header).Complete w ∧ (o.readAs header).Complete (w ++ o.bodyEvents gs) then
      [(o.readAs header).emission false] else [] := by
  induction gs generalizing w h with
  | nil =>
    have none : o.bodyEvents [] = [] := rfl
    rw [none,append_nil,if_neg (fun both => both.1 both.2)]
    rfl
  | cons g gs ih =>
    rw [forall_mem_cons] at sends
    unfold objectRun
    by_cases type : g.groupType = 4
    · obtain ⟨small,event⟩ := @bodySent o header g sends.1 type h
      let o' := o.readAs header
      let e := o'.bodyEvent g.segmentNumber
      obtain ⟨next,emits⟩ := MotObject.stepGathered (o := o') gathered (e := e) (.inr ⟨g.segmentNumber,small,rfl⟩)
      have events : w ++ o.bodyEvents (g :: gs) = w ++ [e] ++ o.bodyEvents gs := by
        unfold bodyEvents
        rw [filter_cons_of_pos (by simpa using type),map_cons,append_assoc]
        rfl
      have more : ∀ {a b : List MotEvent}, o'.Complete a → o'.Complete (a ++ b) := fun complete =>
        ⟨mem_append_left _ complete.1,fun k small => mem_append_left _ (complete.2 k small)⟩
      rw [groupStepBody type,Option.getD_some]
      dsimp only
      rw [event,emits,ih sends.2 next,events]
      by_cases before : o'.Complete w
      · have seen : ¬ (e = o'.headerEvent ∨ e ∉ w) := by
          rintro (header | fresh)
          · exact o'.headerNotBody _ header.symm
          · exact fresh (before.2 _ small)
        rw [if_neg (fun both => seen both.2),if_neg (fun both => both.1 (more before)),if_neg (fun both => both.1 before)]
        rfl
      · by_cases after : o'.Complete (w ++ [e])
        · have fresh : e ∉ w := by
            intro seen
            have same : ∀ x, x ∈ w ++ [e] → x ∈ w := fun x member => (MotObject.memSnoc.mp member).elim id (fun last => last ▸ seen)
            exact before ⟨same _ after.1,fun k small => same _ (after.2 k small)⟩
          rw [if_pos ⟨after,.inr fresh⟩,if_neg (fun both => both.1 after),if_pos ⟨before,more after⟩]
          rfl
        · rw [if_neg (fun both => after both.1),nil_append]
          exact if_congr (and_congr_left fun _ => ⟨fun _ => before,fun _ => after⟩) rfl rfl
    · have header : g.groupType = 3 := by
        obtain ⟨-,⟨type',-⟩ | ⟨type',-⟩⟩ := sends.1
        · exact type'
        · exact absurd type' type
      have events : o.bodyEvents (g :: gs) = o.bodyEvents gs := by
        unfold bodyEvents
        rw [filter_cons_of_neg (by simpa using type)]
      rw [groupStepHeader header,events]
      exact ih sends.2 gathered

theorem objectRunExact (first : MotDataGroup) (rest : List MotDataGroup) (sends : ∀ g ∈ first :: rest, o.Sends g) :
    (o.BodyArrives (first :: rest) → objectRun none (first :: rest) = [(o.readAs first.segment).emission false]) ∧
    (¬ o.BodyArrives (first :: rest) → objectRun none (first :: rest) = []) := by
  have id : first.transportId = o.transportId := (sends first mem_cons_self).1
  let o' := o.readAs first.segment
  let h := MotObject.newMotObjectWithHeader false false o.transportId first.segment
  have opened : objectRun none (first :: rest) = objectRun (some h) (first :: rest) := by
    have same : groupStep first none = groupStep first (some h) := by
      rcases (sends first mem_cons_self).2 with ⟨type,-⟩ | ⟨type,-⟩
      · rw [groupStepHeader type,groupStepHeader type,Option.getD_none,Option.getD_some,id]
      · rw [groupStepBody type,groupStepBody type,Option.getD_none,Option.getD_some,id]
    unfold objectRun
    rw [same]
  have positive : 0 < o.number := o.nonempty
  have missing : ¬ o'.Complete [o'.headerEvent] := fun complete =>
    o'.headerNotBody 0 (mem_singleton.mp (complete.2 0 positive)).symm
  have arrives : o'.Complete ([o'.headerEvent] ++ o.bodyEvents (first :: rest)) ↔ o.BodyArrives (first :: rest) := by
    constructor
    · intro complete k small
      rcases mem_cons.mp (complete.2 k small) with header | body
      · exact absurd header.symm (o'.headerNotBody k)
      · exact (bodyEventsIff sends).mp body
    · intro body
      exact ⟨mem_cons_self,fun k small => mem_cons_of_mem _ ((bodyEventsIff sends).mpr (body k small))⟩
  have ran := objectRunFrom (first :: rest) sends (openedWith o first.segment)
  rw [opened,ran]
  refine ⟨fun body => if_pos ⟨missing,arrives.mpr body⟩,fun incomplete => if_neg (fun both => incomplete (arrives.mp both.2))⟩

section Orders
variable {objs : List MotTransfer}

theorem sentByOne (distinct : (objs.map transportId).Nodup) {o other : MotTransfer} (here : o ∈ objs) (there : other ∈ objs)
    (same : o.transportId = other.transportId) : o = other := inj_on_of_nodup_map distinct here there same

theorem emittedExact (distinct : (objs.map transportId).Nodup) (few : objs.length ≤ 15) (mscs : List (List Bool))
    (sent : ∀ g ∈ groupsIn mscs, ∃ o ∈ objs, o.Sends g) (o : MotTransfer) (listed : o ∈ objs) (x : MotSignal) :
    (o.transportId, x) ∈ emitted {} mscs ↔ o.BodyArrives (groupsIn mscs) ∧
      ∃ first, o.opening (groupsIn mscs) = some first ∧ x = (o.readAs first.segment).emission false := by
  have tabled : Tabled (objs.map transportId) {} := ⟨rfl,rfl,by decide,fun t member => nomatch (show t ∈ ([] : List Nat) from member)⟩
  have plain : ∀ g ∈ groupsIn mscs, Plain g := by
    intro g member
    obtain ⟨o,-,-,⟨type,first,-⟩ | ⟨type,-⟩⟩ := sent g member
    · exact .inl ⟨type,first⟩
    · exact .inr type
  have ids : ∀ g ∈ groupsIn mscs, g.transportId ∈ objs.map transportId := by
    intro g member
    obtain ⟨o,inside,sends⟩ := sent g member
    exact mem_map.mpr ⟨o,inside,sends.1.symm⟩
  have run := emissionsOfId (by rw [length_map]; exact few) (groupsIn mscs) tabled plain ids o.transportId
  have ofObject : (o.transportId, x) ∈ emitted {} mscs ↔ x ∈ objectRun none (ofId o.transportId (groupsIn mscs)) := by
    rw [emittedGroups,← show (({} : MotHandler).slide o.transportId) = none from rfl,← run,mem_map]
    constructor
    · intro member
      exact ⟨_,mem_filter.mpr ⟨member,decide_eq_true rfl⟩,rfl⟩
    · rintro ⟨⟨id,y⟩,member,rfl⟩
      obtain ⟨inside,same⟩ := mem_filter.mp member
      obtain rfl : id = o.transportId := of_decide_eq_true same
      exact inside
  have sends : ∀ g ∈ ofId o.transportId (groupsIn mscs), o.Sends g := by
    intro g member
    obtain ⟨inside,same⟩ := mem_filter.mp member
    obtain ⟨other,there,sends⟩ := sent g inside
    rwa [sentByOne distinct listed there ((of_decide_eq_true same).symm.trans sends.1)]
  have body : o.BodyArrives (ofId o.transportId (groupsIn mscs)) ↔ o.BodyArrives (groupsIn mscs) := by
    refine forall₂_congr (fun k _ => ⟨?_,?_⟩)
    · rintro ⟨g,member,rest⟩
      exact ⟨g,(mem_filter.mp member).1,rest⟩
    · rintro ⟨g,member,id,rest⟩
      exact ⟨g,mem_filter.mpr ⟨member,decide_eq_true id⟩,id,rest⟩
  have front : o.opening (groupsIn mscs) = (ofId o.transportId (groupsIn mscs)).head? := List.head?_filter.symm
  rw [ofObject,front,← body]
  cases own : ofId o.transportId (groupsIn mscs) with
  | nil =>
    constructor
    · exact fun member => nomatch member
    · rintro ⟨-,first,none,-⟩
      exact nomatch none
  | cons first rest =>
    rw [own] at sends
    have exact := objectRunExact first rest sends
    constructor
    · intro member
      have complete : o.BodyArrives (first :: rest) := by
        by_contra incomplete
        rw [exact.2 incomplete] at member
        exact nomatch member
      rw [exact.1 complete] at member
      exact ⟨complete,first,rfl,mem_singleton.mp member⟩
    · rintro ⟨complete,other,same,rfl⟩
      rw [exact.1 complete,Option.some.inj same]
      exact mem_singleton_self _

theorem emittedListed (mscs : List (List Bool)) (sent : ∀ g ∈ groupsIn mscs, ∃ o ∈ objs, o.Sends g) {id : Nat} {x : MotSignal}
    (member : (id, x) ∈ emitted {} mscs) : ∃ o ∈ objs, o.transportId = id := by
  have groups : ∀ (gs : List MotDataGroup) (s : MotHandler), (id, x) ∈ emissions s gs → ∃ g ∈ gs, g.transportId = id := by
    intro gs
    induction gs with
    | nil => exact fun s none => nomatch none
    | cons g gs ih =>
      intro s inside
      rcases mem_append.mp inside with here | later
      · obtain ⟨y,-,same⟩ := mem_map.mp here
        exact ⟨g,mem_cons_self,congrArg Prod.fst same⟩
      · obtain ⟨g',found,same⟩ := ih _ later
        exact ⟨g',mem_cons_of_mem _ found,same⟩
  rw [emittedGroups] at member
  obtain ⟨g,inside,rfl⟩ := groups _ _ member
  obtain ⟨o,listed,sends⟩ := sent g inside
  exact ⟨o,listed,sends.1.symm⟩

theorem groupOrder (objs : List MotTransfer) (distinct : (objs.map transportId).Nodup) (few : objs.length ≤ 15)
    (mscs other : List (List Bool)) (reordered : mscs.Perm other)
    (sent : ∀ msc ∈ mscs, ∃ g, decodeGroup msc = some g ∧ ∃ o ∈ objs, o.Sends g) : ((∀ x, x ∈ emitted {} mscs ↔ x ∈ emitted {} other) ∧
      ∀ o ∈ objs, ∀ order ∈ [mscs,other], o.BodyArrives (groupsIn order) → o.HeaderArrives (groupsIn order) →
        (o.transportId, o.emission false) ∈ emitted {} order) ↔
    ∀ o ∈ objs, o.BodyArrives (groupsIn mscs) → ∀ first, o.opening (groupsIn mscs) = some first →
      ∀ second, o.opening (groupsIn other) = some second → o.reading first.segment = o.reading second.segment ∧
        (o.HeaderArrives (groupsIn mscs) → o.reading first.segment = o.reading o.header) := by
  have groups : (groupsIn mscs).Perm (groupsIn other) := reordered.filterMap decodeGroup
  have sentGroups : ∀ g ∈ groupsIn mscs, ∃ o ∈ objs, o.Sends g := by
    intro g member
    obtain ⟨msc,inside,decoded⟩ := mem_filterMap.mp member
    obtain ⟨g',same,sends⟩ := sent msc inside
    rwa [Option.some.inj (decoded.symm.trans same)]
  have sentOther : ∀ g ∈ groupsIn other, ∃ o ∈ objs, o.Sends g := fun g member => sentGroups g (groups.mem_iff.mpr member)
  have body : ∀ o : MotTransfer, o.BodyArrives (groupsIn mscs) ↔ o.BodyArrives (groupsIn other) := fun o =>
    forall₂_congr (fun k _ => exists_congr fun g => and_congr_left fun _ => groups.mem_iff)
  have header : ∀ o : MotTransfer, o.HeaderArrives (groupsIn mscs) ↔ o.HeaderArrives (groupsIn other) := fun o =>
    exists_congr fun g => and_congr_left fun _ => groups.mem_iff
  have opens : ∀ (o : MotTransfer) (gs : List MotDataGroup), o.BodyArrives gs → ∃ first, o.opening gs = some first := by
    intro o gs arrives
    obtain ⟨g,member,id,-⟩ := arrives 0 o.nonempty
    exact Option.isSome_iff_exists.mp (List.find?_isSome.mpr ⟨g,member,decide_eq_true id⟩)
  have named : ∀ o : MotTransfer, o.emission false = (o.readAs o.header).emission false := fun o => rfl
  have here := fun o listed x => emittedExact distinct few mscs sentGroups o listed x
  have there := fun o listed x => emittedExact distinct few other sentOther o listed x
  constructor
  · rintro ⟨same,asHeader⟩ o listed arrives first opened second openedOther
    have inHere := (here o listed _).mpr ⟨arrives,first,opened,rfl⟩
    obtain ⟨-,third,openedToo,equal⟩ := (there o listed _).mp ((same _).mp inHere)
    obtain rfl : second = third := Option.some.inj (openedOther.symm.trans openedToo)
    refine ⟨(o.emissionReading _ _).mp equal,fun headed => ?_⟩
    obtain ⟨-,fourth,again,equal⟩ := (here o listed _).mp (asHeader o listed mscs mem_cons_self arrives headed)
    obtain rfl : first = fourth := Option.some.inj (opened.symm.trans again)
    exact (o.emissionReading _ _).mp (equal.symm.trans (named o))
  · intro alike
    have equal : ∀ o ∈ objs, o.BodyArrives (groupsIn mscs) → ∃ first second, o.opening (groupsIn mscs) = some first ∧
        o.opening (groupsIn other) = some second ∧ (o.readAs first.segment).emission false = (o.readAs second.segment).emission false ∧
        (o.HeaderArrives (groupsIn mscs) → o.emission false = (o.readAs first.segment).emission false) := by
      intro o listed arrives
      obtain ⟨first,opened⟩ := opens o _ arrives
      obtain ⟨second,openedOther⟩ := opens o _ ((body o).mp arrives)
      obtain ⟨readings,asHeader⟩ := alike o listed arrives first opened second openedOther
      exact ⟨first,second,opened,openedOther,(o.emissionReading _ _).mpr readings,fun headed =>
        (named o).trans ((o.emissionReading _ _).mpr (asHeader headed).symm)⟩
    refine ⟨fun x => ⟨fun member => ?_,fun member => ?_⟩,fun o listed order among arrives headed => ?_⟩
    · obtain ⟨id,signal⟩ := x
      obtain ⟨o,listed,rfl⟩ := emittedListed mscs sentGroups member
      obtain ⟨arrives,first',opened',rfl⟩ := (here o listed signal).mp member
      obtain ⟨first,second,opened,openedOther,same,-⟩ := equal o listed arrives
      obtain rfl : first = first' := Option.some.inj (opened.symm.trans opened')
      exact (there o listed _).mpr ⟨(body o).mp arrives,second,openedOther,same⟩
    · obtain ⟨id,signal⟩ := x
      obtain ⟨o,listed,rfl⟩ := emittedListed other sentOther member
      obtain ⟨arrives,second',opened',rfl⟩ := (there o listed signal).mp member
      obtain ⟨first,second,opened,openedOther,same,-⟩ := equal o listed ((body o).mpr arrives)
      obtain rfl : second = second' := Option.some.inj (openedOther.symm.trans opened')
      exact (here o listed _).mpr ⟨(body o).mpr arrives,first,opened,same.symm⟩
    · rcases mem_cons.mp among with rfl | second
      · obtain ⟨first,second,opened,openedOther,same,asHeader⟩ := equal o listed arrives
        exact (here o listed _).mpr ⟨arrives,first,opened,asHeader headed⟩
      · obtain rfl := mem_singleton.mp second
        obtain ⟨first,second,opened,openedOther,same,asHeader⟩ := equal o listed ((body o).mpr arrives)
        exact (there o listed _).mpr ⟨arrives,second,openedOther,(asHeader ((header o).mpr headed)).trans same⟩

def bitsOf (width value : Nat) : List Bool := (range width).map (fun i => value.testBit (width - 1 - i))

def groupBits (groupType segmentNumber : Nat) (lastFlag : Bool) (transportId : Nat) (segment : List U8) : List Bool :=
  [false,false,true,true] ++ bitsOf 4 groupType ++ bitsOf 8 0 ++ [lastFlag] ++ bitsOf 15 segmentNumber ++
    [false,false,false,true] ++ bitsOf 4 2 ++ bitsOf 16 transportId ++ bitsOf 16 segment.length ++
    segment.flatMap (fun b => bitsOf 8 b.toNat)

def picture : MotTransfer :=
  ⟨5,[0x00#8,0x00#8,0x00#8,0x90#8,0x03#8,0x84#8,0x01#8],[replicate 7 0#8,[1#8,2#8]],by decide,by decide⟩

def pictureHeader : List Bool := groupBits 3 0 true 5 picture.header
def pictureBody (k : Nat) : List Bool := groupBits 4 k (k = 1) 5 (picture.segment k)

theorem pictureSent : ∀ msc ∈ [pictureHeader,pictureBody 0,pictureBody 1], ∃ g, decodeGroup msc = some g ∧ ∃ o ∈ [picture], o.Sends g := by
  have decoded : ∀ msc ∈ [pictureHeader,pictureBody 0,pictureBody 1], (decodeGroup msc).any (fun g => picture.Sends g) = true := by
    decide +kernel
  intro msc member
  obtain ⟨g,same,sends⟩ := (Option.any_eq_true ..).mp (decoded msc member)
  exact ⟨g,same,picture,mem_singleton_self _,of_decide_eq_true sends⟩

theorem headerFirst : (emitted {} [pictureHeader,pictureBody 0,pictureBody 1]).map Prod.fst = [5] ∧
    ∀ x, x ∈ emitted {} [pictureHeader,pictureBody 0,pictureBody 1] ↔ x ∈ emitted {} [pictureHeader,pictureBody 1,pictureBody 0] := by
  refine ⟨by decide +kernel,((groupOrder [picture] (by decide) (by decide) [pictureHeader,pictureBody 0,pictureBody 1]
    [pictureHeader,pictureBody 1,pictureBody 0] ((List.Perm.swap _ _ _).cons _) pictureSent).mpr ?_).1⟩
  intro o listed _ first opened second openedOther
  obtain rfl := mem_singleton.mp listed
  have here : ∀ g ∈ picture.opening (groupsIn [pictureHeader,pictureBody 0,pictureBody 1]), g.segment = picture.header := by
    decide +kernel
  have there : ∀ g ∈ picture.opening (groupsIn [pictureHeader,pictureBody 1,pictureBody 0]), g.segment = picture.header := by
    decide +kernel
  rw [here first opened,there second openedOther]
  exact ⟨rfl,fun _ => rfl⟩

theorem bodyFirst :
    emitted {} [pictureHeader,pictureBody 0,pictureBody 1] = [(5, .newMotObject picture.segments.flatten picture.name 0x0201 false)] ∧
    emitted {} [pictureBody 0,pictureHeader,pictureBody 1] = [(5, .newMotObject picture.segments.flatten picture.name 0x0000 false)] := by
  decide +kernel

end Orders

end MotTransfer
end DabStar
