import DabStar.MotObject

/-! What a MotObject emits, over every order and repetition of header and body segments. It is
emitted at the event that completes it, and again when its header is repeated. -/
namespace DabStar
open List Lib.SortedMap

inductive MotEvent where
  | header (segment : List U8) (transportId : Int)
  | body (segment : List U8) (segmentNumber : Int) (lastFlag : Bool) (transportId : Int)
  deriving DecidableEq, Repr

namespace MotEvent

def transportId : MotEvent → Int
  | .header _ id => id
  | .body _ _ _ id => id

def dropped : MotEvent → Bool
  | .header _ _ => false
  | .body _ number _ _ => number < 0 ∨ number ≥ 8192

end MotEvent

namespace MotObject

def step (s : MotObject) : MotEvent → MotObject × List MotSignal
  | .header segment transportId => s.setHeader segment transportId
  | .body segment number lastFlag transportId => s.addBodySegment segment number segment.length lastFlag transportId

def run (s : MotObject) (events : List MotEvent) : MotObject := events.foldl (fun s e => (s.step e).1) s

end MotObject

def MotSignal.isObject : MotSignal → Bool
  | .newMotObject .. => true
  | .padMotProgress _ => false

def objects (signals : List MotSignal) : List MotSignal := signals.filter MotSignal.isObject

structure MotTransfer where
  transportId : Nat
  header : List U8
  segments : List (List U8)
  nonempty : 0 < segments.length
  few : segments.length ≤ 8192

namespace MotTransfer
variable (o : MotTransfer)

def number : Nat := o.segments.length

def segment (k : Nat) : List U8 := o.segments.getD k []

def headerEvent : MotEvent := .header o.header o.transportId

def bodyEvent (k : Nat) : MotEvent := .body (o.segment k) k (k + 1 = o.number) o.transportId

def Carries (e : MotEvent) : Prop := e = o.headerEvent ∨ ∃ k < o.number, e = o.bodyEvent k

def gathered (events : List MotEvent) : List MotEvent :=
  events.foldl (fun w e => if e.transportId = (o.transportId : Int) then w ++ [e] else if e.dropped then w else []) []

def Complete (w : List MotEvent) : Prop := o.headerEvent ∈ w ∧ ∀ k < o.number, o.bodyEvent k ∈ w

instance (w) : Decidable (o.Complete w) := by unfold Complete; infer_instance

def name : List U8 :=
  let named := MotObject.readName o.header []
  if named.isEmpty then MotObject.tridName o.transportId else named

def emission (dirElement : Bool) : MotSignal :=
  .newMotObject o.segments.flatten o.name (MotObject.readHeaderCore o.header).getContentType dirElement

theorem bodyEventInj {k j : Nat} (same : o.bodyEvent k = o.bodyEvent j) : k = j := by
  injection same with _ number
  exact Int.ofNat.inj number

theorem headerNotBody (k : Nat) : o.headerEvent ≠ o.bodyEvent k := fun same => nomatch same

end MotTransfer

namespace MotObject

theorem extensionNames (segment : List U8) (pointer : Nat) : ∃ next, (∀ name, processHeaderExtension segment name pointer = (name, next)) ∨
      ∃ given, ∀ name, processHeaderExtension segment name pointer = (given, next) := by
  have parameter : ∀ start paramId length, ∃ next, (∀ name, processParameterId segment name start paramId length = (name, next)) ∨
      ∃ given, ∀ name, processParameterId segment name start paramId length = (given, next) := by
    intro start paramId length
    unfold processParameterId
    split
    · exact ⟨_,.inr ⟨_,fun _ => rfl⟩⟩
    · split <;> exact ⟨_,.inl fun _ => rfl⟩
  unfold processHeaderExtension
  dsimp only
  split
  · exact ⟨_,.inl fun _ => rfl⟩
  · exact ⟨_,.inl fun _ => rfl⟩
  · exact ⟨_,.inl fun _ => rfl⟩
  · split <;> exact parameter _ _ _

theorem extensionsNames (segment : List U8) (headerSize fuel pointer : Nat) :
    (∀ name, (headerExtensions segment headerSize fuel (name, pointer)).1 = name) ∨
      ∃ given, ∀ name, (headerExtensions segment headerSize fuel (name, pointer)).1 = given := by
  induction fuel generalizing pointer with
  | zero => exact .inl fun _ => rfl
  | succ fuel ih =>
    by_cases more : pointer < headerSize
    · have round : ∀ name, headerExtensions segment headerSize (fuel + 1) (name, pointer) =
          headerExtensions segment headerSize fuel (processHeaderExtension segment name pointer) := fun name => if_pos more
      obtain ⟨next,keeps | ⟨given,gives⟩⟩ := extensionNames segment pointer
      · rcases ih next with same | ⟨given,named⟩
        · exact .inl fun name => by rw [round,keeps,same]
        · exact .inr ⟨given,fun name => by rw [round,keeps,named]⟩
      · exact .inr ⟨(headerExtensions segment headerSize fuel (given, next)).1,fun name => by rw [round,gives]⟩
    · exact .inl fun name => congrArg Prod.fst (if_neg more)

theorem readNameCases (segment : List U8) : (∀ name, readName segment name = name) ∨ ∃ given, ∀ name, readName segment name = given :=
  extensionsNames segment _ _ 7

section Gathering

def opened (s : MotObject) (transportId : Int) : MotObject :=
  if s.mTransportId ≠ transportId then { s.reset with mTransportId := transportId } else s

theorem openedSame {s : MotObject} {transportId : Int} (same : s.mTransportId = transportId) : s.opened transportId = s := by
  unfold opened
  rw [if_neg (not_not.mpr same)]

theorem setHeaderOpened (s : MotObject) (segment : List U8) (transportId : Int) : s.setHeader segment transportId =
    finish { s.opened transportId with
      mHeaderCore := readHeaderCore segment, mName := readName segment (s.opened transportId).mName } := by
  unfold setHeader opened
  split
  · rfl
  · rename_i same
    rw [not_not] at same
    subst same
    rfl

structure Gathered (o : MotTransfer) (dirElement : Bool) (w : List MotEvent) (s : MotObject) : Prop where
  id : s.mTransportId = o.transportId
  directory : s.mIsDirElement = dirElement
  core : s.mHeaderCore = if o.headerEvent ∈ w then readHeaderCore o.header else {}
  noName : o.headerEvent ∉ w → s.mName = []
  name : o.headerEvent ∈ w → s.mName = readName o.header [] ∨
    (readName o.header [] = [] ∧ s.mName = tridName o.transportId)
  sorted : Sorted s.mMotMap
  entries : ∀ k v, (k, v) ∈ s.mMotMap ↔ k < o.number ∧ o.bodyEvent k ∈ w ∧ v = o.segment k
  last : s.mNumOfSegments = if o.bodyEvent (o.number - 1) ∈ w then (o.number : Int) else -1

variable {o : MotTransfer} {dirElement : Bool} {w : List MotEvent} {s : MotObject}

theorem openedGathered (other : s.mTransportId ≠ o.transportId) : Gathered o s.mIsDirElement [] (s.opened o.transportId) := by
  unfold opened
  rw [if_pos other]
  refine ⟨rfl,rfl,by simp [reset],fun _ => rfl,(fun member => nomatch member),List.Pairwise.nil,fun k v => ?_,by simp [reset]⟩
  simp [reset]

theorem containsGathered (gathered : Gathered o dirElement w s) (k : Nat) :
    contains s.mMotMap k = true ↔ k < o.number ∧ o.bodyEvent k ∈ w := by
  rw [containsIff]
  constructor
  · rintro ⟨v,member⟩
    obtain ⟨small,here,-⟩ := (gathered.entries k v).mp member
    exact ⟨small,here⟩
  · rintro ⟨small,here⟩
    exact ⟨o.segment k,(gathered.entries k _).mpr ⟨small,here,rfl⟩⟩

theorem mapComplete (gathered : Gathered o dirElement w s) (complete : o.Complete w) :
    s.mMotMap = (List.range o.number).map (fun k => (k, o.segment k)) := by
  refine sortedRange gathered.sorted (fun k v => ?_)
  rw [gathered.entries]
  constructor
  · rintro ⟨small,-,same⟩
    exact ⟨small,same⟩
  · rintro ⟨small,same⟩
    exact ⟨small,complete.2 k small,same⟩

theorem checkGathered (gathered : Gathered o dirElement w s) : s.checkIfComplete = true ↔ o.Complete w := by
  have positive : 0 < o.number := o.nonempty
  have small : o.number ≤ 8192 := o.few
  unfold checkIfComplete
  simp only [Bool.and_eq_true,Bool.not_eq_true',decide_eq_false_iff_not,all_eq_true,mem_range]
  constructor
  · rintro ⟨⟨⟨initialized,known⟩,-⟩,all⟩
    have header : o.headerEvent ∈ w := by
      by_contra missing
      rw [gathered.core,if_neg missing] at initialized
      exact nomatch initialized
    have count : s.mNumOfSegments = o.number := by
      have last := gathered.last
      split at last
      · exact last
      · omega
    refine ⟨header,fun k below => ?_⟩
    have here := all k (by rw [count]; exact below)
    exact ((containsGathered gathered k).mp here).2
  · intro complete
    have count : s.mNumOfSegments = o.number := by rw [gathered.last,if_pos (complete.2 _ (by omega))]
    have size : toI16 s.mMotMap.length = o.number := by
      rw [mapComplete gathered complete,length_map,length_range]
      unfold toI16
      rw [Int.bmod_eq_of_le_mul_two] <;> omega
    refine ⟨⟨⟨?_,by omega⟩,by omega⟩,fun k below => ?_⟩
    · rw [gathered.core,if_pos complete.1]
      rfl
    · rw [count] at below
      exact (containsGathered gathered k).mpr ⟨below,complete.2 k below⟩

theorem finishGathered (gathered : Gathered o dirElement w s) : Gathered o dirElement w s.finish.1 ∧
    s.finish.2 = if o.Complete w then [o.emission dirElement] else [] := by
  unfold finish
  by_cases complete : o.Complete w
  · rw [if_pos complete,if_pos ((checkGathered gathered).mpr complete)]
    have body : (s.mMotMap.map Prod.snd).flatten = o.segments.flatten := by
      rw [mapComplete gathered complete,map_map]
      congr 1
      refine ext_getElem (by simp [MotTransfer.number]) (fun k inside small => ?_)
      simp [MotTransfer.segment,small]
    have named := gathered.name complete.1
    unfold handleComplete
    by_cases empty : s.mName.isEmpty = true
    · rw [if_pos empty]
      have none : readName o.header [] = [] := by
        rcases named with same | ⟨same,-⟩
        · rw [← same]
          exact List.isEmpty_iff.mp empty
        · exact same
      refine ⟨{ gathered with noName := fun missing => absurd complete.1 missing, name := fun _ => .inr ⟨none,?_⟩ },?_⟩
      · rw [gathered.id]
      · dsimp only
        rw [body,gathered.id,gathered.core,if_pos complete.1,gathered.directory]
        simp [MotTransfer.emission,MotTransfer.name,none]
    · rw [if_neg empty]
      refine ⟨gathered,?_⟩
      dsimp only
      rw [body,gathered.core,if_pos complete.1,gathered.directory]
      have same : s.mName = o.name := by
        unfold MotTransfer.name
        rcases named with same | ⟨none,same⟩
        · rw [← same]
          simp only [empty,if_false,Bool.false_eq_true]
        · rw [none]
          exact same
      rw [same]
      rfl
  · rw [if_neg complete,if_neg (fun check => complete ((checkGathered gathered).mp check))]
    exact ⟨gathered,rfl⟩

theorem memSnoc {e x : MotEvent} : x ∈ w ++ [e] ↔ x ∈ w ∨ x = e := by rw [mem_append,mem_singleton]

theorem headerStep (gathered : Gathered o dirElement w (s.opened o.transportId)) :
    Gathered o dirElement (w ++ [o.headerEvent]) (s.setHeader o.header o.transportId).1 ∧
    (s.setHeader o.header o.transportId).2 = if o.Complete (w ++ [o.headerEvent]) then [o.emission dirElement] else [] := by
  rw [setHeaderOpened]
  have here : o.headerEvent ∈ w ++ [o.headerEvent] := memSnoc.mpr (.inr rfl)
  have bodies : ∀ k, o.bodyEvent k ∈ w ++ [o.headerEvent] ↔ o.bodyEvent k ∈ w := fun k =>
    memSnoc.trans (or_iff_left (o.headerNotBody k).symm)
  refine finishGathered { gathered with
    core := (if_pos here).symm, noName := fun missing => absurd here missing, name := fun _ => ?_
    entries := fun k v => by rw [bodies]; exact gathered.entries k v
    last := by rw [gathered.last,if_congr (bodies _) rfl rfl] }
  dsimp only
  rcases readNameCases o.header with keeps | ⟨given,gives⟩
  · -- without a name in the header, what was there is still there
    rw [keeps,keeps]
    by_cases before : o.headerEvent ∈ w
    · have named := gathered.name before
      rwa [keeps] at named
    · exact .inl (gathered.noName before)
  · rw [gives,gives]
    exact .inl rfl

theorem sliceWhole (segment : List U8) : Mp4Processor.slice segment 0 segment.length = segment := by
  unfold Mp4Processor.slice Mp4Processor.byteOf
  rw [Int.toNat_natCast]
  refine ext_getElem (by simp) (fun k inside small => ?_)
  simp [List.getD,small]

theorem loadedSilent (t : MotObject) : objects t.loadedPart = [] := by
  unfold loadedPart
  split <;> rfl

theorem bodyRepeated (gathered : Gathered o dirElement w (s.opened o.transportId)) {k : Nat} (small : k < o.number)
    (seen : o.bodyEvent k ∈ w) : s.step (o.bodyEvent k) = (s.opened o.transportId, []) := by
  have few := o.few
  have range : ¬ ((k : Int) < 0 ∨ (k : Int) ≥ 8192) := by unfold MotTransfer.number at small; omega
  have known := (containsGathered gathered k).mpr ⟨small,seen⟩
  show s.addBodySegment _ _ _ _ _ = _
  unfold addBodySegment
  rw [if_neg range]
  unfold opened at known
  dsimp only
  rw [Int.toNat_natCast,if_pos known]
  rfl

theorem bodyNew (gathered : Gathered o dirElement w (s.opened o.transportId)) {k : Nat} (small : k < o.number)
    (fresh : o.bodyEvent k ∉ w) : Gathered o dirElement (w ++ [o.bodyEvent k]) (s.step (o.bodyEvent k)).1 ∧
    objects (s.step (o.bodyEvent k)).2 = if o.Complete (w ++ [o.bodyEvent k]) then [o.emission dirElement] else [] := by
  have few := o.few
  have range : ¬ ((k : Int) < 0 ∨ (k : Int) ≥ 8192) := by unfold MotTransfer.number at small; omega
  have unknown : contains (s.opened o.transportId).mMotMap k = false := by
    rw [← Bool.not_eq_true,containsGathered gathered]
    exact fun known => fresh known.2
  let t : MotObject := { s.opened o.transportId with
    mMotMap := emplace (s.opened o.transportId).mMotMap k (o.segment k)
    mSumSegmentSize := (s.opened o.transportId).mSumSegmentSize + (o.segment k).length
    mNumOfSegments := if decide (k + 1 = o.number) then (k : Int) + 1 else (s.opened o.transportId).mNumOfSegments }
  have called : s.step (o.bodyEvent k) = (t.finish.1, t.loadedPart ++ t.finish.2) := by
    show s.addBodySegment _ _ _ _ _ = _
    unfold addBodySegment
    rw [if_neg range]
    dsimp only
    have closed : contains (if s.mTransportId ≠ (o.transportId : Int) then { s.reset with mTransportId := (o.transportId : Int) } else s).mMotMap k = false := unknown
    rw [Int.toNat_natCast,closed,if_neg Bool.false_ne_true,sliceWhole]
    rfl
  have headers : o.headerEvent ∈ w ++ [o.bodyEvent k] ↔ o.headerEvent ∈ w := memSnoc.trans (or_iff_left (o.headerNotBody k))
  have grown : Gathered o dirElement (w ++ [o.bodyEvent k]) t := by
    refine { gathered with
      core := by rw [if_congr headers rfl rfl]; exact gathered.core
      noName := fun missing => gathered.noName (fun before => missing (headers.mpr before))
      name := fun before => gathered.name (headers.mp before)
      sorted := sortedEmplace gathered.sorted unknown, entries := fun j v => ?_, last := ?_ }
    · show (j, v) ∈ emplace _ k (o.segment k) ↔ _
      rw [memEmplace,gathered.entries,memSnoc]
      constructor
      · rintro (same | ⟨below,before,value⟩)
        · cases same
          exact ⟨small,.inr rfl,rfl⟩
        · exact ⟨below,.inl before,value⟩
      · rintro ⟨below,before | same,value⟩
        · exact .inr ⟨below,before,value⟩
        · obtain rfl := o.bodyEventInj same
          exact .inl (by rw [value])
    · show (if decide (k + 1 = o.number) then (k : Int) + 1 else (s.opened o.transportId).mNumOfSegments) = _
      by_cases final : k + 1 = o.number
      · have this : k = o.number - 1 := by omega
        rw [decide_eq_true final,if_pos rfl,if_pos (memSnoc.mpr (.inr (by rw [this])))]
        omega
      · have other : ¬ o.bodyEvent (o.number - 1) = o.bodyEvent k := fun same => by
          have := o.bodyEventInj same
          omega
        rw [decide_eq_false final,if_neg Bool.false_ne_true,gathered.last,if_congr (memSnoc.trans (or_iff_left other)) rfl rfl]
  obtain ⟨kept,emitted⟩ := finishGathered grown
  rw [called]
  refine ⟨kept,?_⟩
  dsimp only
  rw [show objects (t.loadedPart ++ t.finish.2) = objects t.loadedPart ++ objects t.finish.2 from filter_append ..,loadedSilent,emitted]
  split <;> rfl

end Gathering

section Runs
variable {o : MotTransfer} {dirElement : Bool} {w : List MotEvent} {s : MotObject}

theorem stepOwn (gathered : Gathered o dirElement w (s.opened o.transportId)) {e : MotEvent} (carries : o.Carries e) :
    Gathered o dirElement (w ++ [e]) ((s.step e).1.opened o.transportId) ∧
    objects (s.step e).2 = if o.Complete (w ++ [e]) ∧ (e = o.headerEvent ∨ e ∉ w) then [o.emission dirElement] else [] := by
  rcases carries with rfl | ⟨k,small,rfl⟩
  · obtain ⟨kept,emitted⟩ := headerStep gathered
    refine ⟨?_,?_⟩
    · show Gathered o dirElement _ ((s.setHeader o.header o.transportId).1.opened o.transportId)
      rw [openedSame kept.id]
      exact kept
    · show objects (s.setHeader _ _).2 = _
      rw [emitted,if_congr (and_iff_left (.inl rfl)) rfl rfl]
      split <;> rfl
  · by_cases seen : o.bodyEvent k ∈ w
    · have repeated := bodyRepeated gathered small seen
      have same : Gathered o dirElement (w ++ [o.bodyEvent k]) (s.opened o.transportId) := by
        have kept : ∀ x, x ∈ w ++ [o.bodyEvent k] ↔ x ∈ w := fun x =>
          memSnoc.trans (or_iff_left_of_imp (fun same => same ▸ seen))
        refine { gathered with core := ?_, noName := ?_, name := ?_, entries := ?_, last := ?_ }
        · rw [if_congr (kept _) rfl rfl]
          exact gathered.core
        · rw [kept]
          exact gathered.noName
        · rw [kept]
          exact gathered.name
        · simp only [kept]
          exact gathered.entries
        · rw [if_congr (kept _) rfl rfl]
          exact gathered.last
      rw [repeated]
      refine ⟨?_,?_⟩
      · rw [openedSame same.id]
        exact same
      · rw [if_neg]
        · rfl
        · rintro ⟨-,header | fresh⟩
          · exact o.headerNotBody k header.symm
          · exact fresh seen
    · obtain ⟨kept,emitted⟩ := bodyNew gathered small seen
      refine ⟨?_,?_⟩
      · rw [openedSame kept.id]
        exact kept
      · rw [emitted,if_congr (and_iff_left (.inr seen)) rfl rfl]

theorem finishKeeps (s : MotObject) : s.finish.1.mTransportId = s.mTransportId ∧ s.finish.1.mIsDirElement = s.mIsDirElement := by
  unfold finish handleComplete
  split
  · dsimp only
    split <;> exact ⟨rfl,rfl⟩
  · exact ⟨rfl,rfl⟩

theorem stepKind (s : MotObject) (e : MotEvent) : (s.step e).1.mIsDirElement = s.mIsDirElement ∧
    (s.step e).1.mTransportId = if e.dropped then s.mTransportId else e.transportId := by
  cases e with
  | header segment transportId =>
    show (s.setHeader segment transportId).1.mIsDirElement = _ ∧ (s.setHeader segment transportId).1.mTransportId = transportId
    unfold setHeader
    refine ⟨(finishKeeps _).2.trans ?_,(finishKeeps _).1⟩
    dsimp only
    split <;> rfl
  | body segment number lastFlag transportId =>
    show (s.addBodySegment segment number segment.length lastFlag transportId).1.mIsDirElement = _ ∧
      (s.addBodySegment segment number segment.length lastFlag transportId).1.mTransportId =
        if decide (number < 0 ∨ number ≥ 8192) then s.mTransportId else transportId
    unfold addBodySegment
    by_cases out : number < 0 ∨ number ≥ 8192
    · rw [if_pos out,decide_eq_true out]
      exact ⟨rfl,rfl⟩
    · rw [if_neg out,decide_eq_false out]
      have id : (if s.mTransportId ≠ transportId then { s.reset with mTransportId := transportId } else s).mTransportId = transportId := by
        split
        · rfl
        · rename_i same
          exact not_not.mp same
      have kind : (if s.mTransportId ≠ transportId then { s.reset with mTransportId := transportId } else s).mIsDirElement = s.mIsDirElement := by
        split <;> rfl
      dsimp only
      generalize (if s.mTransportId ≠ transportId then { s.reset with mTransportId := transportId } else s) = t at id kind ⊢
      split
      · exact ⟨kind,id⟩
      · exact ⟨(finishKeeps _).2.trans kind,(finishKeeps _).1.trans id⟩

theorem stepGathered (gathered : Gathered o dirElement w s) {e : MotEvent} (carries : o.Carries e) :
    Gathered o dirElement (w ++ [e]) (s.step e).1 ∧
    objects (s.step e).2 = if o.Complete (w ++ [e]) ∧ (e = o.headerEvent ∨ e ∉ w) then [o.emission dirElement] else [] := by
  have few := o.few
  have handled : (s.step e).1.mTransportId = o.transportId := by
    rw [(stepKind s e).2]
    rcases carries with rfl | ⟨k,small,rfl⟩
    · rfl
    · have range : ¬ ((k : Int) < 0 ∨ (k : Int) ≥ 8192) := by unfold MotTransfer.number at small; omega
      exact if_neg (by rw [show (o.bodyEvent k).dropped = decide ((k : Int) < 0 ∨ (k : Int) ≥ 8192) from rfl,decide_eq_false range]; decide)
  have step := stepOwn (s := s) (by rw [openedSame gathered.id]; exact gathered) carries
  rwa [openedSame handled] at step

theorem gatheredSnoc (o : MotTransfer) (events : List MotEvent) (e : MotEvent) : o.gathered (events ++ [e]) =
    if e.transportId = (o.transportId : Int) then o.gathered events ++ [e] else if e.dropped then o.gathered events else [] := by
  unfold MotTransfer.gathered
  rw [foldl_append]
  rfl

theorem runSnoc (s : MotObject) (events : List MotEvent) (e : MotEvent) : s.run (events ++ [e]) = ((s.run events).step e).1 := by
  unfold run
  rw [foldl_append]
  rfl

theorem runKind (s : MotObject) (events : List MotEvent) : (s.run events).mIsDirElement = s.mIsDirElement := by
  induction events using List.reverseRecOn with
  | nil => rfl
  | append_singleton events e ih =>
    rw [runSnoc,(stepKind _ e).1]
    exact ih

theorem runGathered (other : s.mTransportId ≠ o.transportId) (events : List MotEvent)
    (own : ∀ e ∈ events, e.transportId = o.transportId → o.Carries e) :
    Gathered o s.mIsDirElement (o.gathered events) ((s.run events).opened o.transportId) := by
  induction events using List.reverseRecOn with
  | nil => exact openedGathered other
  | append_singleton events e ih =>
    rw [forall_mem_append] at own
    have before := ih own.1
    rw [gatheredSnoc,runSnoc]
    have kind := stepKind (s.run events) e
    split
    · rename_i mine
      exact (stepOwn before (own.2 e (mem_singleton_self e) mine)).1
    · rename_i foreign
      split
      · rename_i dropped
        have same : ((s.run events).step e).1 = s.run events := by
          cases e with
          | header segment transportId => exact nomatch dropped
          | body segment number lastFlag transportId => exact congrArg Prod.fst (if_pos (of_decide_eq_true dropped))
        rw [same]
        exact before
      · rename_i handled
        have id := kind.2
        rw [if_neg handled] at id
        have fresh := @openedGathered o ((s.run events).step e).1 (by rw [id]; exact foreign)
        rw [kind.1,runKind] at fresh
        exact fresh

theorem objectReassembled (o : MotTransfer) (s : MotObject) (other : s.mTransportId ≠ o.transportId) (events : List MotEvent)
    (own : ∀ e ∈ events, e.transportId = o.transportId → o.Carries e) (before : List MotEvent) (e : MotEvent)
    (received : before ++ [e] <+: events) (mine : e.transportId = o.transportId) : let w := o.gathered before
    let emitted := objects ((s.run before).step e).2
    (¬ o.Complete w → emitted = if o.Complete (w ++ [e]) then [o.emission s.mIsDirElement] else []) ∧
    (∀ signal ∈ emitted, signal = o.emission s.mIsDirElement) := by
  intro w emitted
  have inside : ∀ x ∈ before ++ [e], x.transportId = o.transportId → o.Carries x := fun x member => own x (received.subset member)
  rw [forall_mem_append] at inside
  have gathered := runGathered other before inside.1
  obtain ⟨-,exact⟩ := stepOwn gathered (inside.2 e (mem_singleton_self e) mine)
  refine ⟨fun missing => ?_,fun signal member => ?_⟩
  · show objects ((s.run before).step e).2 = _
    rw [exact]
    refine if_congr (and_iff_left_of_imp (fun complete => ?_)) rfl rfl
    -- an event that was there before cannot complete anything
    refine .inr (fun seen => missing ?_)
    have same : ∀ x, x ∈ o.gathered before ++ [e] → x ∈ o.gathered before := fun x member =>
      (memSnoc.mp member).elim id (fun last => last ▸ seen)
    exact ⟨same _ complete.1,fun k small => same _ (complete.2 k small)⟩
  · have listed : signal ∈ objects ((s.run before).step e).2 := member
    rw [exact] at listed
    split at listed
    · exact mem_singleton.mp listed
    · exact nomatch listed

def smallTransfer : MotTransfer := ⟨5,[0x00#8,0x00#8,0x00#8,0x30#8,0x03#8,0x84#8,0x01#8],[[1#8,2#8],[3#8]],by decide,by decide⟩

def smallEvents : List MotEvent := [smallTransfer.bodyEvent 0,.header [] 6,smallTransfer.bodyEvent 1,smallTransfer.headerEvent]

theorem smallEmitted : objects (((newMotObject false true).run smallEvents).step (smallTransfer.bodyEvent 0)).2 =
    [smallTransfer.emission false] := by
  have own : ∀ e ∈ smallEvents ++ [smallTransfer.bodyEvent 0], e.transportId = smallTransfer.transportId → smallTransfer.Carries e := by
    have all : ∀ e ∈ smallEvents ++ [smallTransfer.bodyEvent 0], e.transportId = smallTransfer.transportId →
        e = smallTransfer.headerEvent ∨ ∃ k < smallTransfer.number, e = smallTransfer.bodyEvent k := by decide
    exact all
  have missing : ¬ smallTransfer.Complete (smallTransfer.gathered smallEvents) := by decide
  have reassembled := (objectReassembled smallTransfer (newMotObject false true) (by decide) _ own smallEvents
    (smallTransfer.bodyEvent 0) (prefix_refl _) rfl).1 missing
  rw [if_pos (by decide)] at reassembled
  exact reassembled

end Runs

end MotObject
end DabStar
