import DabStar.PadLabels

/-! Dynamic labels when X-PAD frames are lost. Wherever the handler appends a field, it has to
be the next one of the label it is collecting; in every run in which this is so, only complete
labels are shown. -/
namespace DabStar
open List Lib.Prefixes
open PadHandler (collect)

namespace LabelGroup

def needed : Nat → List (Bool × List U8) → List (Bool × List U8)
  | _, [] => []
  | length, p :: rest => if length = 0 then [] else p :: needed (length - p.2.length) rest

def fields (g : LabelGroup) (length : Nat) : List PadEvent :=
  .subfield 2 g.start :: (needed (length - (g.start.length - 2)) g.pieces).map (pieceEvent 2)

theorem neededFront (length : Nat) (pieces : List (Bool × List U8)) : needed length pieces <+: pieces := by
  induction pieces generalizing length with
  | nil => exact prefix_refl _
  | cons p pieces ih =>
    unfold needed
    split
    · exact nil_prefix
    · exact cons_prefix_cons.mpr ⟨rfl,ih _⟩

theorem neededEnough {length : Nat} {pieces : List (Bool × List U8)} (enough : length ≤ (pieces.map Prod.snd).flatten.length) :
    length ≤ ((needed length pieces).map Prod.snd).flatten.length := by
  induction pieces generalizing length with
  | nil => exact enough
  | cons p pieces ih =>
    rw [map_cons,flatten_cons,length_append] at enough
    unfold needed
    split
    · omega
    · have later := @ih (length - p.2.length) (by omega)
      rw [map_cons,flatten_cons,length_append]
      omega

end LabelGroup

structure LabelTransmission where
  label : DynamicLabel
  groups : List LabelGroup
  cut : List.Forall₂ LabelGroup.Carries groups label.segments

namespace LabelTransmission
variable {m : LabelTransmission}

def events (m : LabelTransmission) : List PadEvent := m.groups.flatMap LabelGroup.events

def fields (m : LabelTransmission) : List PadEvent := (m.groups.zip m.label.segments).flatMap (fun x => x.1.fields x.2.text.length)

def shown (m : LabelTransmission) : List U8 × Nat := (m.label.text, m.label.charSet)

theorem carried {k : Nat} {g : LabelGroup} (found : m.groups[k]? = some g) :
    k < m.label.segments.length ∧ g.Carries (m.label.segment k) := by
  obtain ⟨inside,here⟩ := List.getElem?_eq_some_iff.mp found
  have within : k < m.label.segments.length := m.cut.length_eq ▸ inside
  have carried := (List.forall₂_iff_get.mp m.cut).2 k inside within
  rw [get_eq_getElem,get_eq_getElem,here] at carried
  unfold DynamicLabel.segment
  rw [getD_eq_getElem _ _ within]
  exact ⟨within,carried⟩

theorem firstField {g : LabelGroup} (found : m.groups[0]? = some g) : [.subfield 2 g.start] <+: m.fields := by
  have cut := m.cut
  unfold fields
  generalize m.groups = groups at cut found ⊢
  generalize m.label.segments = segments at cut ⊢
  cases cut with
  | nil => exact nomatch found
  | cons carries rest =>
    obtain rfl := Option.some.inj found
    rw [zip_cons_cons,flatMap_cons]
    exact cons_prefix_cons.mpr ⟨rfl, nil_prefix⟩

theorem startOf {data : List U8} (member : .subfield 2 data ∈ m.events) : ∃ (k : Nat) (g : LabelGroup), m.groups[k]? = some g ∧ data = g.start := by
  obtain ⟨g,inside,here⟩ := mem_flatMap.mp member
  obtain ⟨k,found⟩ := mem_iff_getElem?.mp inside
  refine ⟨k,g,found,?_⟩
  rcases mem_cons.mp here with same | later
  · injection same
  · rcases mem_append.mp later with piece | gap
    · obtain ⟨⟨subfield,d⟩,-,same⟩ := mem_map.mp piece
      cases subfield with
      | false => exact nomatch same
      | true =>
        injection same with type
        exact absurd type (by decide)
    · exact absurd rfl ((carried found).2.gap _ gap).1

end LabelTransmission

def startFlag (data : List U8) : Nat := (be16 data 0 >>> 14) &&& 1

def Starts : PadEvent → Prop
  | .subfield appType data => appType = 2 ∧ startFlag data ≠ 0
  | .plain _ => False

instance : DecidablePred Starts
  | .subfield appType data => inferInstanceAs (Decidable (appType = 2 ∧ startFlag data ≠ 0))
  | .plain _ => inferInstanceAs (Decidable False)

namespace PadHandler
variable {s t : PadHandler} {data : List U8} {e : PadEvent} {m : LabelTransmission} {transmitted : List LabelTransmission} {taken : List PadEvent}

def Appends (s : PadHandler) : PadEvent → Prop
  | .subfield appType data =>
    appType = 2 ∧ startFlag data = 0 ∧ (((be16 data 0 >>> 4) &&& 7 : Nat) : Int) = s.mSegmentNo ∨ appType = 3 ∧ s.mMoreXPad = true
  | .plain _ => s.OwnApplication ∧ s.mMoreXPad = true

instance (s : PadHandler) : Decidable s.OwnApplication := by unfold OwnApplication; infer_instance

instance (s : PadHandler) : DecidablePred s.Appends
  | .subfield appType data => inferInstanceAs (Decidable (appType = 2 ∧ startFlag data = 0 ∧
      (((be16 data 0 >>> 4) &&& 7 : Nat) : Int) = s.mSegmentNo ∨ appType = 3 ∧ s.mMoreXPad = true))
  | .plain _ => inferInstanceAs (Decidable (s.OwnApplication ∧ s.mMoreXPad = true))

def takenAfter (s : PadHandler) (taken : List PadEvent) (e : PadEvent) : List PadEvent :=
  if Starts e then [e] else if s.Appends e then taken ++ [e] else taken

def KeepsPlace (transmitted : List LabelTransmission) : PadHandler → List PadEvent → List PadEvent → Prop
  | _, _, [] => True
  | s, taken, e :: rest => (s.Appends e → ∃ m ∈ transmitted, taken ++ [e] <+: m.fields) ∧ KeepsPlace transmitted (s.step e).1 (s.takenAfter taken e) rest

structure Resumes (s t : PadHandler) : Prop where
  text : s.mDynamicLabelTextUnConverted = t.mDynamicLabelTextUnConverted
  charSet : s.mCharSet = t.mCharSet
  more : s.mMoreXPad = t.mMoreXPad
  waiting : t.mMoreXPad = true → s.mRemainDataLength = t.mRemainDataLength ∧ s.mIsLastSegment = t.mIsLastSegment
  number : s.mSegmentNo = t.mSegmentNo ∨ s.mSegmentNo = -1

theorem sameResumes {u : PadHandler} (same : SameLabel s u) (resumes : Resumes s t) : Resumes u t :=
  ⟨same.text ▸ resumes.text,same.charSet ▸ resumes.charSet,same.more ▸ resumes.more,
    fun part => ⟨same.remain ▸ (resumes.waiting part).1,same.isLast ▸ (resumes.waiting part).2⟩,same.number ▸ resumes.number⟩

def NoCommand (data : List U8) : Prop := (be16 data 0 >>> 12) &&& 1 = 0

theorem startResumes (text : s.mDynamicLabelTextUnConverted = t.mDynamicLabelTextUnConverted) (charSet : s.mCharSet = t.mCharSet)
    (number : s.mSegmentNo = t.mSegmentNo) (noCommand : NoCommand data) :
    Resumes (s.labelStart data).1 (t.labelStart data).1 ∧ (s.labelStart data).2 = (t.labelStart data).2 := by
  have isText : ¬ (be16 data 0 >>> 12) &&& 1 ≠ 0 := not_not_intro noCommand
  unfold labelStart
  dsimp only
  rw [if_neg isText,if_neg isText,text,charSet]
  generalize ((be16 data 0 >>> 8) &&& 0x0F) + 1 = total
  by_cases last : (be16 data 0 >>> 13) &&& 1 ≠ 0
  · rw [if_pos last,if_pos last]
    by_cases part : data.length - 2 < total
    · rw [decide_eq_true part]
      exact ⟨⟨rfl,rfl,rfl,fun _ => ⟨rfl,rfl⟩,.inl number⟩,rfl⟩
    · rw [decide_eq_false part,Bool.not_false,if_pos rfl,if_pos rfl]
      exact ⟨⟨rfl,rfl,rfl,fun missing => (nomatch missing),.inl rfl⟩,rfl⟩
  · rw [if_neg last,if_neg last]
    exact ⟨⟨rfl,rfl,rfl,fun _ => ⟨rfl,rfl⟩,.inl number⟩,rfl⟩

theorem firstResumes (s t : PadHandler) (first : startFlag data ≠ 0) (noCommand : NoCommand data) :
    Resumes (s.dynamicLabel data 2).1 (t.dynamicLabel data 2).1 ∧ (s.dynamicLabel data 2).2 = (t.dynamicLabel data 2).2 := by
  have opened : ∀ u : PadHandler, u.dynamicLabel data 2 =
      { u with mSegmentNo := 1, mCharSet := (be16 data 0 >>> 4) &&& 0x0F, mDynamicLabelTextUnConverted := [] }.labelStart data := by
    intro u
    unfold dynamicLabel
    exact (if_pos rfl).trans (if_pos first)
  rw [opened,opened]
  exact startResumes rfl rfl rfl noCommand

theorem nextSegment (other : startFlag data = 0) : s.dynamicLabel data 2 =
    if (((be16 data 0 >>> 4) &&& 7 : Nat) : Int) = s.mSegmentNo then { s with mSegmentNo := s.mSegmentNo + 1 }.labelStart data
    else ({ s with mSegmentNo := -1 }, []) := by
  unfold dynamicLabel
  dsimp only
  rw [if_pos rfl,if_neg (not_not_intro other : ¬ (be16 data 0 >>> 14) &&& 1 ≠ 0)]
  by_cases number : (((be16 data 0 >>> 4) &&& 7 : Nat) : Int) = s.mSegmentNo
  · rw [if_pos number,if_neg (by omega),number]
  · rw [if_neg number,if_pos (by omega)]

theorem segmentResumes (resumes : Resumes s t) (other : startFlag data = 0) (number : (((be16 data 0 >>> 4) &&& 7 : Nat) : Int) = s.mSegmentNo)
    (noCommand : NoCommand data) :
    Resumes (s.dynamicLabel data 2).1 (t.dynamicLabel data 2).1 ∧ (s.dynamicLabel data 2).2 = (t.dynamicLabel data 2).2 := by
  have counted : s.mSegmentNo = t.mSegmentNo := resumes.number.resolve_right (by omega)
  rw [nextSegment other,nextSegment other,if_pos number,if_pos (number.trans counted)]
  exact startResumes resumes.text resumes.charSet (congrArg (· + 1) counted) noCommand

theorem continuationResumes (resumes : Resumes s t) (more : s.mMoreXPad = true) :
    Resumes (s.dynamicLabel data 3).1 (t.dynamicLabel data 3).1 ∧ (s.dynamicLabel data 3).2 = (t.dynamicLabel data 3).2 := by
  have missing : t.mMoreXPad = true := resumes.more ▸ more
  have taken : ∀ u : PadHandler, u.mMoreXPad = true → u.dynamicLabel data 3 = u.labelContinuation data := by
    intro u more
    unfold dynamicLabel
    rw [if_neg (by decide),if_pos ⟨rfl,more⟩]
  obtain ⟨remain,isLast⟩ := resumes.waiting missing
  rw [taken s more,taken t missing]
  unfold labelContinuation
  dsimp only
  rw [resumes.text,resumes.charSet,remain,isLast]
  exact ⟨⟨rfl,rfl,rfl,fun _ => ⟨rfl,rfl⟩,resumes.number⟩,rfl⟩

def Plain (e : PadEvent) : Prop := ∀ data, e = .subfield 2 data → NoCommand data

theorem namedResumes {u v : PadHandler} (a b : Nat) (resumes : Resumes u v) : Resumes { u with mLastAppType := a } { v with mLastAppType := b } :=
  ⟨resumes.text,resumes.charSet,resumes.more,resumes.waiting,resumes.number⟩

theorem startsResumes (s t : PadHandler) (starts : Starts e) (plain : Plain e) :
    Resumes (s.step e).1 (t.step e).1 ∧ (s.step e).2 = (t.step e).2 := by
  cases e with
  | plain data => exact starts.elim
  | subfield appType data =>
    obtain ⟨rfl,first⟩ := starts
    obtain ⟨after,signals⟩ := firstResumes s t first (plain data rfl)
    exact ⟨namedResumes 2 2 after,signals⟩

theorem appendsResumes (resumes : Resumes s t) (own : t.OwnApplication) (appends : s.Appends e) (plain : Plain e) :
    Resumes (s.step e).1 (t.step e).1 ∧ (s.step e).2 = (t.step e).2 := by
  cases e with
  | subfield appType data =>
    rcases appends with ⟨rfl,other,number⟩ | ⟨rfl,more⟩
    · obtain ⟨after,signals⟩ := segmentResumes resumes other number (plain data rfl)
      exact ⟨namedResumes 2 2 after,signals⟩
    · obtain ⟨after,signals⟩ := @continuationResumes s t data resumes more
      exact ⟨namedResumes 3 3 after,signals⟩
  | plain data =>
    rw [plainContinues appends.1,plainContinues own]
    exact continuationResumes resumes appends.2

theorem skipsResumes (resumes : Resumes s t) (starts : ¬ Starts e) (appends : ¬ s.Appends e) :
    Resumes (s.step e).1 t ∧ labels (s.step e).2 = [] := by
  cases e with
  | subfield appType data =>
    by_cases start : appType = 2
    · subst start
      have other : startFlag data = 0 := by
        by_contra first
        exact starts ⟨rfl,first⟩
      have number : ¬ (((be16 data 0 >>> 4) &&& 7 : Nat) : Int) = s.mSegmentNo := fun same => appends (.inl ⟨rfl,other,same⟩)
      have step : s.step (.subfield 2 data) = ({ s with mSegmentNo := -1, mLastAppType := 2 }, []) := by
        show ({ (s.dynamicLabel data 2).1 with mLastAppType := 2 }, (s.dynamicLabel data 2).2) = _
        rw [nextSegment other,if_neg number]
      rw [step]
      exact ⟨⟨resumes.text,resumes.charSet,resumes.more,resumes.waiting,.inr rfl⟩,rfl⟩
    by_cases continuation : appType = 3
    · subst continuation
      have whole : ¬ s.mMoreXPad = true := fun more => appends (.inr ⟨rfl,more⟩)
      have step : s.step (.subfield 3 data) = ({ s with mLastAppType := 3 }, []) := by
        show ({ (s.dynamicLabel data 3).1 with mLastAppType := 3 }, (s.dynamicLabel data 3).2) = _
        unfold dynamicLabel
        rw [if_neg (by decide),if_neg (fun both => whole both.2)]
      rw [step]
      exact ⟨⟨resumes.text,resumes.charSet,resumes.more,resumes.waiting,resumes.number⟩,rfl⟩
    · obtain ⟨same,silent⟩ := @otherSubfield s data appType start continuation
      exact ⟨sameResumes same resumes,silent⟩
  | plain data =>
    obtain ⟨same,silent⟩ : SameLabel s (s.step (.plain data)).1 ∧ labels (s.step (.plain data)).2 = [] := by
      by_cases own : s.OwnApplication
      · exact plainComplete (Bool.eq_false_iff.mpr fun more => appends ⟨own,more⟩)
      · exact plainLabel own
    exact ⟨sameResumes same resumes,silent⟩

theorem fieldsShow (long : ∀ g ∈ m.groups, 2 ≤ g.start.length) (part : taken <+: m.fields) : ∀ x ∈ labels (s.run taken).2, x = m.shown := by
  rcases prefixFlatMap part with rfl | ⟨k,⟨g,segment⟩,rest,found,begins,within,rfl⟩
  · exact fun x none => nomatch none
  have pair : ∀ (k : Nat) (x : LabelGroup × LabelSegment), (m.groups.zip m.label.segments)[k]? = some x →
      m.groups[k]? = some x.1 ∧ x.2 = m.label.segment k := by
    intro k x found
    obtain ⟨left,right⟩ := List.getElem?_zip_eq_some.mp found
    refine ⟨left,?_⟩
    unfold DynamicLabel.segment
    rw [getD_eq_getElem?_getD,right]
    rfl
  have whole : ∀ (k : Nat) (x : LabelGroup × LabelSegment), (m.groups.zip m.label.segments)[k]? = some x →
      k < m.label.segments.length → ∀ s, Ready m.label k s →
      ∃ n, PartReceived m.label k s (x.1.fields x.2.text.length) n ∧ (m.label.segment k).text.length ≤ n := by
    intro k x found inside s ready
    obtain ⟨here,same⟩ := pair k x found
    have carries := (LabelTransmission.carried here).2
    have all := groupWhole inside (long _ (mem_of_getElem? here)) carries
    refine ⟨_,piecesReceived ready inside (long _ (mem_of_getElem? here)) carries (LabelGroup.neededFront _ _),?_⟩
    rw [same]
    have enough := @LabelGroup.neededEnough ((m.label.segment k).text.length - (x.1.start.length - 2)) x.1.pieces (by omega)
    omega
  obtain ⟨here,rfl⟩ := pair k _ found
  obtain ⟨inside,carries⟩ := LabelTransmission.carried here
  have few : k ≤ (m.groups.zip m.label.segments).length := (List.getElem?_eq_some_iff.mp found).1.le
  obtain ⟨ready,silent,-⟩ := groupsReceived (s := s) whole k few inside
  rw [runAppend,labelsAppend,silent,nil_append]
  obtain rfl | ⟨q,rfl,behind⟩ := prefix_cons_iff.mp within
  · exact absurd rfl begins
  obtain ⟨pieces,front,rfl⟩ := prefix_map_iff.mp behind
  have received := piecesReceived ready inside (long _ (mem_of_getElem? here)) carries (front.trans (LabelGroup.neededFront _ _))
  rw [received.shows]
  unfold shownLabel
  split
  · exact fun x member => mem_singleton.mp member
  · exact fun x none => nomatch none

structure Follows (taken : List PadEvent) (s : PadHandler) : Prop where
  resumes : Resumes s (({} : PadHandler).run taken).1
  own : taken = [] ∨ (({} : PadHandler).run taken).1.OwnApplication

theorem runSingle (s : PadHandler) (e : PadEvent) : s.run [e] = s.step e := by
  show ((s.step e).1, (s.step e).2 ++ []) = s.step e
  rw [append_nil]

theorem nothingAppended (follows : Follows [] s) : ¬ s.Appends e := by
  have number : s.mSegmentNo = -1 := follows.resumes.number.elim id id
  have more : s.mMoreXPad = false := follows.resumes.more
  cases e with
  | subfield appType data =>
    rintro (⟨-,-,same⟩ | ⟨-,missing⟩)
    · omega
    · exact Bool.false_ne_true (more.symm.trans missing)
  | plain data => exact fun both => Bool.false_ne_true (more.symm.trans both.2)

theorem appendsOwn (own : t.OwnApplication) (appends : s.Appends e) : (t.step e).1.OwnApplication := by
  cases e with
  | subfield appType data => exact appends.imp And.left And.left
  | plain data =>
    unfold OwnApplication
    rw [plainKeepsType]
    exact own

structure Genuine (transmitted : List LabelTransmission) (e : PadEvent) : Prop where
  plain : Plain e
  first : Starts e → ∃ m ∈ transmitted, [e] <+: m.fields

theorem stepFollows (long : ∀ m ∈ transmitted, ∀ g ∈ m.groups, 2 ≤ g.start.length) (follows : Follows taken s)
    (genuine : Genuine transmitted e) (place : s.Appends e → ∃ m ∈ transmitted, taken ++ [e] <+: m.fields) :
    Follows (s.takenAfter taken e) (s.step e).1 ∧ ∀ x ∈ labels (s.step e).2, ∃ m ∈ transmitted, x = m.shown := by
  unfold takenAfter
  by_cases starts : Starts e
  · rw [if_pos starts]
    obtain ⟨resumes,signals⟩ := startsResumes s {} starts genuine.plain
    obtain ⟨m,member,front⟩ := genuine.first starts
    have shows := fieldsShow (s := {}) (long m member) front
    rw [runSingle] at shows
    refine ⟨⟨by rw [runSingle]; exact resumes,.inr ?_⟩,fun x here => ⟨m,member,shows x (signals ▸ here)⟩⟩
    rw [runSingle]
    cases e with
    | subfield appType data => exact .inl starts.1
    | plain data => exact starts.elim
  rw [if_neg starts]
  by_cases appends : s.Appends e
  · rw [if_pos appends]
    have some : taken ≠ [] := fun empty => nothingAppended (empty ▸ follows) appends
    have own := follows.own.resolve_left some
    obtain ⟨m,member,front⟩ := place appends
    obtain ⟨resumes,signals⟩ := appendsResumes follows.resumes own appends genuine.plain
    have shows := fieldsShow (s := {}) (long m member) front
    have after : (({} : PadHandler).run (taken ++ [e])).1 = ((({} : PadHandler).run taken).1.step e).1 := by rw [runAppend,runSingle]
    refine ⟨⟨after ▸ resumes,.inr (after ▸ appendsOwn own appends)⟩,fun x here => ⟨m,member,shows x ?_⟩⟩
    rw [runAppend,runSingle,labelsAppend]
    exact mem_append_right _ (signals ▸ here)
  · rw [if_neg appends]
    obtain ⟨resumes,silent⟩ := skipsResumes follows.resumes starts appends
    refine ⟨⟨resumes,follows.own⟩,fun x here => ?_⟩
    rw [silent] at here
    exact nomatch here

theorem runFollows (long : ∀ m ∈ transmitted, ∀ g ∈ m.groups, 2 ≤ g.start.length) {events : List PadEvent} (follows : Follows taken s)
    (genuine : ∀ e ∈ events, Genuine transmitted e) (place : KeepsPlace transmitted s taken events) :
    ∀ x ∈ labels (s.run events).2, ∃ m ∈ transmitted, x = m.shown := by
  induction events generalizing s taken with
  | nil => exact fun x none => nomatch none
  | cons e events ih =>
    rw [forall_mem_cons] at genuine
    obtain ⟨next,here⟩ := stepFollows long follows genuine.1 place.1
    have later := ih next genuine.2 place.2
    show ∀ x ∈ labels ((s.step e).2 ++ _), _
    rw [labelsAppend]
    exact fun x member => (mem_append.mp member).elim (here x) (later x)

section Loss
variable {sent received : List (PadCall × XPadFrame)}

theorem seenSent {x : Int} {appType : Nat} (lost : received.Sublist sent) (member : .subfield appType data ∈ eventsSeen x received) :
    .subfield appType data ∈ eventsOf sent := by
  have kept : ∀ f ∈ received, f ∈ sent := fun f member => lost.subset member
  induction received generalizing x with
  | nil => exact nomatch member
  | cons f received ih =>
    rw [forall_mem_cons] at kept
    rcases mem_append.mp (show _ ∈ seen x f.1 f.2 ++ _ from member) with here | later
    · refine mem_flatMap.mpr ⟨f,kept.1,?_⟩
      obtain ⟨call,frame⟩ := f
      cases frame with
      | indicated fields => exact here
      | plain d =>
        simp only [seen] at here
        split at here
        · exact nomatch mem_singleton.mp here
        · exact nomatch here
    · exact ih ((sublist_cons_self f received).trans lost) later kept.2

theorem labelsUnderLoss (transmitted : List LabelTransmission) (lead : List PadEvent) (x : Int) (sent received : List (PadCall × XPadFrame))
    (formed : WellFormed x sent) (others : ∀ e ∈ lead, Apart 2 e) (events : eventsOf sent = lead ++ transmitted.flatMap LabelTransmission.events)
    (lost : received.Sublist sent) (place : KeepsPlace transmitted {} [] (eventsSeen (-1) received)) :
    ∀ x ∈ labels (receive {} (received.map Prod.fst)).2, ∃ m ∈ transmitted, x = (m.label.text, m.label.charSet) := by
  have readable : ∀ f ∈ received, Readable f := fun f member => formedReadable formed f (lost.subset member)
  have view := (labelView.receive readable (rfl : labelState {} = labelState {})).2
  have long : ∀ m ∈ transmitted, ∀ g ∈ m.groups, 4 ≤ g.start.length := by
    intro m member g inside
    have start : .subfield 2 g.start ∈ eventsOf sent := by
      rw [events]
      exact mem_append_right _ (mem_flatMap.mpr ⟨m,member,mem_flatMap.mpr ⟨g,inside,mem_cons_self⟩⟩)
    exact subfieldLong formed start
  have genuine : ∀ e ∈ eventsSeen (-1) received, Genuine transmitted e := by
    intro e member
    have source : ∀ data, e = .subfield 2 data → ∃ m ∈ transmitted, ∃ (k : Nat) (g : LabelGroup), m.groups[k]? = some g ∧ data = g.start ∧
        be16 data 0 = (m.label.segment k).word := by
      rintro data rfl
      have there := seenSent lost member
      rw [events] at there
      rcases mem_append.mp there with front | behind
      · exact absurd rfl (others _ front).1
      · obtain ⟨m,inside,own⟩ := mem_flatMap.mp behind
        obtain ⟨k,g,found,rfl⟩ := LabelTransmission.startOf own
        obtain ⟨within,carries⟩ := LabelTransmission.carried found
        have bytes := (long m inside g (mem_of_getElem? found))
        exact ⟨m,inside,k,g,found,rfl,(startBytes (m.label.numbered k within).header (by omega) carries.bytes).1⟩
    refine ⟨fun data same => ?_,fun starts => ?_⟩
    · obtain ⟨m,-,k,g,found,-,word⟩ := source data same
      unfold NoCommand
      rw [word]
      exact (m.label.numbered k (LabelTransmission.carried found).1).command
    · cases e with
      | plain data => exact starts.elim
      | subfield appType data =>
        obtain ⟨rfl,first⟩ := starts
        obtain ⟨m,inside,k,g,found,rfl,word⟩ := source data rfl
        unfold startFlag at first
        rw [word] at first
        obtain rfl := (m.label.numbered k (LabelTransmission.carried found).1).first.mp first
        exact ⟨m,inside,LabelTransmission.firstField found⟩
  have start : Follows [] ({} : PadHandler) := ⟨⟨rfl,rfl,rfl,fun _ => ⟨rfl,rfl⟩,.inl rfl⟩,.inl rfl⟩
  rw [view]
  exact runFollows (fun m member g inside => (long m member g inside).trans' (by decide)) start genuine place

def farewell : DynamicLabel where
  charSet := 15
  segments := [⟨[0x62#8,0xF0#8],[0x58#8,0x59#8,0x5A#8],[0x12#8,0x34#8]⟩]
  some := by decide
  few := by decide
  numbered := by
    intro k inside
    obtain rfl : k = 0 := by simpa using inside
    exact ⟨rfl,rfl,by decide,by decide,by decide,by decide,by decide,fun _ => by decide,fun other => absurd rfl other⟩

def greetingSent : LabelTransmission where
  label := greeting
  groups := [⟨[0x62#8,0xF0#8,0x41#8,0x42#8],[(false, [0x43#8,0x12#8,0x34#8,0x00#8,0x00#8,0x00#8])],[]⟩]
  cut := .cons ⟨⟨[0x00#8,0x00#8,0x00#8],rfl⟩,fun _ none => nomatch none⟩ .nil

def farewellSent : LabelTransmission where
  label := farewell
  groups := [⟨[0x62#8,0xF0#8,0x58#8,0x59#8],[(false, [0x5A#8,0x12#8,0x34#8,0x00#8,0x00#8,0x00#8])],[]⟩]
  cut := .cons ⟨⟨[0x00#8,0x00#8,0x00#8],rfl⟩,fun _ none => nomatch none⟩ .nil

def farewellFrames : List (PadCall × XPadFrame) :=
  [(⟨[0x59#8,0x58#8,0xF0#8,0x62#8,0x00#8,0x02#8],5,0x20#8,0x02#8⟩, .indicated [(0x02#8, [0x62#8,0xF0#8,0x58#8,0x59#8])]),
    (⟨[0x00#8,0x00#8,0x00#8,0x34#8,0x12#8,0x5A#8],5,0x20#8,0x00#8⟩, .plain [0x5A#8,0x12#8,0x34#8,0x00#8,0x00#8,0x00#8])]

theorem twoLabelsFormed : WellFormed (-1) (greetingFrames ++ farewellFrames) :=
  ⟨⟨by decide,by decide,by decide,by decide⟩,by decide,⟨by decide,by decide,by decide,by decide⟩,by decide,
    ⟨by decide,by decide,by decide,by decide⟩,by decide,⟨by decide,by decide,by decide,by decide⟩,by decide,trivial⟩

theorem endLost : labels (receive {} ((greetingFrames.take 1 ++ farewellFrames).map Prod.fst)).2 = [([0x58#8,0x59#8,0x5A#8], 15)] ∧
    ∀ x ∈ labels (receive {} ((greetingFrames.take 1 ++ farewellFrames).map Prod.fst)).2,
      ∃ m ∈ [greetingSent,farewellSent], x = (m.label.text, m.label.charSet) := by
  have place : KeepsPlace [greetingSent,farewellSent] {} [] (eventsSeen (-1) (greetingFrames.take 1 ++ farewellFrames)) :=
    ⟨fun appends => absurd appends (by decide),fun appends => absurd appends (by decide),
      fun _ => ⟨farewellSent,by simp,by decide⟩,trivial⟩
  refine ⟨by decide,?_⟩
  exact labelsUnderLoss [greetingSent,farewellSent] [] (-1) (greetingFrames ++ farewellFrames) _ twoLabelsFormed (fun e none => nomatch none) rfl
    ((take_sublist 1 greetingFrames).append_right farewellFrames) place

theorem labelsMixed : ∃ (transmitted : List LabelTransmission) (sent received : List (PadCall × XPadFrame)), WellFormed (-1) sent ∧
    eventsOf sent = transmitted.flatMap LabelTransmission.events ∧ received.Sublist sent ∧
    ∃ x ∈ labels (receive {} (received.map Prod.fst)).2, ∀ m ∈ transmitted, x ≠ (m.label.text, m.label.charSet) := by
  refine ⟨[greetingSent,farewellSent],greetingFrames ++ farewellFrames,greetingFrames.take 1 ++ farewellFrames.drop 1,twoLabelsFormed,
    rfl,(take_sublist 1 _).append (drop_sublist 1 _),([0x41#8,0x42#8,0x5A#8], 15),?_,?_⟩
  · decide
  · rw [forall_mem_cons,forall_mem_singleton]
    exact ⟨by decide,by decide⟩

end Loss

end PadHandler
end DabStar
