import DabStar.PadHandler

/-! The variable X-PAD as a sequence of events: one for each subfield of a frame with contents
indicators, one for a frame without. What the handler does with a frame is what it does with
its events. -/
namespace DabStar
open List
open Mp4Processor (byteOf)
open PadHandler (getLength getApplType collect xPadLengthOf)

inductive PadEvent where
  | subfield (appType : Nat) (data : List U8)
  | plain (data : List U8)
  deriving DecidableEq, Repr

structure PadCall where
  buffer : List U8
  last : Int
  l1 : U8
  l0 : U8
  deriving DecidableEq, Repr

inductive XPadFrame where
  | indicated (fields : List (U8 × List U8))
  | plain (data : List U8)
  deriving DecidableEq, Repr

namespace XPadFrame

def bytes : XPadFrame → List U8
  | indicated fields => fields.map Prod.fst ++ (if fields.length = 4 then [] else [0#8]) ++ (fields.map Prod.snd).flatten
  | plain data => data

def hasIndicators : XPadFrame → Bool
  | indicated _ => true
  | plain _ => false

def events : XPadFrame → List PadEvent
  | indicated fields => fields.map (fun f => .subfield (getApplType f.1) f.2)
  | plain data => [.plain data]

def Fits (xPadLength : Int) : XPadFrame → Prop
  | indicated fields => fields.length ≤ 4 ∧ ∀ f ∈ fields, getApplType f.1 ≠ 0 ∧ f.2.length = getLength f.1
  | plain data => 0 < data.length ∧ (data.length : Int) = xPadLength

def lengthAfter (xPadLength : Int) : XPadFrame → Int
  | indicated fields => (indicated fields).bytes.length
  | plain _ => xPadLength

instance (xPadLength : Int) (frame : XPadFrame) : Decidable (frame.Fits xPadLength) := by
  cases frame <;> (unfold Fits; infer_instance)

end XPadFrame

namespace PadCall

structure Carries (call : PadCall) (frame : XPadFrame) : Prop where
  kind : (call.l1.toNat >>> 6) &&& 0x3 = 0 ∧ (call.l1.toNat >>> 4) &&& 0x3 = 2
  indicators : decide (call.l0.toNat &&& 0x2 ≠ 0) = frame.hasIndicators
  inside : call.last < call.buffer.length ∧ frame.bytes.length ≤ call.last + 1
  content : collect call.buffer call.last frame.bytes.length = frame.bytes

end PadCall

def WellFormed (xPadLength : Int) : List (PadCall × XPadFrame) → Prop
  | [] => True
  | sent :: rest => sent.1.Carries sent.2 ∧ sent.2.Fits xPadLength ∧ WellFormed (sent.2.lengthAfter xPadLength) rest

def eventsOf (sent : List (PadCall × XPadFrame)) : List PadEvent := sent.flatMap (fun f => f.2.events)

/- The frames as they are read when some are lost: one without indicators has the length
of the last one with them that arrived. -/

def seen (xPadLength : Int) (call : PadCall) : XPadFrame → List PadEvent
  | .indicated fields => (XPadFrame.indicated fields).events
  | .plain _ => if 0 < xPadLength ∧ xPadLength ≤ call.last + 1 then [.plain (collect call.buffer call.last xPadLength.toNat)] else []

def eventsSeen : Int → List (PadCall × XPadFrame) → List PadEvent
  | _, [] => []
  | xPadLength, f :: rest => seen xPadLength f.1 f.2 ++ eventsSeen (f.2.lengthAfter xPadLength) rest

def Readable (f : PadCall × XPadFrame) : Prop := f.1.Carries f.2 ∧ (f.2.hasIndicators = true → f.2.Fits 0)

theorem formedReadable {x : Int} {sent : List (PadCall × XPadFrame)} (formed : WellFormed x sent) : ∀ f ∈ sent, Readable f := by
  induction sent generalizing x with
  | nil => exact fun f none => nomatch none
  | cons f sent ih =>
    obtain ⟨carries,fits,later⟩ := formed
    refine forall_mem_cons.mpr ⟨⟨carries,fun indicators => ?_⟩,ih later⟩
    obtain ⟨call,frame⟩ := f
    cases frame with
    | indicated fields => exact fits
    | plain data => exact nomatch indicators

theorem seenFormed {x : Int} {sent : List (PadCall × XPadFrame)} (formed : WellFormed x sent) : eventsSeen x sent = eventsOf sent := by
  induction sent generalizing x with
  | nil => rfl
  | cons f sent ih =>
    obtain ⟨carries,fits,later⟩ := formed
    have here : seen x f.1 f.2 = f.2.events := by
      obtain ⟨call,frame⟩ := f
      cases frame with
      | indicated fields => rfl
      | plain data =>
        obtain ⟨some,length⟩ := fits
        have inside : (data.length : Int) ≤ call.last + 1 := carries.inside.2
        have content : collect call.buffer call.last data.length = data := carries.content
        show (if 0 < x ∧ x ≤ call.last + 1 then [PadEvent.plain (collect call.buffer call.last x.toNat)] else []) = [.plain data]
        rw [if_pos (by omega),← length,Int.toNat_natCast,content]
    show seen x f.1 f.2 ++ eventsSeen _ sent = f.2.events ++ eventsOf sent
    rw [here,ih later]

/- A data group on its way: a start subfield, and pieces that continue it, in a subfield of
the next type or in a frame without indicators. -/
section Continuations
variable (start : Nat)

def pieceEvent (piece : Bool × List U8) : PadEvent := if piece.1 then .subfield (start + 1) piece.2 else .plain piece.2

def Apart : PadEvent → Prop
  | .subfield appType _ => appType ≠ start ∧ appType ≠ start + 1
  | .plain _ => True

instance (e : PadEvent) : Decidable (Apart start e) := by cases e <;> (unfold Apart; infer_instance)

def isStart : PadEvent → Bool
  | .subfield appType _ => appType = start
  | .plain _ => false

def begun (events : List PadEvent) : Nat := events.countP (isStart start)

def dataSince (data : List U8) (events : List PadEvent) : List U8 :=
  events.foldl (fun data e => match e with
    | .subfield appType d => if appType = start then d else if appType = start + 1 then data ++ d else data
    | .plain d => data ++ d) data

variable {start}

theorem dataSinceAppend (data : List U8) (a b : List PadEvent) : dataSince start data (a ++ b) = dataSince start (dataSince start data a) b :=
  foldl_append

theorem dataSincePieces (data : List U8) (pieces : List (Bool × List U8)) :
    dataSince start data (pieces.map (pieceEvent start)) = data ++ (pieces.map Prod.snd).flatten := by
  induction pieces generalizing data with
  | nil => exact (append_nil data).symm
  | cons p pieces ih =>
    have step : dataSince start data (pieceEvent start p :: pieces.map (pieceEvent start)) =
        dataSince start (data ++ p.2) (pieces.map (pieceEvent start)) := by
      unfold pieceEvent
      by_cases subfield : p.1 = true
      · rw [if_pos subfield]
        show dataSince start (if start + 1 = start then p.2 else if start + 1 = start + 1 then data ++ p.2 else data) _ = _
        rw [if_neg (by omega),if_pos rfl]
      · rw [if_neg subfield]
        rfl
    rw [map_cons,step,ih,map_cons,flatten_cons,append_assoc]

theorem apartNoStart {e : PadEvent} (apart : Apart start e) : isStart start e = false := by
  cases e with
  | subfield appType data => exact decide_eq_false apart.1
  | plain data => rfl

theorem dataSinceGrows {data : List U8} {events : List PadEvent} (other : ∀ e ∈ events, isStart start e = false) :
    data <+: dataSince start data events := by
  induction events generalizing data with
  | nil => exact prefix_refl _
  | cons e events ih =>
    rw [forall_mem_cons] at other
    refine List.IsPrefix.trans ?_ (ih other.2)
    cases e with
    | subfield appType d =>
      show data <+: (if appType = start then d else if appType = start + 1 then data ++ d else data)
      rw [if_neg (of_decide_eq_false other.1)]
      split
      · exact prefix_append _ _
      · exact prefix_refl _
    | plain d => exact prefix_append _ _

theorem noStartPieces (pieces : List (Bool × List U8)) : begun start (pieces.map (pieceEvent start)) = 0 := by
  unfold begun
  rw [countP_eq_zero,forall_mem_map]
  rintro ⟨subfield,data⟩ -
  cases subfield with
  | false => exact Bool.false_ne_true
  | true => exact fun same => absurd (of_decide_eq_true same) (by omega)

theorem noStartApart {gap : List PadEvent} (other : ∀ e ∈ gap, Apart start e) : begun start gap = 0 := by
  unfold begun
  rw [countP_eq_zero]
  intro e member
  rw [apartNoStart (other e member)]
  exact Bool.false_ne_true

end Continuations

namespace PadHandler
variable {s : PadHandler}

def step (s : PadHandler) : PadEvent → PadHandler × List PadSignal
  | .subfield appType data => s.handleContent appType data
  | .plain data => s.handlePlain data

def run (s : PadHandler) : List PadEvent → PadHandler × List PadSignal
  | [] => (s, [])
  | e :: rest => ((run (s.step e).1 rest).1, (s.step e).2 ++ (run (s.step e).1 rest).2)

def receive (s : PadHandler) : List PadCall → PadHandler × List PadSignal
  | [] => (s, [])
  | call :: rest =>
    let first := s.processPad call.buffer call.last call.l1 call.l0
    ((receive first.1 rest).1, first.2 ++ (receive first.1 rest).2)

theorem runAppend (events more : List PadEvent) :
    s.run (events ++ more) = (((s.run events).1.run more).1, (s.run events).2 ++ ((s.run events).1.run more).2) := by
  induction events generalizing s with
  | nil => rfl
  | cons e events ih =>
    rw [cons_append,run,run,ih,append_assoc]

def labels (signals : List PadSignal) : List (List U8 × Nat) :=
  signals.filterMap (fun x => match x with | .showLabel text charSet => some (text, charSet) | _ => none)

def builds (signals : List PadSignal) : List (List U8) :=
  signals.filterMap (fun x => match x with | .buildMscSegment data => some data | _ => none)

@[simp] theorem labelsAppend (a b : List PadSignal) : labels (a ++ b) = labels a ++ labels b := filterMap_append ..

@[simp] theorem buildsAppend (a b : List PadSignal) : builds (a ++ b) = builds a ++ builds b := filterMap_append ..

section Shapes
variable (s : PadHandler) (data : List U8)

structure LabelOnly (before after : PadHandler) (signals : List PadSignal) : Prop where
  fields : after = { before with
    mDynamicLabelTextUnConverted := after.mDynamicLabelTextUnConverted, mCharSet := after.mCharSet, mSegmentNo := after.mSegmentNo
    mRemainDataLength := after.mRemainDataLength, mIsLastSegment := after.mIsLastSegment, mMoreXPad := after.mMoreXPad }
  noBuild : builds signals = []

structure MscOnly (before after : PadHandler) (signals : List PadSignal) : Prop where
  fields : after = { before with
    mMotObject := after.mMotObject, mMscDataGroupBuffer := after.mMscDataGroupBuffer, mMscGroupElement := after.mMscGroupElement }
  noLabel : labels signals = []

structure JournalineOnly (before after : PadHandler) (signals : List PadSignal) : Prop where
  fields : after = { before with
    mJournalineDataGroupBuffer := after.mJournalineDataGroupBuffer, mJournalineDataGroupLength := after.mJournalineDataGroupLength }
  noLabel : labels signals = []
  noBuild : builds signals = []

theorem labelStartOnly : LabelOnly s (s.labelStart data).1 (s.labelStart data).2 := by
  unfold labelStart
  dsimp only
  repeat' split
  all_goals exact ⟨rfl,rfl⟩

theorem labelContinuationOnly : LabelOnly s (s.labelContinuation data).1 (s.labelContinuation data).2 := by
  unfold labelContinuation
  dsimp only
  refine ⟨rfl,?_⟩
  split <;> rfl

theorem labelOnlyTrans {before middle after : PadHandler} {signals : List PadSignal} (first : LabelOnly before middle [])
    (second : LabelOnly middle after signals) : LabelOnly before after signals := by
  refine ⟨?_,second.noBuild⟩
  rw [second.fields,first.fields]

theorem dynamicLabelOnly (applType : Nat) : LabelOnly s (s.dynamicLabel data applType).1 (s.dynamicLabel data applType).2 := by
  unfold dynamicLabel
  dsimp only
  split
  · split
    · exact labelOnlyTrans ⟨rfl,rfl⟩ (labelStartOnly _ data)
    · split
      · exact ⟨rfl,rfl⟩
      · exact labelOnlyTrans ⟨rfl,rfl⟩ (labelStartOnly _ data)
  · split
    · exact labelContinuationOnly s data
    · exact ⟨rfl,rfl⟩

theorem buildOnly : (s.buildMscSegment data).1 = { s with mMotObject := (s.buildMscSegment data).1.mMotObject } ∧
    labels (s.buildMscSegment data).2 = [] ∧ builds (s.buildMscSegment data).2 = [data] := by
  have silent : ∀ l : List MotSignal, labels (l.map .mot) = [] ∧ builds (l.map .mot) = [] := by
    intro l
    constructor
    · simp [labels,filterMap_map]
    · simp [builds,filterMap_map]
  unfold buildMscSegment
  split
  · exact ⟨rfl,rfl,rfl⟩
  · rename_i g parsed
    dsimp only
    generalize (if g.groupType = 3 then _ else _ : MotObject × List MotSignal) = result
    refine ⟨rfl,?_,?_⟩
    · exact (silent result.2).1
    · show data :: builds (result.2.map .mot) = [data]
      rw [(silent result.2).2]

theorem newMscOnly : MscOnly s (s.newMscElement data).1 (s.newMscElement data).2 := by
  unfold newMscElement
  dsimp only
  split
  · obtain ⟨fields,noLabel,-⟩ := buildOnly { s with mMscDataGroupBuffer := [] } data
    generalize ({ s with mMscDataGroupBuffer := [] } : PadHandler).buildMscSegment data = result at fields noLabel ⊢
    refine ⟨?_,by rw [labelsAppend,noLabel]; rfl⟩
    rw [fields]
  · exact ⟨rfl,rfl⟩

theorem addMscOnly : MscOnly s (s.addMscElement data).1 (s.addMscElement data).2 := by
  unfold addMscElement
  dsimp only
  split
  · exact ⟨rfl,rfl⟩
  · split
    · obtain ⟨fields,noLabel,-⟩ :=
        buildOnly { s with mMscDataGroupBuffer := s.mMscDataGroupBuffer ++ data } (s.mMscDataGroupBuffer ++ data)
      generalize ({ s with mMscDataGroupBuffer := s.mMscDataGroupBuffer ++ data } : PadHandler).buildMscSegment
        (s.mMscDataGroupBuffer ++ data) = result at fields noLabel ⊢
      refine ⟨?_,noLabel⟩
      rw [fields]
    · exact ⟨rfl,rfl⟩

theorem emitJournalineOnly : JournalineOnly s s.emitJournalineDataGroupIfComplete.1 s.emitJournalineDataGroupIfComplete.2 := by
  unfold emitJournalineDataGroupIfComplete
  split <;> exact ⟨rfl,rfl,rfl⟩

theorem journalineTrans {before middle after : PadHandler} {signals : List PadSignal} (first : JournalineOnly before middle [])
    (second : JournalineOnly middle after signals) : JournalineOnly before after signals := by
  refine ⟨?_,second.noLabel,second.noBuild⟩
  rw [second.fields,first.fields]

theorem addJournalineOnly : JournalineOnly s (s.addJournalineElement data).1 (s.addJournalineElement data).2 := by
  unfold addJournalineElement
  split
  · exact ⟨rfl,rfl,rfl⟩
  · exact journalineTrans ⟨rfl,rfl,rfl⟩ (emitJournalineOnly _)

theorem handleJournalineOnly (appType : Nat) :
    JournalineOnly s (s.handleXpadJournaline data appType).1 (s.handleXpadJournaline data appType).2 := by
  unfold handleXpadJournaline
  split
  · exact ⟨rfl,rfl,rfl⟩
  · split
    · unfold newJournalineElement
      dsimp only
      split
      · exact ⟨rfl,rfl,rfl⟩
      · exact journalineTrans ⟨rfl,rfl,rfl⟩ (emitJournalineOnly _)
    · split
      · exact addJournalineOnly s data
      · exact ⟨rfl,rfl,rfl⟩

theorem applicationCases (appType : Nat) :
    (appType = 1 ∧ ∃ length, s.handleApplication appType data = ({ s with mDataGroupLength := length }, [])) ∨
    ((appType = 2 ∨ appType = 3) ∧ s.handleApplication appType data = s.dynamicLabel data appType) ∨
    (appType = 12 ∧ s.handleApplication appType data = s.newMscElement data) ∨
    (appType = 13 ∧ s.handleApplication appType data = s.addMscElement data) ∨
    ((appType ≠ 1 ∧ appType ≠ 2 ∧ appType ≠ 3 ∧ appType ≠ 12 ∧ appType ≠ 13) ∧
      s.handleApplication appType data = s.handleXpadJournaline data appType) := by
  unfold handleApplication
  split
  · refine .inl ⟨rfl,?_⟩
    split
    · exact ⟨_,rfl⟩
    · exact ⟨s.mDataGroupLength,rfl⟩
  · exact .inr (.inl ⟨.inl rfl,rfl⟩)
  · exact .inr (.inl ⟨.inr rfl,rfl⟩)
  · exact .inr (.inr (.inl ⟨rfl,rfl⟩))
  · exact .inr (.inr (.inr (.inl ⟨rfl,rfl⟩)))
  · rename_i one two three start continuation
    exact .inr (.inr (.inr (.inr ⟨⟨one,two,three,start,continuation⟩,rfl⟩)))

theorem plainCases : ((s.mLastAppType = 2 ∨ s.mLastAppType = 3) ∧ s.handlePlain data = s.dynamicLabel data 3) ∨
    ((s.mLastAppType = 12 ∨ s.mLastAppType = 13) ∧ s.handlePlain data = if s.mMscGroupElement then s.addMscElement data else (s, [])) ∨
    ((s.mLastAppType ≠ 2 ∧ s.mLastAppType ≠ 3 ∧ s.mLastAppType ≠ 12 ∧ s.mLastAppType ≠ 13) ∧
      JournalineOnly s (s.handlePlain data).1 (s.handlePlain data).2) := by
  unfold handlePlain
  split
  · rename_i two
    exact .inl ⟨.inl two,rfl⟩
  · rename_i three
    exact .inl ⟨.inr three,rfl⟩
  · rename_i start
    exact .inr (.inl ⟨.inl start,rfl⟩)
  · rename_i continuation
    exact .inr (.inl ⟨.inr continuation,rfl⟩)
  · rename_i two three start continuation
    refine .inr (.inr ⟨⟨two,three,start,continuation⟩,?_⟩)
    split
    · exact addJournalineOnly s data
    · exact ⟨rfl,rfl,rfl⟩

theorem stepLength (e : PadEvent) : (s.step e).1.mXPadLength = s.mXPadLength := by
  cases e with
  | subfield appType data =>
    show (s.handleApplication appType data).1.mXPadLength = _
    rcases applicationCases s data appType with ⟨-,length,h⟩ | ⟨-,h⟩ | ⟨-,h⟩ | ⟨-,h⟩ | ⟨-,h⟩
    · rw [h]
    · rw [h,(dynamicLabelOnly s data appType).fields]
    · rw [h,(newMscOnly s data).fields]
    · rw [h,(addMscOnly s data).fields]
    · rw [h,(handleJournalineOnly s data appType).fields]
  | plain data =>
    show (s.handlePlain data).1.mXPadLength = _
    rcases plainCases s data with ⟨-,h⟩ | ⟨-,h⟩ | ⟨-,h⟩
    · rw [h,(dynamicLabelOnly s data 3).fields]
    · rw [h]
      split
      · rw [(addMscOnly s data).fields]
      · rfl
    · rw [h.fields]

theorem runLength (events : List PadEvent) : (s.run events).1.mXPadLength = s.mXPadLength := by
  induction events generalizing s with
  | nil => rfl
  | cons e events ih => exact (ih (s.step e).1).trans (stepLength s e)

theorem plainKeepsType : (s.step (.plain data)).1.mLastAppType = s.mLastAppType := by
  show (s.handlePlain data).1.mLastAppType = s.mLastAppType
  rcases plainCases s data with ⟨-,h⟩ | ⟨-,h⟩ | ⟨-,only⟩
  · rw [h,(dynamicLabelOnly s data 3).fields]
  · rw [h]
    split
    · rw [(addMscOnly s data).fields]
    · rfl
  · rw [only.fields]

end Shapes

section Frames
variable {buffer : List U8} {base : Int}

theorem collectSplit (buffer : List U8) (base : Int) (a b : Nat) :
    collect buffer base (a + b) = collect buffer base a ++ collect buffer (base - a) b := by
  unfold collect
  rw [range_add,map_append,map_map]
  congr 1
  refine map_congr_left fun j _ => ?_
  show byteOf buffer (base - (a + j : Nat)) = _
  congr 1
  omega

theorem collectLength (buffer : List U8) (base : Int) (n : Nat) : (collect buffer base n).length = n := by
  unfold collect
  rw [length_map,length_range]

theorem collectAppend {a b : List U8} (all : collect buffer base (a ++ b).length = a ++ b) :
    collect buffer base a.length = a ∧ collect buffer (base - a.length) b.length = b := by
  rw [length_append,collectSplit] at all
  exact append_inj all (collectLength ..)

theorem indicatorsRead {fields : List (U8 × List U8)} {count : Nat}
    (few : fields.length ≤ count) (typed : ∀ f ∈ fields, getApplType f.1 ≠ 0)
    (table : collect buffer base (fields.map Prod.fst ++ if fields.length = count then [] else [0#8]).length =
      fields.map Prod.fst ++ if fields.length = count then [] else [0#8]) : readIndicators buffer count base =
      (fields.map Prod.fst, base - (fields.map Prod.fst ++ if fields.length = count then [] else [0#8]).length) := by
  induction fields generalizing count base with
  | nil =>
    cases count with
    | zero => simp [readIndicators]
    | succ count =>
      rw [if_neg (by simp)] at table ⊢
      have marker : byteOf buffer base = 0#8 := by
        have first := head_eq_of_cons_eq table
        simpa using first
      unfold readIndicators
      rw [marker,if_pos (by decide)]
      rfl
  | cons f fields ih =>
    cases count with
    | zero => exact absurd few (by simp)
    | succ count =>
      have same : (if (f :: fields).length = count + 1 then [] else [0#8]) = if fields.length = count then [] else [0#8] :=
        if_congr (by rw [length_cons]; omega) rfl rfl
      rw [same,map_cons,cons_append] at table ⊢
      obtain ⟨first,rest⟩ := collectAppend (a := [f.1]) table
      have here : byteOf buffer base = f.1 := by simpa using head_eq_of_cons_eq first
      rw [forall_mem_cons] at typed
      have read := ih (Nat.le_of_succ_le_succ few) typed.2 rest
      unfold readIndicators
      rw [here,if_neg typed.1]
      simp only [length_singleton,Nat.cast_one] at read
      rw [read]
      refine Prod.ext rfl ?_
      show base - 1 - _ = base - _
      rw [length_cons]
      omega

theorem contentsRun {fields : List (U8 × List U8)} (sized : ∀ f ∈ fields, f.2.length = getLength f.1)
    (content : collect buffer base (fields.map Prod.snd).flatten.length = (fields.map Prod.snd).flatten)
    (inside : ((fields.map Prod.snd).flatten.length : Int) ≤ base + 1) :
    handleContents buffer (fields.map Prod.fst) base s = s.run (XPadFrame.indicated fields).events := by
  induction fields generalizing base s with
  | nil => rfl
  | cons f fields ih =>
    rw [forall_mem_cons] at sized
    rw [map_cons,flatten_cons] at content inside
    obtain ⟨first,rest⟩ := collectAppend content
    rw [length_append] at inside
    rw [sized.1] at first rest inside
    have later := ih (s := (s.handleContent (getApplType f.1) f.2).1) sized.2 rest (by omega)
    rw [map_cons]
    unfold handleContents
    rw [first]
    dsimp only
    rw [if_neg (by omega),later]
    rfl

theorem frameRun {call : PadCall} {frame : XPadFrame} (readable : Readable (call, frame)) :
    s.processPad call.buffer call.last call.l1 call.l0 =
      { s with mXPadLength := frame.lengthAfter s.mXPadLength }.run (seen s.mXPadLength call frame) := by
  obtain ⟨carries,fits⟩ := readable
  unfold processPad
  rw [if_neg (not_not_intro carries.kind.1),carries.kind.2,carries.indicators]
  show s.handleVariablePad call.buffer call.last frame.hasIndicators = _
  unfold handleVariablePad
  cases frame with
  | plain data =>
    unfold seen
    rw [if_pos (show (!(XPadFrame.plain data).hasIndicators) = true from rfl)]
    by_cases known : s.mXPadLength > 0
    · rw [if_pos known]
      by_cases short : call.last < s.mXPadLength - 1
      · rw [if_pos short,if_neg (by omega)]
        rfl
      · rw [if_neg short,if_pos (by omega)]
        show _ = ((s.handlePlain _).1, (s.handlePlain _).2 ++ [])
        rw [append_nil]
    · rw [if_neg known,if_neg (by omega)]
      rfl
  | indicated fields =>
    obtain ⟨few,good⟩ := fits rfl
    obtain ⟨table,rest⟩ := collectAppend carries.content
    have inside : ((XPadFrame.indicated fields).bytes.length : Int) ≤ call.last + 1 := carries.inside.2
    have length : (XPadFrame.indicated fields).bytes.length =
        (fields.map Prod.fst ++ if fields.length = 4 then [] else [0#8]).length + (fields.map Prod.snd).flatten.length :=
      length_append
    have read := indicatorsRead few (fun f member => (good f member).1) table
    have lengthOf : (xPadLengthOf (fields.map Prod.fst) : Int) = (XPadFrame.indicated fields).bytes.length := by
      have sum : (fields.map Prod.snd).flatten.length = ((fields.map Prod.fst).map getLength).sum := by
        rw [length_flatten,map_map,map_map]
        exact congrArg List.sum (map_congr_left fun f member => (good f member).2)
      unfold xPadLengthOf
      rw [length,sum,length_append,length_map]
      split
      · rw [length_nil]
        omega
      · rw [length_singleton]
        omega
    rw [if_neg (show ¬ (!(XPadFrame.indicated fields).hasIndicators) = true from Bool.false_ne_true),read]
    dsimp only
    rw [lengthOf]
    exact contentsRun (fun f member => (good f member).2) rest (by omega)

/- A part of the handler, and of the signals, that the events determine by themselves. -/
structure View {α β : Type} (view : PadHandler → α) (out : List PadSignal → List β) : Prop where
  append : ∀ a b, out (a ++ b) = out a ++ out b
  blind : ∀ (s : PadHandler) (x : Int), view { s with mXPadLength := x } = view s
  step : ∀ {s t : PadHandler} (e : PadEvent), view s = view t → view (s.step e).1 = view (t.step e).1 ∧ out (s.step e).2 = out (t.step e).2

variable {α β : Type} {view : PadHandler → α} {out : List PadSignal → List β} {t : PadHandler}

theorem View.run (v : View view out) (events : List PadEvent) (same : view s = view t) :
    view (s.run events).1 = view (t.run events).1 ∧ out (s.run events).2 = out (t.run events).2 := by
  induction events generalizing s t with
  | nil => exact ⟨same,rfl⟩
  | cons e events ih =>
    obtain ⟨next,first⟩ := v.step e same
    obtain ⟨final,rest⟩ := ih next
    refine ⟨final,?_⟩
    show out ((s.step e).2 ++ _) = out ((t.step e).2 ++ _)
    rw [v.append,v.append,first,rest]

theorem View.receive (v : View view out) {received : List (PadCall × XPadFrame)} (readable : ∀ f ∈ received, Readable f)
    (same : view s = view t) : view (s.receive (received.map Prod.fst)).1 = view (t.run (eventsSeen s.mXPadLength received)).1 ∧
      out (s.receive (received.map Prod.fst)).2 = out (t.run (eventsSeen s.mXPadLength received)).2 := by
  induction received generalizing s t with
  | nil => exact ⟨same,rfl⟩
  | cons f received ih =>
    rw [forall_mem_cons] at readable
    have frame := frameRun (s := s) readable.1
    obtain ⟨next,first⟩ := v.run (seen s.mXPadLength f.1 f.2) ((v.blind s (f.2.lengthAfter s.mXPadLength)).trans same)
    have length : (PadHandler.run { s with mXPadLength := f.2.lengthAfter s.mXPadLength } (seen s.mXPadLength f.1 f.2)).1.mXPadLength =
      f.2.lengthAfter s.mXPadLength := runLength _ _
    rw [← frame] at next first length
    obtain ⟨final,rest⟩ := ih readable.2 next
    rw [length] at final rest
    rw [eventsSeen,runAppend]
    refine ⟨final,?_⟩
    show out ((s.processPad _ _ _ _).2 ++ _) = out _
    rw [v.append,v.append,first,rest]

theorem View.receiveFormed (v : View view out) {sent : List (PadCall × XPadFrame)} (formed : WellFormed s.mXPadLength sent)
    (same : view s = view t) : view (s.receive (sent.map Prod.fst)).1 = view (t.run (eventsOf sent)).1 ∧
      out (s.receive (sent.map Prod.fst)).2 = out (t.run (eventsOf sent)).2 := by
  rw [← seenFormed formed]
  exact v.receive (formedReadable formed) same

theorem getLengthMin (val : U8) : 4 ≤ getLength val := by
  unfold getLength
  have small : val.toNat >>> 5 < 8 := by
    have bound := val.isLt
    rw [Nat.shiftRight_eq_div_pow]
    omega
  generalize val.toNat >>> 5 = i at small ⊢
  interval_cases i <;> decide

theorem formedPrefix {x : Int} {sent received : List (PadCall × XPadFrame)} (formed : WellFormed x sent) (part : received <+: sent) :
    WellFormed x received := by
  induction sent generalizing x received with
  | nil =>
    rw [prefix_nil.mp part]
    trivial
  | cons f sent ih =>
    obtain ⟨carries,fits,later⟩ := formed
    rcases prefix_cons_iff.mp part with rfl | ⟨rest,rfl,front⟩
    · trivial
    · exact ⟨carries,fits,ih later front⟩

theorem eventsPrefix {sent received : List (PadCall × XPadFrame)} (part : received <+: sent) : eventsOf received <+: eventsOf sent := by
  obtain ⟨rest,rfl⟩ := part
  unfold eventsOf
  rw [flatMap_append]
  exact prefix_append _ _

theorem subfieldLong {x : Int} {sent : List (PadCall × XPadFrame)} (formed : WellFormed x sent) {appType : Nat} {data : List U8}
    (member : .subfield appType data ∈ eventsOf sent) : 4 ≤ data.length := by
  induction sent generalizing x with
  | nil => exact nomatch member
  | cons f sent ih =>
    obtain ⟨-,fits,later⟩ := formed
    rcases mem_append.mp (show _ ∈ f.2.events ++ eventsOf sent from member) with here | there
    · obtain ⟨call,frame⟩ := f
      cases frame with
      | plain d => exact nomatch mem_singleton.mp here
      | indicated fields =>
        obtain ⟨field,inside,same⟩ := mem_map.mp here
        injection same with _ same
        rw [← same,(fits.2 field inside).2]
        exact getLengthMin _
    · exact ih later there

end Frames

end PadHandler
end DabStar
