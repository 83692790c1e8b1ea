import DabStar.PadEvents
import DabStar.Lib.Prefixes

/-! MSC data groups over variable X-PAD: a length indicator, then the bytes in a subfield of
type 12, subfields of type 13 and frames without indicators. _build_MSC_segment is called once,
when the announced bytes are there. -/
namespace DabStar
open List Lib.Prefixes
namespace PadHandler
variable {s t : PadHandler} {data : List U8} {signals : List PadSignal}

structure SameGroup (s t : PadHandler) : Prop where
  length : s.mDataGroupLength = t.mDataGroupLength
  buffer : s.mMscDataGroupBuffer = t.mMscDataGroupBuffer
  element : s.mMscGroupElement = t.mMscGroupElement

theorem labelGroup (only : LabelOnly s t signals) : SameGroup s t := by
  rw [only.fields]
  exact ⟨rfl,rfl,rfl⟩

theorem journalineGroup (only : JournalineOnly s t signals) : SameGroup s t := by
  rw [only.fields]
  exact ⟨rfl,rfl,rfl⟩

theorem mscLength (only : MscOnly s t signals) : t.mDataGroupLength = s.mDataGroupLength := by rw [only.fields]

structure Element (buffer : List U8) (element : Bool) (built : List (List U8)) (result : PadHandler × List PadSignal) : Prop where
  buffer : result.1.mMscDataGroupBuffer = buffer
  element : result.1.mMscGroupElement = element
  built : builds result.2 = built

theorem newWhole (whole : data.length ≥ s.mDataGroupLength % 65536) : Element [] false [data] (s.newMscElement data) := by
  obtain ⟨fields,-,built⟩ := buildOnly { s with mMscDataGroupBuffer := [] } data
  unfold newMscElement
  dsimp only
  rw [if_pos whole]
  generalize ({ s with mMscDataGroupBuffer := [] } : PadHandler).buildMscSegment data = result at fields built ⊢
  refine ⟨?_,rfl,?_⟩
  · show result.1.mMscDataGroupBuffer = []
    rw [fields]
  · show builds (result.2 ++ [.showMotHandling]) = [data]
    rw [buildsAppend,built]
    rfl

theorem newPart (part : ¬ data.length ≥ s.mDataGroupLength % 65536) : Element data true [] (s.newMscElement data) := by
  unfold newMscElement
  dsimp only
  rw [if_neg part]
  exact ⟨rfl,rfl,rfl⟩

theorem addEmpty (empty : s.mMscDataGroupBuffer = []) : s.addMscElement data = (s, []) := by
  unfold addMscElement
  rw [if_pos empty]

theorem addWhole (some : s.mMscDataGroupBuffer ≠ []) (whole : (s.mMscDataGroupBuffer ++ data).length ≥ s.mDataGroupLength) :
    Element [] s.mMscGroupElement [s.mMscDataGroupBuffer ++ data] (s.addMscElement data) := by
  obtain ⟨fields,-,built⟩ :=
    buildOnly { s with mMscDataGroupBuffer := s.mMscDataGroupBuffer ++ data } (s.mMscDataGroupBuffer ++ data)
  unfold addMscElement
  dsimp only
  rw [if_neg some,if_pos whole]
  generalize ({ s with mMscDataGroupBuffer := s.mMscDataGroupBuffer ++ data } : PadHandler).buildMscSegment
    (s.mMscDataGroupBuffer ++ data) = result at fields built ⊢
  refine ⟨rfl,?_,built⟩
  show result.1.mMscGroupElement = _
  rw [fields]

theorem addPart (some : s.mMscDataGroupBuffer ≠ []) (part : ¬ (s.mMscDataGroupBuffer ++ data).length ≥ s.mDataGroupLength) :
    Element (s.mMscDataGroupBuffer ++ data) s.mMscGroupElement [] (s.addMscElement data) := by
  unfold addMscElement
  dsimp only
  rw [if_neg some,if_neg part]
  exact ⟨rfl,rfl,rfl⟩

def announced (data : List U8) (before : Nat) : Nat :=
  if data.length = 4 ∧ Mp4Processor.checkCrcBytes data 2 then (((data.getD 0 0#8).toNat &&& 0x3F) <<< 8) ||| (data.getD 1 0#8).toNat
  else before

theorem indicatorStep : s.step (.subfield 1 data) =
    ({ s with mDataGroupLength := announced data s.mDataGroupLength, mLastAppType := 1 }, []) := by
  show ({ (s.handleApplication 1 data).1 with mLastAppType := 1 }, (s.handleApplication 1 data).2) = _
  unfold handleApplication announced
  dsimp only
  by_cases correct : data.length = 4 ∧ Mp4Processor.checkCrcBytes data 2 = true
  · rw [if_pos correct,if_pos correct]
    rfl
  · rw [if_neg correct,if_neg correct]
    rfl

theorem otherGroup {appType : Nat} (indicator : appType ≠ 1) (start : appType ≠ 12) (continuation : appType ≠ 13) :
    SameGroup s (s.step (.subfield appType data)).1 ∧ builds (s.step (.subfield appType data)).2 = [] := by
  have named : ∀ u : PadHandler, SameGroup s u → SameGroup s { u with mLastAppType := appType } :=
    fun u same => ⟨same.length,same.buffer,same.element⟩
  show SameGroup s { (s.handleApplication appType data).1 with mLastAppType := appType } ∧ builds (s.handleApplication appType data).2 = []
  rcases applicationCases s data appType with ⟨type,-⟩ | ⟨-,h⟩ | ⟨type,-⟩ | ⟨type,-⟩ | ⟨-,h⟩
  · exact absurd type indicator
  · rw [h]
    exact ⟨named _ (labelGroup (dynamicLabelOnly s data appType)),(dynamicLabelOnly s data appType).noBuild⟩
  · exact absurd type start
  · exact absurd type continuation
  · rw [h]
    exact ⟨named _ (journalineGroup (handleJournalineOnly s data appType)),(handleJournalineOnly s data appType).noBuild⟩

theorem plainGroup (other : ¬ (s.mLastAppType = 12 ∨ s.mLastAppType = 13)) :
    SameGroup s (s.step (.plain data)).1 ∧ builds (s.step (.plain data)).2 = [] := by
  show SameGroup s (s.handlePlain data).1 ∧ builds (s.handlePlain data).2 = []
  rcases plainCases s data with ⟨-,h⟩ | ⟨type,-⟩ | ⟨-,only⟩
  · rw [h]
    exact ⟨labelGroup (dynamicLabelOnly s data 3),(dynamicLabelOnly s data 3).noBuild⟩
  · exact absurd type other
  · exact ⟨journalineGroup only,only.noBuild⟩

theorem plainElement (own : s.mLastAppType = 12 ∨ s.mLastAppType = 13) :
    s.step (.plain data) = if s.mMscGroupElement then s.addMscElement data else (s, []) := by
  rcases plainCases s data with ⟨type,-⟩ | ⟨-,h⟩ | ⟨⟨-,-,start,continuation⟩,-⟩
  · omega
  · exact h
  · omega

section Gathering
variable {L : Nat} {got : List U8}

structure Gathering (L : Nat) (got : List U8) (s : PadHandler) : Prop where
  some : got ≠ []
  length : s.mDataGroupLength = L
  part : got.length < L → s.mMscDataGroupBuffer = got ∧ s.mMscGroupElement = true
  whole : L ≤ got.length → s.mMscDataGroupBuffer = []

def MscApplication (s : PadHandler) : Prop := s.mLastAppType = 12 ∨ s.mLastAppType = 13

theorem startGathers (length : s.mDataGroupLength = L) (small : L < 65536) (some : data ≠ []) :
    Gathering L data (s.step (.subfield 12 data)).1 ∧ builds (s.step (.subfield 12 data)).2 = if L ≤ data.length then [data] else [] := by
  have kept : (s.newMscElement data).1.mDataGroupLength = L := (mscLength (newMscOnly s data)).trans length
  have announced : s.mDataGroupLength % 65536 = L := by rw [length,Nat.mod_eq_of_lt small]
  show Gathering L data { (s.newMscElement data).1 with mLastAppType := 12 } ∧ builds (s.newMscElement data).2 = _
  by_cases whole : L ≤ data.length
  · obtain ⟨buffer,-,built⟩ := @newWhole s data (by rw [announced]; exact whole)
    rw [if_pos whole]
    exact ⟨⟨some,kept,fun part => by omega,fun _ => buffer⟩,built⟩
  · obtain ⟨buffer,element,built⟩ := @newPart s data (by rw [announced]; exact whole)
    rw [if_neg whole]
    exact ⟨⟨some,kept,fun _ => ⟨buffer,element⟩,fun all => absurd all whole⟩,built⟩

theorem addGathers (gathering : Gathering L got s) : Gathering L (got ++ data) (s.addMscElement data).1 ∧ builds (s.addMscElement data).2 =
      if got.length < L ∧ L ≤ (got ++ data).length then [got ++ data] else [] := by
  obtain ⟨some,length,part,whole⟩ := gathering
  have kept : (s.addMscElement data).1.mDataGroupLength = L := (mscLength (addMscOnly s data)).trans length
  have more : got ++ data ≠ [] := fun none => some (append_eq_nil_iff.mp none).1
  have longer : got.length ≤ (got ++ data).length := by rw [length_append]; omega
  by_cases before : got.length < L
  · obtain ⟨buffer,element⟩ := part before
    have nonempty : s.mMscDataGroupBuffer ≠ [] := by rw [buffer]; exact some
    by_cases after : L ≤ (got ++ data).length
    · obtain ⟨empty,-,built⟩ := @addWhole s data nonempty (by rw [buffer,length]; exact after)
      rw [if_pos ⟨before,after⟩]
      exact ⟨⟨more,kept,fun part => by omega,fun _ => empty⟩,by rw [built,buffer]⟩
    · obtain ⟨joined,element',built⟩ := @addPart s data nonempty (by rw [buffer,length]; exact after)
      rw [if_neg (fun both => after both.2)]
      refine ⟨⟨more,kept,fun _ => ⟨by rw [joined,buffer],by rw [element',element]⟩,fun all => absurd all after⟩,built⟩
  · rw [addEmpty (whole (by omega)),if_neg (fun both => before both.1)]
    exact ⟨⟨more,length,fun part => by omega,fun _ => whole (by omega)⟩,rfl⟩

theorem pieceGathers (gathering : Gathering L got s) (own : s.MscApplication) (piece : Bool × List U8) :
    Gathering L (got ++ piece.2) (s.step (pieceEvent 12 piece)).1 ∧ (s.step (pieceEvent 12 piece)).1.MscApplication ∧
      builds (s.step (pieceEvent 12 piece)).2 = if got.length < L ∧ L ≤ (got ++ piece.2).length then [got ++ piece.2] else [] := by
  obtain ⟨subfield,data⟩ := piece
  obtain ⟨next,built⟩ := @addGathers s data L got gathering
  cases subfield with
  | true => exact ⟨⟨next.some,next.length,next.part,next.whole⟩,.inr rfl,built⟩
  | false =>
    have type : (s.step (.plain data)).1.MscApplication := by
      unfold MscApplication
      rw [plainKeepsType]
      exact own
    show Gathering L (got ++ data) (s.step (.plain data)).1 ∧ (s.step (.plain data)).1.MscApplication ∧ builds (s.step (.plain data)).2 = _
    refine ⟨?_,type,?_⟩
    all_goals rw [plainElement own]
    · split
      · exact next
      · rename_i element
        have whole : L ≤ got.length := by
          by_contra part
          exact element (gathering.part (by omega)).2
        rwa [addEmpty (gathering.whole whole)] at next
    · split
      · exact built
      · rename_i element
        rw [if_neg (fun both => element (gathering.part both.1).2)]
        rfl

def fullBuffer (L : Nat) (got : List U8) : List (Bool × List U8) → List U8
  | [] => got
  | piece :: pieces => if L ≤ got.length then got else fullBuffer L (got ++ piece.2) pieces

theorem fullCons (piece : Bool × List U8) (pieces : List (Bool × List U8)) :
    fullBuffer L got (piece :: pieces) = if L ≤ got.length then got else fullBuffer L (got ++ piece.2) pieces := rfl

theorem fullNow (whole : L ≤ got.length) (pieces : List (Bool × List U8)) : fullBuffer L got pieces = got := by
  cases pieces with
  | nil => rfl
  | cons piece pieces => rw [fullCons,if_pos whole]

theorem fullPrefix (got : List U8) (pieces : List (Bool × List U8)) : fullBuffer L got pieces <+: got ++ (pieces.map Prod.snd).flatten := by
  induction pieces generalizing got with
  | nil => exact prefix_append _ _
  | cons piece pieces ih =>
    unfold fullBuffer
    split
    · exact prefix_append _ _
    · rw [map_cons,flatten_cons,← append_assoc]
      exact ih _

theorem fullLong (got : List U8) (pieces : List (Bool × List U8)) (long : L ≤ (got ++ (pieces.map Prod.snd).flatten).length) :
    L ≤ (fullBuffer L got pieces).length := by
  induction pieces generalizing got with
  | nil =>
    rw [map_nil,flatten_nil,append_nil] at long
    exact long
  | cons piece pieces ih =>
    unfold fullBuffer
    split
    · assumption
    · rw [map_cons,flatten_cons,← append_assoc] at long
      exact ih _ long

theorem fullEarly {pieces more : List (Bool × List U8)} (long : L ≤ (got ++ (pieces.map Prod.snd).flatten).length) :
    fullBuffer L got (pieces ++ more) = fullBuffer L got pieces := by
  induction pieces generalizing got with
  | nil =>
    rw [map_nil,flatten_nil,append_nil] at long
    rw [fullNow long,fullNow long]
  | cons piece pieces ih =>
    rw [map_cons,flatten_cons,← append_assoc] at long
    rw [cons_append,fullCons,fullCons,ih long]

theorem piecesGather (pieces : List (Bool × List U8)) (gathering : Gathering L got s) (own : s.MscApplication) :
    Gathering L (got ++ (pieces.map Prod.snd).flatten) (s.run (pieces.map (pieceEvent 12))).1 ∧
      builds (s.run (pieces.map (pieceEvent 12))).2 =
        if got.length < L ∧ L ≤ (got ++ (pieces.map Prod.snd).flatten).length then [fullBuffer L got pieces] else [] := by
  induction pieces generalizing s got with
  | nil =>
    rw [map_nil,flatten_nil,append_nil,if_neg (fun both => by omega)]
    exact ⟨gathering,rfl⟩
  | cons piece pieces ih =>
    obtain ⟨next,ownNext,built⟩ := pieceGathers gathering own piece
    obtain ⟨final,rest⟩ := ih next ownNext
    have longer : (got ++ piece.2).length ≤ (got ++ piece.2 ++ (pieces.map Prod.snd).flatten).length := by
      exact (prefix_append _ _).length_le
    rw [map_cons,map_cons,flatten_cons,← append_assoc]
    refine ⟨final,?_⟩
    show builds ((s.step (pieceEvent 12 piece)).2 ++ _) = _
    rw [buildsAppend,rest,built,fullCons]
    by_cases before : got.length < L
    · by_cases now : L ≤ (got ++ piece.2).length
      · rw [if_pos ⟨before,now⟩,if_neg (fun both => by omega),if_pos ⟨before,by omega⟩,if_neg (by omega),fullNow now]
        rfl
      · rw [if_neg (fun both => now both.2),nil_append,if_neg (by omega : ¬ L ≤ got.length)]
        exact if_congr ⟨fun both => ⟨before,both.2⟩,fun both => ⟨by omega,both.2⟩⟩ rfl rfl
    · have grown : got.length ≤ (got ++ piece.2).length := by rw [length_append]; omega
      rw [if_neg (fun both => before both.1),if_neg (fun both => by omega),if_neg (fun both => before both.1)]
      rfl

end Gathering

section Transmission

structure MscTransmission where
  group : List U8
  indicator : List U8
  between : List PadEvent
  start : List U8
  pieces : List (Bool × List U8)
  trail : List PadEvent

namespace MscTransmission

def events (m : MscTransmission) : List PadEvent :=
  .subfield 1 m.indicator :: (m.between ++ .subfield 12 m.start :: (m.pieces.map (pieceEvent 12) ++ m.trail))

/- The indicator is correct, what is between it and the start belongs to other
applications, the pieces begin with the data group, and no other one starts behind it. -/
structure Sound (m : MscTransmission) : Prop where
  some : 1 ≤ m.group.length
  indicated : m.indicator.length = 4 ∧ Mp4Processor.checkCrcBytes m.indicator 2 = true ∧
    (((m.indicator.getD 0 0#8).toNat &&& 0x3F) <<< 8) ||| (m.indicator.getD 1 0#8).toNat = m.group.length
  between : ∀ e ∈ m.between, ∃ appType data, e = .subfield appType data ∧ appType ≠ 1 ∧ appType ≠ 12 ∧ appType ≠ 13
  cut : m.group <+: m.start ++ (m.pieces.map Prod.snd).flatten
  trail : ∀ e ∈ m.trail, isStart 12 e = false

def Arrived (m : MscTransmission) (events : List PadEvent) : Prop := m.group.length ≤ (dataSince 12 [] events).length

instance (m : MscTransmission) (events : List PadEvent) : Decidable (m.Arrived events) := by unfold Arrived; infer_instance

end MscTransmission

variable {m : MscTransmission}

theorem idleStep (empty : s.mMscDataGroupBuffer = []) {e : PadEvent} (other : isStart 12 e = false) :
    (s.step e).1.mMscDataGroupBuffer = [] ∧ builds (s.step e).2 = [] := by
  cases e with
  | subfield appType data =>
    have start : appType ≠ 12 := of_decide_eq_false other
    by_cases indicator : appType = 1
    · subst indicator
      rw [indicatorStep]
      exact ⟨empty,rfl⟩
    by_cases continuation : appType = 13
    · subst continuation
      show (s.addMscElement data).1.mMscDataGroupBuffer = [] ∧ builds (s.addMscElement data).2 = []
      rw [addEmpty empty]
      exact ⟨empty,rfl⟩
    obtain ⟨same,silent⟩ := @otherGroup s data appType indicator start continuation
    exact ⟨same.buffer ▸ empty,silent⟩
  | plain data =>
    by_cases own : s.mLastAppType = 12 ∨ s.mLastAppType = 13
    · rw [plainElement own,addEmpty empty,ite_self]
      exact ⟨empty,rfl⟩
    · obtain ⟨same,silent⟩ := @plainGroup s data own
      exact ⟨same.buffer ▸ empty,silent⟩

theorem idleRun (events : List PadEvent) (empty : s.mMscDataGroupBuffer = []) (other : ∀ e ∈ events, isStart 12 e = false) :
    (s.run events).1.mMscDataGroupBuffer = [] ∧ builds (s.run events).2 = [] := by
  induction events generalizing s with
  | nil => exact ⟨empty,rfl⟩
  | cons e events ih =>
    rw [forall_mem_cons] at other
    obtain ⟨next,silent⟩ := idleStep empty other.1
    obtain ⟨final,rest⟩ := ih next other.2
    refine ⟨final,?_⟩
    show builds ((s.step e).2 ++ _) = []
    rw [buildsAppend,silent,rest,append_nil]

theorem betweenRun (events : List PadEvent)
    (others : ∀ e ∈ events, ∃ appType data, e = .subfield appType data ∧ appType ≠ 1 ∧ appType ≠ 12 ∧ appType ≠ 13) :
    (s.run events).1.mDataGroupLength = s.mDataGroupLength ∧ builds (s.run events).2 = [] ∧ dataSince 12 [] events = [] := by
  induction events generalizing s with
  | nil => exact ⟨rfl,rfl,rfl⟩
  | cons e events ih =>
    rw [forall_mem_cons] at others
    obtain ⟨⟨appType,data,rfl,indicator,start,continuation⟩,later⟩ := others
    obtain ⟨same,silent⟩ := @otherGroup s data appType indicator start continuation
    obtain ⟨final,rest,none⟩ := ih (s := (s.step (.subfield appType data)).1) later
    refine ⟨final.trans same.length.symm,?_,?_⟩
    · show builds ((s.step (.subfield appType data)).2 ++ _) = []
      rw [buildsAppend,silent,rest,append_nil]
    · show dataSince 12 (if appType = 12 then data else if appType = 13 then [] ++ data else []) events = []
      rw [if_neg start,if_neg continuation,none]

section Parts
variable (sound : m.Sound) (some : m.start ≠ []) (length : s.mDataGroupLength = m.group.length)
include sound some length

theorem piecesBuilt {pieces : List (Bool × List U8)} (front : pieces <+: m.pieces) :
    Gathering m.group.length (m.start ++ (pieces.map Prod.snd).flatten) (s.run (.subfield 12 m.start :: pieces.map (pieceEvent 12))).1 ∧
      builds (s.run (.subfield 12 m.start :: pieces.map (pieceEvent 12))).2 =
        if m.group.length ≤ (m.start ++ (pieces.map Prod.snd).flatten).length then [fullBuffer m.group.length m.start m.pieces] else [] := by
  have small : m.group.length < 65536 := by
    have high : (m.indicator.getD 0 0#8).toNat &&& 0x3F ≤ 63 := Nat.and_le_right
    have low := (m.indicator.getD 1 0#8).isLt
    rw [← sound.indicated.2.2]
    refine Nat.or_lt_two_pow (n := 16) ?_ (by omega)
    rw [Nat.shiftLeft_eq]
    omega
  obtain ⟨rest,whole⟩ := front
  obtain ⟨first,built⟩ := startGathers length small some
  obtain ⟨final,later⟩ := piecesGather pieces first (.inl rfl)
  refine ⟨final,?_⟩
  show builds ((s.step (.subfield 12 m.start)).2 ++ _) = _
  have grown : m.start.length ≤ (m.start ++ (pieces.map Prod.snd).flatten).length := by rw [length_append]; omega
  rw [buildsAppend,built,later]
  by_cases now : m.group.length ≤ m.start.length
  · rw [if_pos now,if_neg (fun both => by omega),if_pos (by omega),fullNow now]
    rfl
  · rw [if_neg now,nil_append]
    by_cases full : m.group.length ≤ (m.start ++ (pieces.map Prod.snd).flatten).length
    · rw [if_pos ⟨by omega,full⟩,if_pos full,← whole,fullEarly full]
    · rw [if_neg (fun both => full both.2),if_neg full]

theorem trailBuilt {trail : List PadEvent} (front : trail <+: m.trail) :
    builds (s.run (.subfield 12 m.start :: (m.pieces.map (pieceEvent 12) ++ trail))).2 = [fullBuffer m.group.length m.start m.pieces] ∧
      m.group.length ≤ (dataSince 12 [] (.subfield 12 m.start :: (m.pieces.map (pieceEvent 12) ++ trail))).length := by
  have others : ∀ e ∈ trail, isStart 12 e = false := fun e member => sound.trail e (front.subset member)
  have long : m.group.length ≤ (m.start ++ (m.pieces.map Prod.snd).flatten).length := sound.cut.length_le
  obtain ⟨gathering,built⟩ := piecesBuilt sound some length (prefix_refl m.pieces)
  obtain ⟨-,silent⟩ := idleRun trail (gathering.whole long) others
  have split : (.subfield 12 m.start :: (m.pieces.map (pieceEvent 12) ++ trail) : List PadEvent) =
      (.subfield 12 m.start :: m.pieces.map (pieceEvent 12)) ++ trail := rfl
  rw [split,runAppend,buildsAppend,silent,append_nil,built,if_pos long,dataSinceAppend]
  refine ⟨rfl,?_⟩
  have grows := (@dataSinceGrows 12 (m.start ++ (m.pieces.map Prod.snd).flatten) trail others).length_le
  have data : dataSince 12 [] (.subfield 12 m.start :: m.pieces.map (pieceEvent 12)) = m.start ++ (m.pieces.map Prod.snd).flatten :=
    dataSincePieces m.start m.pieces
  rw [data]
  omega

end Parts

def built (m : MscTransmission) (events : List PadEvent) : List (List U8) :=
  if m.Arrived events then [fullBuffer m.group.length m.start m.pieces] else []

theorem builtNone (sound : m.Sound) {events : List PadEvent} (none : dataSince 12 [] events = []) : built m events = [] := by
  refine if_neg (fun arrived => ?_)
  unfold MscTransmission.Arrived at arrived
  rw [none] at arrived
  exact absurd (sound.some.trans arrived) (by decide)

theorem transmissionBuilds (sound : m.Sound) (some : m.start ≠ []) {received : List PadEvent} (part : received <+: m.events) :
    builds (s.run received).2 = built m received := by
  rcases prefix_cons_iff.mp part with rfl | ⟨q,rfl,behind⟩
  · rw [builtNone sound rfl]
    rfl
  -- The indicator sets the length; it builds nothing.
  have length : announced m.indicator s.mDataGroupLength = m.group.length := by
    unfold announced
    rw [if_pos ⟨sound.indicated.1,sound.indicated.2.1⟩,sound.indicated.2.2]
  have first : builds (s.run (.subfield 1 m.indicator :: q)).2 =
      builds (run { s with mDataGroupLength := m.group.length, mLastAppType := 1 } q).2 := by
    show builds ((s.step (.subfield 1 m.indicator)).2 ++ (run (s.step (.subfield 1 m.indicator)).1 q).2) = _
    rw [indicatorStep,length,nil_append]
  have skip : built m (.subfield 1 m.indicator :: q) = built m q := rfl
  rw [first,skip]
  obtain ⟨u,made,known⟩ : ∃ u : PadHandler, ({ s with mDataGroupLength := m.group.length, mLastAppType := 1 } : PadHandler) = u ∧
    u.mDataGroupLength = m.group.length := ⟨_,rfl,rfl⟩
  rw [made]
  rcases prefixAppendCases behind with early | ⟨r,rfl,late⟩
  · obtain ⟨-,silent,none⟩ := betweenRun (s := u) q (fun e member => sound.between e (early.subset member))
    rw [silent,builtNone sound none]
  obtain ⟨kept,silent,none⟩ := betweenRun (s := u) m.between sound.between
  have same : built m (m.between ++ r) = built m r := by
    unfold built MscTransmission.Arrived
    simp only [dataSinceAppend,none]
  rw [runAppend,buildsAppend,silent,nil_append,same]
  rcases prefix_cons_iff.mp late with rfl | ⟨rest,rfl,within⟩
  · rw [builtNone sound rfl]
    rfl
  rcases prefixAppendCases within with early | ⟨trail,rfl,after⟩
  · obtain ⟨pieces,front,rfl⟩ := prefix_map_iff.mp early
    have data : dataSince 12 [] (.subfield 12 m.start :: pieces.map (pieceEvent 12)) = m.start ++ (pieces.map Prod.snd).flatten :=
      dataSincePieces m.start pieces
    rw [(piecesBuilt sound some (kept.trans known) front).2]
    refine if_congr ?_ rfl rfl
    unfold MscTransmission.Arrived
    rw [data]
  · obtain ⟨whole,arrived⟩ := trailBuilt sound some (kept.trans known) after
    rw [whole]
    exact (if_pos arrived).symm

end Transmission

structure GroupState where
  length : Nat
  buffer : List U8
  element : Bool
  lastAppType : Nat

def groupState (s : PadHandler) : GroupState := ⟨s.mDataGroupLength,s.mMscDataGroupBuffer,s.mMscGroupElement,s.mLastAppType⟩

namespace GroupState
variable (g : GroupState)

def continued (data : List U8) : Option (List U8) :=
  if g.buffer ≠ [] ∧ g.length ≤ (g.buffer ++ data).length then some (g.buffer ++ data) else none

def grown (data : List U8) : List U8 := if g.buffer = [] ∨ g.length ≤ (g.buffer ++ data).length then [] else g.buffer ++ data

def Continues : Prop := (g.lastAppType = 12 ∨ g.lastAppType = 13) ∧ g.element = true

instance : Decidable g.Continues := by unfold Continues; infer_instance

def completes : PadEvent → Option (List U8)
  | .subfield appType data =>
    if appType = 12 then (if g.length % 65536 ≤ data.length then some data else none)
    else if appType = 13 then g.continued data
    else none
  | .plain data => if g.Continues then g.continued data else none

def next : PadEvent → GroupState
  | .subfield appType data =>
    { length := if appType = 1 then announced data g.length else g.length
      buffer := if appType = 12 then (if g.length % 65536 ≤ data.length then [] else data) else if appType = 13 then g.grown data else g.buffer
      element := if appType = 12 then decide (¬ g.length % 65536 ≤ data.length) else g.element
      lastAppType := appType }
  | .plain data => { g with buffer := if g.Continues then g.grown data else g.buffer }

end GroupState

theorem newElement (s : PadHandler) (data : List U8) :
    Element (if s.mDataGroupLength % 65536 ≤ data.length then [] else data) (decide (¬ s.mDataGroupLength % 65536 ≤ data.length))
      (if s.mDataGroupLength % 65536 ≤ data.length then some data else none).toList (s.newMscElement data) := by
  by_cases whole : s.mDataGroupLength % 65536 ≤ data.length
  · rw [if_pos whole,if_pos whole,decide_eq_false (not_not_intro whole)]
    exact newWhole whole
  · rw [if_neg whole,if_neg whole,decide_eq_true whole]
    exact newPart whole

theorem addElement (s : PadHandler) (data : List U8) :
    Element ((groupState s).grown data) s.mMscGroupElement ((groupState s).continued data).toList (s.addMscElement data) := by
  unfold GroupState.grown GroupState.continued
  by_cases empty : (groupState s).buffer = []
  · rw [addEmpty empty,if_pos (Or.inl empty),if_neg (fun both => both.1 empty)]
    exact ⟨empty,rfl,rfl⟩
  by_cases whole : (groupState s).length ≤ ((groupState s).buffer ++ data).length
  · rw [if_pos (Or.inr whole),if_pos ⟨empty,whole⟩]
    exact addWhole empty whole
  · rw [if_neg (fun either => either.elim empty whole),if_neg (fun both => whole both.2)]
    exact addPart empty whole

theorem groupStep (s : PadHandler) (e : PadEvent) :
    groupState (s.step e).1 = (groupState s).next e ∧ builds (s.step e).2 = ((groupState s).completes e).toList := by
  cases e with
  | subfield appType data =>
    rw [GroupState.next,GroupState.completes]
    by_cases indicator : appType = 1
    · subst indicator
      rw [indicatorStep]
      exact ⟨rfl,rfl⟩
    by_cases start : appType = 12
    · subst start
      obtain ⟨buffer,element,built⟩ := newElement s data
      have length := mscLength (newMscOnly s data)
      exact ⟨(GroupState.mk.injEq ..).mpr ⟨length,buffer,element,rfl⟩,built⟩
    by_cases continuation : appType = 13
    · subst continuation
      obtain ⟨buffer,element,built⟩ := addElement s data
      have length := mscLength (addMscOnly s data)
      exact ⟨(GroupState.mk.injEq ..).mpr ⟨length,buffer,element,rfl⟩,built⟩
    obtain ⟨same,silent⟩ := @otherGroup s data appType indicator start continuation
    rw [if_neg indicator,if_neg start,if_neg continuation,if_neg start,if_neg start,if_neg continuation]
    exact ⟨(GroupState.mk.injEq ..).mpr ⟨same.length.symm,same.buffer.symm,same.element.symm,rfl⟩,silent⟩
  | plain data =>
    have type := plainKeepsType s data
    rw [GroupState.next,GroupState.completes]
    by_cases own : s.mLastAppType = 12 ∨ s.mLastAppType = 13
    · by_cases element : s.mMscGroupElement = true
      · have continues : (groupState s).Continues := ⟨own,element⟩
        obtain ⟨buffer,kept,built⟩ := addElement s data
        rw [plainElement own,if_pos element] at type ⊢
        have length := mscLength (addMscOnly s data)
        rw [if_pos continues,if_pos continues]
        exact ⟨(GroupState.mk.injEq ..).mpr ⟨length,buffer,kept,type⟩,built⟩
      · have stops : ¬ (groupState s).Continues := fun both => element both.2
        rw [plainElement own,if_neg element,if_neg stops,if_neg stops]
        exact ⟨rfl,rfl⟩
    · have stops : ¬ (groupState s).Continues := fun both => own both.1
      obtain ⟨same,silent⟩ := @plainGroup s data own
      rw [if_neg stops,if_neg stops]
      exact ⟨(GroupState.mk.injEq ..).mpr ⟨same.length.symm,same.buffer.symm,same.element.symm,type⟩,silent⟩

theorem groupView : View groupState builds where
  append := buildsAppend
  blind := fun _ _ => rfl
  step := by
    intro s t e state
    rw [(groupStep s e).1,(groupStep t e).1,(groupStep s e).2,(groupStep t e).2,state]
    exact ⟨rfl,rfl⟩

def indicatorsOf (call : PadCall) : List U8 :=
  if (call.l1.toNat >>> 6) &&& 0x3 = 0 ∧ (call.l1.toNat >>> 4) &&& 0x3 = 2 ∧ call.l0.toNat &&& 0x2 ≠ 0 then
    (readIndicators call.buffer 4 call.last).1
  else []

theorem contentsIdle (buffer : List U8) (table : List U8) (base : Int) (empty : s.mMscDataGroupBuffer = [])
    (other : ∀ ci ∈ table, getApplType ci ≠ 12) :
    (handleContents buffer table base s).1.mMscDataGroupBuffer = [] ∧ builds (handleContents buffer table base s).2 = [] := by
  induction table generalizing s base with
  | nil => exact ⟨empty,rfl⟩
  | cons ci table ih =>
    rw [forall_mem_cons] at other
    obtain ⟨next,silent⟩ := idleStep (e := .subfield (getApplType ci) (collect buffer base (getLength ci))) empty (decide_eq_false other.1)
    obtain ⟨final,rest⟩ := ih (base - getLength ci) next other.2
    unfold handleContents
    dsimp only
    split
    · exact ⟨next,silent⟩
    · refine ⟨final,?_⟩
      show builds ((s.step (.subfield (getApplType ci) (collect buffer base (getLength ci)))).2 ++ _) = []
      rw [buildsAppend,silent]
      exact rest

theorem shortStartIdle (s : PadHandler) (flags first : U8) :
    (s.shortStart flags first).1.mMscDataGroupBuffer = s.mMscDataGroupBuffer ∧ builds (s.shortStart flags first).2 = [] := by
  unfold shortStart
  refine ⟨rfl,?_⟩
  dsimp only
  split <;> rfl

theorem shortIdle (buffer : List U8) (last : Int) (ciFlag : Bool) :
    (s.handleShortPad buffer last ciFlag).1.mMscDataGroupBuffer = s.mMscDataGroupBuffer ∧ builds (s.handleShortPad buffer last ciFlag).2 = [] := by
  unfold handleShortPad
  split
  · dsimp only
    split
    · exact shortStartIdle _ _ _
    · unfold shortContinuation
      dsimp only
      split <;> exact ⟨rfl,rfl⟩
    · exact ⟨rfl,rfl⟩
  · unfold shortPlain
    dsimp only
    split
    · split
      · refine ⟨rfl,?_⟩
        split <;> rfl
      · exact ⟨rfl,rfl⟩
    · exact ⟨rfl,rfl⟩

theorem callIdle (call : PadCall) (empty : s.mMscDataGroupBuffer = []) (other : ∀ ci ∈ indicatorsOf call, getApplType ci ≠ 12) :
    (s.processPad call.buffer call.last call.l1 call.l0).1.mMscDataGroupBuffer = [] ∧
      builds (s.processPad call.buffer call.last call.l1 call.l0).2 = [] := by
  unfold processPad
  split
  · exact ⟨empty,rfl⟩
  · rename_i kind
    dsimp only
    split
    · obtain ⟨kept,silent⟩ := @shortIdle s call.buffer call.last (decide (call.l0.toNat &&& 0x2 ≠ 0))
      exact ⟨kept.trans empty,silent⟩
    · rename_i variable_
      unfold handleVariablePad
      by_cases flag : call.l0.toNat &&& 0x2 ≠ 0
      · unfold indicatorsOf at other
        rw [if_pos ⟨not_not.mp kind,variable_,flag⟩] at other
        rw [decide_eq_true flag,if_neg (by decide)]
        exact contentsIdle (s := { s with mXPadLength := _ }) call.buffer _ _ empty other
      · rw [decide_eq_false flag,Bool.not_false,if_pos rfl]
        split
        · split
          · exact ⟨empty,rfl⟩
          · exact idleStep (e := .plain _) empty rfl
        · exact ⟨empty,rfl⟩
    · exact ⟨empty,rfl⟩

theorem callsIdle (calls : List PadCall) (empty : s.mMscDataGroupBuffer = [])
    (other : ∀ call ∈ calls, ∀ ci ∈ indicatorsOf call, getApplType ci ≠ 12) : builds (s.receive calls).2 = [] := by
  induction calls generalizing s with
  | nil => rfl
  | cons call calls ih =>
    rw [forall_mem_cons] at other
    obtain ⟨next,silent⟩ := callIdle call empty other.1
    show builds ((s.processPad _ _ _ _).2 ++ _) = []
    rw [buildsAppend,silent,nil_append]
    exact ih next other.2

theorem dataGroupBuilt : (∀ (m : MscTransmission) (lead : List PadEvent) (sent : List (PadCall × XPadFrame)) (s : PadHandler), m.Sound →
      (∀ e ∈ lead, ∃ appType data, e = .subfield appType data ∧ appType ≠ 1 ∧ appType ≠ 12 ∧ appType ≠ 13) →
      WellFormed s.mXPadLength sent → eventsOf sent = lead ++ m.events →
      ∃ buffer : List U8, buffer.take m.group.length = m.group ∧ ∀ received, received <+: sent →
        builds (s.receive (received.map Prod.fst)).2 = if m.Arrived (eventsOf received) then [buffer] else []) ∧
    ∀ (s : PadHandler) (calls : List PadCall), s.mMscDataGroupBuffer = [] →
      (∀ call ∈ calls, ∀ ci ∈ indicatorsOf call, getApplType ci ≠ 12) → builds (s.receive calls).2 = [] := by
  refine ⟨fun m lead sent s sound others formed events => ?_,fun s calls empty other => callsIdle calls empty other⟩
  have long : m.group.length ≤ (fullBuffer m.group.length m.start m.pieces).length := fullLong _ _ sound.cut.length_le
  have cut : (fullBuffer m.group.length m.start m.pieces).take m.group.length = m.group := by
    obtain ⟨rest,whole⟩ := fullPrefix (L := m.group.length) m.start m.pieces
    rw [takePrefix (whole ▸ sound.cut) le_rfl long,take_length]
  have some : m.start ≠ [] := by
    have member : .subfield 12 m.start ∈ eventsOf sent := by
      rw [events]
      exact mem_append_right _ (mem_cons_of_mem _ (mem_append_right _ mem_cons_self))
    exact ne_nil_of_length_pos (by have := subfieldLong formed member; omega)
  refine ⟨_,cut,fun received part => ?_⟩
  have seen := (groupView.receiveFormed (formedPrefix formed part) (rfl : groupState s = groupState s)).2
  have front := eventsPrefix part
  rw [events] at front
  rw [seen]
  rcases prefixAppendCases front with early | ⟨rest,split,late⟩
  · obtain ⟨-,silent,none⟩ := betweenRun (s := s) (eventsOf received) (fun e member => others e (early.subset member))
    rw [silent]
    exact (builtNone sound none).symm
  · obtain ⟨-,silent,none⟩ := betweenRun (s := s) lead others
    have arrived : m.Arrived (lead ++ rest) ↔ m.Arrived rest := by
      unfold MscTransmission.Arrived
      rw [dataSinceAppend,none]
    rw [split,runAppend,buildsAppend,silent,nil_append,transmissionBuilds sound some late]
    exact if_congr arrived.symm rfl rfl

def smallTransmission : MscTransmission where
  group := [0x03#8,0x00#8,0x01#8,0x02#8,0x05#8]
  indicator := [0x00#8,0x05#8,0xB2#8,0x55#8]
  between := []
  start := [0x03#8,0x00#8,0x01#8,0x02#8]
  pieces := [(false, [0x05#8,0x00#8,0x00#8,0x00#8,0x00#8,0x00#8,0x00#8,0x00#8,0x00#8,0x00#8,0x00#8])]
  trail := []

def smallTransmissionFrames : List (PadCall × XPadFrame) :=
  [(⟨[0x02#8,0x01#8,0x00#8,0x03#8,0x55#8,0xB2#8,0x05#8,0x00#8,0x00#8,0x0C#8,0x01#8],10,0x20#8,0x02#8⟩,
      .indicated [(0x01#8, [0x00#8,0x05#8,0xB2#8,0x55#8]),(0x0C#8, [0x03#8,0x00#8,0x01#8,0x02#8])]),
    (⟨[0x00#8,0x00#8,0x00#8,0x00#8,0x00#8,0x00#8,0x00#8,0x00#8,0x00#8,0x00#8,0x05#8],10,0x20#8,0x00#8⟩,
      .plain [0x05#8,0x00#8,0x00#8,0x00#8,0x00#8,0x00#8,0x00#8,0x00#8,0x00#8,0x00#8,0x00#8])]

theorem smallTransmissionBuilt : ∃ buffer : List U8, buffer.take 5 = smallTransmission.group ∧
    builds (receive {} (smallTransmissionFrames.map Prod.fst)).2 = [buffer] := by
  have formed : WellFormed (-1) smallTransmissionFrames :=
    ⟨⟨by decide,by decide,by decide,by decide⟩,by decide,⟨by decide,by decide,by decide,by decide⟩,by decide,trivial⟩
  have sound : smallTransmission.Sound :=
    ⟨by decide,by decide +kernel,fun e none => (nomatch none),⟨replicate 10 0#8,rfl⟩,fun e none => (nomatch none)⟩
  obtain ⟨buffer,cut,built⟩ := dataGroupBuilt.1 smallTransmission [] smallTransmissionFrames {} sound (fun e none => nomatch none) formed rfl
  exact ⟨buffer,cut,(built _ (prefix_refl _)).trans (if_pos (by decide))⟩

end PadHandler
end DabStar
