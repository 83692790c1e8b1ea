import DabStar.PadEvents
import DabStar.Lib.Prefixes

/-! Dynamic labels over variable X-PAD: up to eight segments, each cut into a start subfield,
continuation subfields and frames without indicators. Received completely, the label is emitted
with its last character. -/
namespace DabStar
open List Lib.Prefixes

structure LabelSegment where
  header : List U8
  text : List U8
  crc : List U8
  deriving DecidableEq, Repr

namespace LabelSegment

def word (g : LabelSegment) : Nat := be16 g.header 0

def bytes (g : LabelSegment) : List U8 := g.header ++ g.text ++ g.crc

structure Numbered (number charSet k : Nat) (g : LabelSegment) : Prop where
  header : g.header.length = 2
  crc : g.crc.length = 2
  text : 1 ≤ g.text.length
  first : (g.word >>> 14) &&& 1 ≠ 0 ↔ k = 0
  last : (g.word >>> 13) &&& 1 ≠ 0 ↔ k + 1 = number
  command : (g.word >>> 12) &&& 1 = 0
  length : ((g.word >>> 8) &&& 0x0F) + 1 = g.text.length
  charSet : k = 0 → (g.word >>> 4) &&& 0x0F = charSet
  number : k ≠ 0 → (g.word >>> 4) &&& 7 = k

end LabelSegment

structure DynamicLabel where
  charSet : Nat
  segments : List LabelSegment
  some : 1 ≤ segments.length
  few : segments.length ≤ 8
  numbered : ∀ k < segments.length, (segments.getD k ⟨[],[],[]⟩).Numbered segments.length charSet k

namespace DynamicLabel

def segment (L : DynamicLabel) (k : Nat) : LabelSegment := L.segments.getD k ⟨[],[],[]⟩

def front (L : DynamicLabel) (k : Nat) : List U8 := ((L.segments.take k).map LabelSegment.text).flatten

def text (L : DynamicLabel) : List U8 := (L.segments.map LabelSegment.text).flatten

theorem frontSucc (L : DynamicLabel) {k : Nat} (inside : k < L.segments.length) : L.front (k + 1) = L.front k ++ (L.segment k).text := by
  unfold front segment
  rw [take_add_one,List.getElem?_eq_getElem inside,map_append,flatten_append,getD_eq_getElem _ _ inside]
  simp

theorem frontAll (L : DynamicLabel) : L.front L.segments.length = L.text := by
  unfold front text
  rw [take_length]

end DynamicLabel

namespace PadHandler
variable {s t : PadHandler} {L : DynamicLabel} {k n : Nat} {data : List U8}

structure Collecting (L : DynamicLabel) (k n : Nat) (s : PadHandler) : Prop where
  text : s.mDynamicLabelTextUnConverted = L.front k ++ (L.segment k).text.take n
  charSet : s.mCharSet = L.charSet
  more : s.mMoreXPad = decide (n < (L.segment k).text.length)
  waiting : n < (L.segment k).text.length →
    s.mRemainDataLength = (L.segment k).text.length - n ∧ s.mIsLastSegment = decide (k + 1 = L.segments.length)
  number : k + 1 < L.segments.length → s.mSegmentNo = k + 1

def Ready (L : DynamicLabel) (k : Nat) (s : PadHandler) : Prop :=
  k = 0 ∨ s.mDynamicLabelTextUnConverted = L.front k ∧ s.mCharSet = L.charSet ∧ s.mSegmentNo = k

theorem collectedReady (collecting : Collecting L k n s) (whole : (L.segment k).text.length ≤ n)
    (later : k + 1 < L.segments.length) : Ready L (k + 1) s := by
  refine .inr ⟨?_,collecting.charSet,collecting.number later⟩
  rw [collecting.text,take_of_length_le whole,L.frontSucc (by omega)]

def shown (L : DynamicLabel) (complete : Prop) [Decidable complete] : List PadSignal :=
  if complete then [.showLabel L.text L.charSet] else []

theorem startBytes {g : LabelSegment} {start more : List U8} (header : g.header.length = 2) (long : 2 ≤ start.length)
    (front : g.bytes <+: start ++ more) : be16 start 0 = g.word ∧ g.text ++ g.crc <+: start.drop 2 ++ more := by
  obtain ⟨a,b,pair⟩ := length_eq_two.mp header
  obtain ⟨c,d,rest,rfl⟩ : ∃ c d rest, start = c :: d :: rest := by
    rcases start with _ | ⟨c,_ | ⟨d,rest⟩⟩
    · exact absurd long (by decide)
    · exact absurd long (by simp)
    · exact ⟨c,d,rest,rfl⟩
  unfold LabelSegment.bytes at front
  rw [pair,append_assoc,cons_append,cons_append,nil_append,cons_append,cons_append] at front
  obtain ⟨rfl,tail⟩ := cons_prefix_cons.mp front
  obtain ⟨rfl,behind⟩ := cons_prefix_cons.mp tail
  unfold LabelSegment.word
  rw [pair]
  exact ⟨rfl,behind⟩

theorem startCollects (ready : Ready L k s) (inside : k < L.segments.length) {start more : List U8} (long : 2 ≤ start.length)
    (front : (L.segment k).bytes <+: start ++ more) :
    Collecting L k (start.length - 2) (s.dynamicLabel start 2).1 ∧ (s.dynamicLabel start 2).2 =
      shown L (k + 1 = L.segments.length ∧ (L.segment k).text.length ≤ start.length - 2) := by
  have numbered : (L.segment k).Numbered L.segments.length L.charSet k := L.numbered k inside
  obtain ⟨word,rest⟩ := startBytes numbered.header long front
  obtain ⟨u,opened,text,charSet,number⟩ : ∃ u : PadHandler, s.dynamicLabel start 2 = u.labelStart start ∧
      u.mDynamicLabelTextUnConverted = L.front k ∧ u.mCharSet = L.charSet ∧ u.mSegmentNo = k + 1 := by
    unfold dynamicLabel
    rw [if_pos rfl,word]
    by_cases first : k = 0
    · rw [if_pos (numbered.first.mpr first),numbered.charSet first]
      exact ⟨_,rfl,by rw [first]; rfl,rfl,by rw [first]; rfl⟩
    · rw [if_neg (fun flag => first (numbered.first.mp flag)),numbered.number first]
      obtain zero | ⟨text,charSet,number⟩ := ready
      · exact absurd zero first
      · rw [if_neg (by rw [number]; exact not_not_intro rfl)]
        exact ⟨_,rfl,text,charSet,rfl⟩
  have total : (((L.segment k).word >>> 8) &&& 0x0F) + 1 = (L.segment k).text.length := numbered.length
  have taken : (start.drop 2).take (if decide (start.length - 2 < (L.segment k).text.length) then start.length - 2 else (L.segment k).text.length) =
      (L.segment k).text.take (start.length - 2) := by
    have rests : (start.drop 2).length = start.length - 2 := length_drop
    have longer : (L.segment k).text.length ≤ ((L.segment k).text ++ (L.segment k).crc).length := by rw [length_append]; omega
    by_cases part : start.length - 2 < (L.segment k).text.length
    · rw [if_pos (decide_eq_true part),takePrefix rest (by omega) (by omega),take_append_of_le_length (by omega)]
    · rw [if_neg (by simpa using part),takePrefix rest longer (by omega),take_append_of_le_length le_rfl,
        take_of_length_le le_rfl,take_of_length_le (by omega)]
  have left : (L.segment k).text.length -
      (if decide (start.length - 2 < (L.segment k).text.length) then start.length - 2 else (L.segment k).text.length) =
      (L.segment k).text.length - (start.length - 2) := by
    by_cases part : start.length - 2 < (L.segment k).text.length
    · rw [if_pos (decide_eq_true part)]
    · rw [if_neg (by simpa using part)]
      omega
  rw [opened]
  unfold labelStart shown
  dsimp only
  rw [word,if_neg (not_not_intro numbered.command),total,taken,left,text]
  by_cases last : k + 1 = L.segments.length
  · rw [if_pos (numbered.last.mpr last)]
    by_cases part : start.length - 2 < (L.segment k).text.length
    · rw [decide_eq_true part,if_neg (by decide),if_neg (fun both => by omega)]
      exact ⟨⟨rfl,charSet,by rw [decide_eq_true part],fun _ => ⟨rfl,by rw [decide_eq_true last]⟩,fun later => by omega⟩,rfl⟩
    · have whole : (L.segment k).text.take (start.length - 2) = (L.segment k).text := take_of_length_le (by omega)
      have all : L.front k ++ (L.segment k).text = L.text := by rw [← L.frontSucc inside,last,L.frontAll]
      rw [decide_eq_false part,Bool.not_false,if_pos rfl,if_pos ⟨last,by omega⟩,whole,all]
      refine ⟨⟨by rw [whole,all],charSet,by rw [decide_eq_false part],fun missing => absurd missing part,fun later => by omega⟩,?_⟩
      show [PadSignal.showLabel L.text u.mCharSet] = _
      rw [charSet]
  · rw [if_neg (fun flag => last (numbered.last.mp flag)),if_neg (fun both => last both.1)]
    exact ⟨⟨rfl,charSet,rfl,fun _ => ⟨rfl,by rw [decide_eq_false last]⟩,fun _ => number⟩,rfl⟩

theorem pieceCollects (collecting : Collecting L k n s) (inside : k < L.segments.length) {got piece more : List U8} (length : got.length = n)
    (front : (L.segment k).text ++ (L.segment k).crc <+: got ++ piece ++ more) :
    Collecting L k (n + piece.length) (s.dynamicLabel piece 3).1 ∧ (s.dynamicLabel piece 3).2 =
      shown L (k + 1 = L.segments.length ∧ n < (L.segment k).text.length ∧ (L.segment k).text.length ≤ n + piece.length) := by
  obtain ⟨text,charSet,more',waiting,number⟩ := collecting
  unfold dynamicLabel shown
  rw [if_neg (by decide)]
  by_cases part : n < (L.segment k).text.length
  swap
  · rw [if_neg (fun both => by rw [more',decide_eq_false part] at both; exact Bool.false_ne_true both.2),if_neg (fun all => part all.2.1)]
    have whole : (L.segment k).text.take (n + piece.length) = (L.segment k).text.take n := by
      rw [take_of_length_le (by omega),take_of_length_le (by omega)]
    refine ⟨⟨?_,charSet,?_,fun missing => by omega,number⟩,rfl⟩
    · rw [whole]
      exact text
    · rw [more',decide_eq_false part,decide_eq_false (by omega)]
  obtain ⟨remain,isLast⟩ := waiting part
  have moreTrue : s.mMoreXPad = true := by rw [more',decide_eq_true part]
  have joined : ∀ j, j ≤ piece.length → n + j ≤ (L.segment k).text.length →
      (L.segment k).text.take n ++ piece.take j = (L.segment k).text.take (n + j) := by
    intro j short inText
    have within : ∀ m, m ≤ n + j → (got ++ piece).take m = (L.segment k).text.take m := by
      intro m small
      rw [takePrefix front (by rw [length_append]; omega) (by rw [length_append]; omega),take_append_of_le_length (by omega)]
    have early := within n (by omega)
    have late := within (n + j) le_rfl
    rw [← length,take_left] at early
    rw [← length,take_length_add_append] at late
    rw [← length,← late,← early]
  have count : (if decide (s.mRemainDataLength > piece.length) then piece.length else s.mRemainDataLength) =
      min piece.length ((L.segment k).text.length - n) := by
    rw [remain]
    by_cases short : (L.segment k).text.length - n > piece.length
    · rw [if_pos (decide_eq_true short)]
      omega
    · rw [if_neg (by simpa using short)]
      omega
  have texts : s.mDynamicLabelTextUnConverted ++ piece.take (min piece.length ((L.segment k).text.length - n)) =
      L.front k ++ (L.segment k).text.take (n + piece.length) := by
    rw [text,append_assoc,joined _ (by omega) (by omega)]
    by_cases short : (L.segment k).text.length - n > piece.length
    · rw [Nat.min_eq_left (by omega)]
    · rw [take_of_length_le (by omega),take_of_length_le (by omega)]
  rw [if_pos ⟨rfl,moreTrue⟩]
  unfold labelContinuation
  dsimp only
  rw [count,texts,charSet,isLast,remain]
  by_cases short : n + piece.length < (L.segment k).text.length
  · have fewer : (L.segment k).text.length - n > piece.length := by omega
    have missing : ¬ (k + 1 = L.segments.length ∧ n < (L.segment k).text.length ∧ (L.segment k).text.length ≤ n + piece.length) :=
      fun all => by omega
    rw [decide_eq_true fewer,if_neg missing]
    refine ⟨⟨rfl,rfl,by rw [decide_eq_true short],fun _ => ⟨?_,rfl⟩,number⟩,rfl⟩
    show (L.segment k).text.length - n - piece.length = _
    omega
  · have enough : ¬ (L.segment k).text.length - n > piece.length := by omega
    rw [decide_eq_false enough,Bool.not_false,Bool.true_and]
    refine ⟨⟨rfl,rfl,by rw [decide_eq_false short],fun missing => absurd missing short,number⟩,?_⟩
    by_cases last : k + 1 = L.segments.length
    · rw [if_pos (decide_eq_true last),if_pos ⟨last,part,by omega⟩,take_of_length_le (by omega),← L.frontSucc inside,last,L.frontAll]
    · rw [if_neg (by simpa using last),if_neg (fun all => last all.1)]

structure SameLabel (s t : PadHandler) : Prop where
  text : s.mDynamicLabelTextUnConverted = t.mDynamicLabelTextUnConverted
  charSet : s.mCharSet = t.mCharSet
  number : s.mSegmentNo = t.mSegmentNo
  remain : s.mRemainDataLength = t.mRemainDataLength
  isLast : s.mIsLastSegment = t.mIsLastSegment
  more : s.mMoreXPad = t.mMoreXPad

theorem sameCollecting (same : SameLabel s t) (collecting : Collecting L k n s) : Collecting L k n t := by
  obtain ⟨text,charSet,more,waiting,number⟩ := collecting
  refine ⟨same.text ▸ text,same.charSet ▸ charSet,same.more ▸ more,fun part => ?_,fun later => same.number ▸ number later⟩
  exact ⟨same.remain ▸ (waiting part).1,same.isLast ▸ (waiting part).2⟩

theorem mscSame {signals : List PadSignal} (only : MscOnly s t signals) : SameLabel s t := by
  rw [only.fields]
  exact ⟨rfl,rfl,rfl,rfl,rfl,rfl⟩

theorem journalineSame {signals : List PadSignal} (only : JournalineOnly s t signals) : SameLabel s t := by
  rw [only.fields]
  exact ⟨rfl,rfl,rfl,rfl,rfl,rfl⟩

theorem otherSubfield {appType : Nat} (start : appType ≠ 2) (continuation : appType ≠ 3) :
    SameLabel s (s.step (.subfield appType data)).1 ∧ labels (s.step (.subfield appType data)).2 = [] := by
  have named : ∀ u : PadHandler, SameLabel s u → SameLabel s { u with mLastAppType := appType } :=
    fun u same => ⟨same.text,same.charSet,same.number,same.remain,same.isLast,same.more⟩
  show SameLabel s { (s.handleApplication appType data).1 with mLastAppType := appType } ∧ labels (s.handleApplication appType data).2 = []
  rcases applicationCases s data appType with ⟨-,length,h⟩ | ⟨type,-⟩ | ⟨-,h⟩ | ⟨-,h⟩ | ⟨-,h⟩
  · rw [h]
    exact ⟨⟨rfl,rfl,rfl,rfl,rfl,rfl⟩,rfl⟩
  · exact absurd type (by omega)
  · rw [h]
    exact ⟨named _ (mscSame (newMscOnly s data)),(newMscOnly s data).noLabel⟩
  · rw [h]
    exact ⟨named _ (mscSame (addMscOnly s data)),(addMscOnly s data).noLabel⟩
  · rw [h]
    exact ⟨named _ (journalineSame (handleJournalineOnly s data appType)),(handleJournalineOnly s data appType).noLabel⟩

theorem plainLabel (other : ¬ (s.mLastAppType = 2 ∨ s.mLastAppType = 3)) :
    SameLabel s (s.step (.plain data)).1 ∧ labels (s.step (.plain data)).2 = [] := by
  show SameLabel s (s.handlePlain data).1 ∧ labels (s.handlePlain data).2 = []
  rcases plainCases s data with ⟨type,-⟩ | ⟨-,h⟩ | ⟨-,only⟩
  · exact absurd type other
  · rw [h]
    split
    · exact ⟨mscSame (addMscOnly s data),(addMscOnly s data).noLabel⟩
    · exact ⟨⟨rfl,rfl,rfl,rfl,rfl,rfl⟩,rfl⟩
  · exact ⟨journalineSame only,only.noLabel⟩

theorem plainContinues (own : s.mLastAppType = 2 ∨ s.mLastAppType = 3) : s.step (.plain data) = s.dynamicLabel data 3 := by
  rcases plainCases s data with ⟨-,h⟩ | ⟨type,-⟩ | ⟨⟨two,three,-⟩,-⟩
  · exact h
  · omega
  · omega

/- A frame without indicators continues a label only while a part of it is missing. -/
theorem plainComplete (whole : s.mMoreXPad = false) : SameLabel s (s.step (.plain data)).1 ∧ labels (s.step (.plain data)).2 = [] := by
  by_cases own : s.mLastAppType = 2 ∨ s.mLastAppType = 3
  · rw [plainContinues own]
    unfold dynamicLabel
    rw [if_neg (by decide),if_neg (fun both => by rw [whole] at both; exact Bool.false_ne_true both.2)]
    exact ⟨⟨rfl,rfl,rfl,rfl,rfl,rfl⟩,rfl⟩
  · exact plainLabel own

end PadHandler

/- A segment on its way: the start subfield, the pieces that continue it (in a subfield of
type 3 or in a frame without indicators), and what comes before the next segment. -/
structure LabelGroup where
  start : List U8
  pieces : List (Bool × List U8)
  gap : List PadEvent
  deriving DecidableEq, Repr

namespace LabelGroup

def events (g : LabelGroup) : List PadEvent := .subfield 2 g.start :: (g.pieces.map (pieceEvent 2) ++ g.gap)

structure Carries (g : LabelGroup) (segment : LabelSegment) : Prop where
  bytes : segment.bytes <+: g.start ++ (g.pieces.map Prod.snd).flatten
  gap : ∀ e ∈ g.gap, Apart 2 e

end LabelGroup

def DynamicLabel.Arrived (L : DynamicLabel) (events : List PadEvent) : Prop :=
  begun 2 events = L.segments.length ∧ 2 + (L.segment (L.segments.length - 1)).text.length ≤ (dataSince 2 [] events).length
  deriving Decidable

namespace PadHandler
variable {s t : PadHandler} {L : DynamicLabel} {k n : Nat}

def OwnApplication (s : PadHandler) : Prop := s.mLastAppType = 2 ∨ s.mLastAppType = 3

def shownLabel (L : DynamicLabel) (complete : Prop) [Decidable complete] : List (List U8 × Nat) :=
  if complete then [(L.text, L.charSet)] else []

theorem labelsShown (complete : Prop) [Decidable complete] : labels (shown L complete) = shownLabel L complete := by
  unfold shown shownLabel
  split <;> rfl

theorem pieceStep (own : s.OwnApplication) (piece : Bool × List U8) :
    SameLabel (s.dynamicLabel piece.2 3).1 (s.step ((pieceEvent 2) piece)).1 ∧ (s.step ((pieceEvent 2) piece)).1.OwnApplication ∧
      (s.step ((pieceEvent 2) piece)).2 = (s.dynamicLabel piece.2 3).2 := by
  obtain ⟨subfield,data⟩ := piece
  cases subfield with
  | true => exact ⟨⟨rfl,rfl,rfl,rfl,rfl,rfl⟩,.inr rfl,rfl⟩
  | false =>
    have step : s.step ((pieceEvent 2) (false, data)) = s.dynamicLabel data 3 := plainContinues own
    have kept : (s.dynamicLabel data 3).1.mLastAppType = s.mLastAppType := by rw [(dynamicLabelOnly s data 3).fields]
    rw [step]
    refine ⟨⟨rfl,rfl,rfl,rfl,rfl,rfl⟩,?_,rfl⟩
    unfold OwnApplication
    rw [kept]
    exact own

theorem piecesCollect (pieces : List (Bool × List U8)) {got more : List U8} (collecting : Collecting L k n s) (own : s.OwnApplication)
    (inside : k < L.segments.length) (length : got.length = n)
    (front : (L.segment k).text ++ (L.segment k).crc <+: got ++ (pieces.map Prod.snd).flatten ++ more) :
    Collecting L k (n + (pieces.map Prod.snd).flatten.length) (s.run (pieces.map (pieceEvent 2))).1 ∧
      labels (s.run (pieces.map (pieceEvent 2))).2 = shownLabel L (k + 1 = L.segments.length ∧ n < (L.segment k).text.length ∧
        (L.segment k).text.length ≤ n + (pieces.map Prod.snd).flatten.length) := by
  induction pieces generalizing s n got with
  | nil =>
    refine ⟨collecting,?_⟩
    unfold shownLabel
    rw [if_neg (fun all => by rw [map_nil,flatten_nil,length_nil] at all; omega)]
    rfl
  | cons p pieces ih =>
    rw [map_cons,flatten_cons] at front
    have here : (L.segment k).text ++ (L.segment k).crc <+: got ++ p.2 ++ ((pieces.map Prod.snd).flatten ++ more) := by
      rwa [← append_assoc,append_assoc got]
    have later : (L.segment k).text ++ (L.segment k).crc <+: (got ++ p.2) ++ (pieces.map Prod.snd).flatten ++ more := by
      rwa [append_assoc got]
    obtain ⟨taken,emits⟩ := pieceCollects collecting inside length here
    obtain ⟨same,ownNext,signals⟩ := pieceStep own p
    obtain ⟨final,rest⟩ := @ih (s.step (pieceEvent 2 p)).1 (n + p.2.length) (got ++ p.2) (sameCollecting same taken) ownNext (by rw [length_append,length]) later
    have total : n + (p.2 ++ (pieces.map Prod.snd).flatten).length = n + p.2.length + (pieces.map Prod.snd).flatten.length := by
      rw [length_append,Nat.add_assoc]
    rw [map_cons,map_cons,flatten_cons,total]
    refine ⟨final,?_⟩
    show labels ((s.step ((pieceEvent 2) p)).2 ++ _) = _
    rw [labelsAppend,rest,signals,emits,labelsShown]
    unfold shownLabel
    by_cases last : k + 1 = L.segments.length
    · by_cases before : n < (L.segment k).text.length
      · by_cases now : (L.segment k).text.length ≤ n + p.2.length
        · rw [if_pos ⟨last,before,now⟩,if_neg (fun all => by omega),if_pos ⟨last,before,by omega⟩]
          rfl
        · rw [if_neg (fun all => now all.2.2),nil_append]
          exact if_congr ⟨fun all => ⟨last,before,all.2.2⟩,fun all => ⟨last,by omega,all.2.2⟩⟩ rfl rfl
      · rw [if_neg (fun all => before all.2.1),if_neg (fun all => by omega),if_neg (fun all => before all.2.1)]
        rfl
    · rw [if_neg (fun all => last all.1),if_neg (fun all => last all.1),if_neg (fun all => last all.1)]
      rfl

theorem gapCollects {gap : List PadEvent} (collecting : Collecting L k n s) (whole : (L.segment k).text.length ≤ n)
    (other : ∀ e ∈ gap, Apart 2 e) : Collecting L k n (s.run gap).1 ∧ labels (s.run gap).2 = [] := by
  induction gap generalizing s with
  | nil => exact ⟨collecting,rfl⟩
  | cons e gap ih =>
    rw [forall_mem_cons] at other
    have complete : s.mMoreXPad = false := by rw [collecting.more,decide_eq_false (by omega)]
    obtain ⟨same,silent⟩ : SameLabel s (s.step e).1 ∧ labels (s.step e).2 = [] := by
      cases e with
      | subfield appType data => exact otherSubfield other.1.1 other.1.2
      | plain data => exact plainComplete complete
    obtain ⟨final,rest⟩ := ih (sameCollecting same collecting) other.2
    refine ⟨final,?_⟩
    show labels ((s.step e).2 ++ _) = []
    rw [labelsAppend,silent,rest,append_nil]

structure PartReceived (L : DynamicLabel) (k : Nat) (s : PadHandler) (part : List PadEvent) (n : Nat) : Prop where
  collecting : Collecting L k n (s.run part).1
  shows : labels (s.run part).2 = shownLabel L (k + 1 = L.segments.length ∧ (L.segment k).text.length ≤ n)
  length : (L.segment k).text.length ≤ n ↔ 2 + (L.segment k).text.length ≤ (dataSince 2 [] part).length
  begins : begun 2 part = 1
  fresh : ∀ data, dataSince 2 data part = dataSince 2 [] part

section Parts
variable {g : LabelGroup} (ready : Ready L k s) (inside : k < L.segments.length) (long : 2 ≤ g.start.length)
  (carries : g.Carries (L.segment k))
include ready inside long carries

theorem piecesReceived {pieces : List (Bool × List U8)} (front : pieces <+: g.pieces) :
    PartReceived L k s (.subfield 2 g.start :: pieces.map (pieceEvent 2)) (g.start.length - 2 + (pieces.map Prod.snd).flatten.length) := by
  have numbered : (L.segment k).Numbered L.segments.length L.charSet k := L.numbered k inside
  obtain ⟨rest,whole⟩ := front
  obtain ⟨-,behind⟩ := startBytes numbered.header long carries.bytes
  have first := startCollects ready inside long carries.bytes
  have started : Collecting L k (g.start.length - 2) (s.step (.subfield 2 g.start)).1 :=
    ⟨first.1.text,first.1.charSet,first.1.more,first.1.waiting,first.1.number⟩
  have cut : (g.pieces.map Prod.snd).flatten = (pieces.map Prod.snd).flatten ++ (rest.map Prod.snd).flatten := by
    rw [← whole,map_append,flatten_append]
  rw [cut,← append_assoc] at behind
  obtain ⟨collecting,shows⟩ := piecesCollect pieces started (.inl rfl) inside (by rw [length_drop]) behind
  have data : ∀ d, dataSince 2 d (.subfield 2 g.start :: pieces.map (pieceEvent 2)) = g.start ++ (pieces.map Prod.snd).flatten :=
    fun d => dataSincePieces g.start pieces
  refine ⟨collecting,?_,?_,?_,fun d => (data d).trans (data []).symm⟩
  · show labels ((s.dynamicLabel g.start 2).2 ++ _) = _
    rw [labelsAppend,first.2,labelsShown,shows]
    unfold shownLabel
    by_cases last : k + 1 = L.segments.length
    · by_cases early : (L.segment k).text.length ≤ g.start.length - 2
      · rw [if_pos ⟨last,early⟩,if_neg (fun all => by omega),if_pos ⟨last,by omega⟩]
        rfl
      · rw [if_neg (fun both => early both.2),nil_append]
        exact if_congr ⟨fun all => ⟨last,all.2.2⟩,fun both => ⟨last,by omega,both.2⟩⟩ rfl rfl
    · rw [if_neg (fun both => last both.1),if_neg (fun both => last both.1),if_neg (fun both => last both.1)]
      rfl
  · rw [data,length_append]
    omega
  · show List.countP (isStart 2) (_ :: _) = 1
    rw [countP_cons_of_pos (show isStart 2 (.subfield 2 g.start) = true from rfl)]
    exact congrArg (· + 1) (noStartPieces pieces)

omit ready in
theorem groupWhole : (L.segment k).text.length ≤ g.start.length - 2 + (g.pieces.map Prod.snd).flatten.length := by
  have numbered : (L.segment k).Numbered L.segments.length L.charSet k := L.numbered k inside
  obtain ⟨-,behind⟩ := startBytes numbered.header long carries.bytes
  have length := behind.length_le
  rw [length_append,length_append,length_drop] at length
  omega

theorem gapReceived {gap : List PadEvent} (front : gap <+: g.gap) :
    PartReceived L k s (.subfield 2 g.start :: (g.pieces.map (pieceEvent 2) ++ gap))
      (g.start.length - 2 + (g.pieces.map Prod.snd).flatten.length) := by
  obtain ⟨collecting,shows,length,begins,fresh⟩ := piecesReceived ready inside long carries (prefix_refl g.pieces)
  have whole := groupWhole inside long carries
  have other : ∀ e ∈ gap, Apart 2 e := fun e member => carries.gap e (front.subset member)
  obtain ⟨final,silent⟩ := gapCollects collecting whole other
  have split : (.subfield 2 g.start :: (g.pieces.map (pieceEvent 2) ++ gap) : List PadEvent) =
      (.subfield 2 g.start :: g.pieces.map (pieceEvent 2)) ++ gap := rfl
  rw [split]
  refine ⟨by rw [runAppend]; exact final,?_,?_,?_,fun d => ?_⟩
  · rw [runAppend,labelsAppend,silent,append_nil,shows]
  · refine iff_of_true whole ?_
    have longer := (@dataSinceGrows 2 (dataSince 2 [] (.subfield 2 g.start :: g.pieces.map (pieceEvent 2))) gap
      (fun e member => apartNoStart (other e member))).length_le
    rw [dataSinceAppend]
    exact (length.mp whole).trans longer
  · unfold begun at begins ⊢
    rw [countP_append,begins]
    exact congrArg (1 + ·) (noStartApart other)
  · rw [dataSinceAppend,dataSinceAppend,fresh]

theorem partReceived {part : List PadEvent} (some : part ≠ []) (within : part <+: g.events) :
    ∃ n, PartReceived L k s part n ∧ (part = g.events → (L.segment k).text.length ≤ n) := by
  obtain rfl | ⟨q,rfl,behind⟩ := prefix_cons_iff.mp within
  · exact absurd rfl some
  rcases prefixAppendCases behind with early | ⟨gap,rfl,late⟩
  · obtain ⟨pieces,front,rfl⟩ := prefix_map_iff.mp early
    refine ⟨_,piecesReceived ready inside long carries front,fun all => ?_⟩
    have length := congrArg List.length (tail_eq_of_cons_eq all)
    rw [length_append,length_map,length_map] at length
    have same : pieces = g.pieces := front.eq_of_length (by have := front.length_le; omega)
    rw [same]
    exact groupWhole inside long carries
  · exact ⟨_,gapReceived ready inside long carries late,fun _ => groupWhole inside long carries⟩

end Parts

theorem groupsReceived {β : Type} {groups : List β} {taken : β → List PadEvent}
    (whole : ∀ (k : Nat) (g : β), groups[k]? = some g → k < L.segments.length → ∀ s, Ready L k s →
      ∃ n, PartReceived L k s (taken g) n ∧ (L.segment k).text.length ≤ n)
    (k : Nat) (few : k ≤ groups.length) (early : k < L.segments.length) :
    Ready L k (s.run ((groups.take k).flatMap taken)).1 ∧ labels (s.run ((groups.take k).flatMap taken)).2 = [] ∧
      begun 2 ((groups.take k).flatMap taken) = k := by
  induction k with
  | zero => exact ⟨.inl rfl,rfl,rfl⟩
  | succ k ih =>
    obtain ⟨ready,silent,count⟩ := ih (by omega) (by omega)
    have found : groups[k]? = some (groups[k]) := List.getElem?_eq_getElem (by omega)
    obtain ⟨n,⟨collecting,shows,-,begins,-⟩,all⟩ := whole k _ found (by omega) _ ready
    have next : (groups.take (k + 1)).flatMap taken = (groups.take k).flatMap taken ++ taken groups[k] := by
      rw [take_add_one,found,flatMap_append]
      simp
    rw [next,runAppend]
    refine ⟨collectedReady collecting all early,?_,?_⟩
    · unfold shownLabel at shows
      rw [if_neg (fun both => by omega)] at shows
      rw [labelsAppend,silent,shows,append_nil]
    · unfold begun at count begins ⊢
      rw [countP_append,count,begins]

theorem labelEvents (groups : List LabelGroup) (count : groups.length = L.segments.length) (long : ∀ g ∈ groups, 2 ≤ g.start.length)
    (carries : ∀ (k : Nat) (g : LabelGroup), groups[k]? = some g → g.Carries (L.segment k)) {received : List PadEvent}
    (part : received <+: groups.flatMap LabelGroup.events) : labels (s.run received).2 = shownLabel L (L.Arrived received) := by
  unfold shownLabel
  rcases prefixFlatMap part with rfl | ⟨k,g,rest,found,begins,within,rfl⟩
  · have none : ¬ L.Arrived [] := fun arrived => absurd arrived.1 (Nat.ne_of_lt L.some)
    rw [if_neg none]
    rfl
  · obtain ⟨inside,-⟩ := List.getElem?_eq_some_iff.mp found
    have whole : ∀ (k : Nat) (g : LabelGroup), groups[k]? = some g → k < L.segments.length → ∀ s, Ready L k s →
        ∃ n, PartReceived L k s g.events n ∧ (L.segment k).text.length ≤ n := by
      intro k g found inside s ready
      obtain ⟨n,received,all⟩ := partReceived ready inside (long g (mem_of_getElem? found)) (carries k g found)
        (cons_ne_nil _ _) (prefix_refl g.events)
      exact ⟨n,received,all rfl⟩
    obtain ⟨ready,silent,before⟩ := groupsReceived (s := s) whole k (by omega) (by omega)
    obtain ⟨n,⟨-,shows,length,begins,fresh⟩,-⟩ := partReceived ready (by omega) (long g (mem_of_getElem? found)) (carries k g found)
      begins within
    have data : dataSince 2 [] ((groups.take k).flatMap LabelGroup.events ++ rest) = dataSince 2 [] rest := by rw [dataSinceAppend,fresh]
    have total : begun 2 ((groups.take k).flatMap LabelGroup.events ++ rest) = k + 1 := by
      unfold begun at before begins ⊢
      rw [countP_append,before,begins]
    have arrived : L.Arrived ((groups.take k).flatMap LabelGroup.events ++ rest) ↔
        k + 1 = L.segments.length ∧ (L.segment k).text.length ≤ n := by
      unfold DynamicLabel.Arrived
      rw [data,total]
      refine and_congr_right fun last => ?_
      rw [length,← last,Nat.add_sub_cancel]
    rw [runAppend,labelsAppend,silent,nil_append,shows]
    exact if_congr arrived.symm rfl rfl

structure LabelState where
  text : List U8
  charSet : Nat
  number : Int
  remain : Nat
  isLast : Bool
  more : Bool
  lastAppType : Nat

def labelState (s : PadHandler) : LabelState :=
  ⟨s.mDynamicLabelTextUnConverted,s.mCharSet,s.mSegmentNo,s.mRemainDataLength,s.mIsLastSegment,s.mMoreXPad,s.mLastAppType⟩

theorem dynamicLabelCongr (same : SameLabel s t) (data : List U8) (applType : Nat) :
    SameLabel (s.dynamicLabel data applType).1 (t.dynamicLabel data applType).1 ∧
      (s.dynamicLabel data applType).2 = (t.dynamicLabel data applType).2 := by
  cases s
  cases t
  obtain ⟨text,charSet,number,remain,isLast,more⟩ := same
  dsimp only at text charSet number remain isLast more
  subst text charSet number remain isLast more
  unfold dynamicLabel labelStart labelContinuation
  dsimp only
  repeat' split
  all_goals exact ⟨⟨rfl,rfl,rfl,rfl,rfl,rfl⟩,rfl⟩

theorem sameLabelState : labelState s = labelState t ↔ SameLabel s t ∧ s.mLastAppType = t.mLastAppType := by
  unfold labelState
  rw [LabelState.mk.injEq]
  constructor
  · rintro ⟨text,charSet,number,remain,isLast,more,type⟩
    exact ⟨⟨text,charSet,number,remain,isLast,more⟩,type⟩
  · rintro ⟨⟨text,charSet,number,remain,isLast,more⟩,type⟩
    exact ⟨text,charSet,number,remain,isLast,more,type⟩

theorem sameTrans {u : PadHandler} (first : SameLabel s t) (second : SameLabel t u) : SameLabel s u :=
  ⟨first.text.trans second.text,first.charSet.trans second.charSet,first.number.trans second.number,
    first.remain.trans second.remain,first.isLast.trans second.isLast,first.more.trans second.more⟩

theorem sameSymm (same : SameLabel s t) : SameLabel t s :=
  ⟨same.text.symm,same.charSet.symm,same.number.symm,same.remain.symm,same.isLast.symm,same.more.symm⟩

theorem labelView : View labelState labels where
  append := labelsAppend
  blind := fun _ _ => rfl
  step := by
    intro s t e state
    obtain ⟨same,type⟩ := sameLabelState.mp state
    cases e with
    | subfield appType data =>
      by_cases own : appType = 2 ∨ appType = 3
      · have step : ∀ u : PadHandler, u.step (.subfield appType data) =
            ({ (u.dynamicLabel data appType).1 with mLastAppType := appType }, (u.dynamicLabel data appType).2) := by
          intro u
          rcases own with rfl | rfl <;> rfl
        obtain ⟨⟨text,charSet,number,remain,isLast,more⟩,signals⟩ := dynamicLabelCongr same data appType
        rw [step,step]
        exact ⟨sameLabelState.mpr ⟨⟨text,charSet,number,remain,isLast,more⟩,rfl⟩,congrArg labels signals⟩
      · have start : appType ≠ 2 := fun two => own (.inl two)
        have continuation : appType ≠ 3 := fun three => own (.inr three)
        obtain ⟨left,silentLeft⟩ := @otherSubfield s data appType start continuation
        obtain ⟨right,silentRight⟩ := @otherSubfield t data appType start continuation
        exact ⟨sameLabelState.mpr ⟨sameTrans (sameSymm left) (sameTrans same right),rfl⟩,silentLeft.trans silentRight.symm⟩
    | plain data =>
      have types : (s.step (.plain data)).1.mLastAppType = (t.step (.plain data)).1.mLastAppType := by
        rw [plainKeepsType,plainKeepsType,type]
      by_cases own : s.mLastAppType = 2 ∨ s.mLastAppType = 3
      · obtain ⟨after,signals⟩ := dynamicLabelCongr same data 3
        rw [plainContinues own,plainContinues (type ▸ own)] at types ⊢
        exact ⟨sameLabelState.mpr ⟨after,types⟩,congrArg labels signals⟩
      · obtain ⟨left,silentLeft⟩ := @plainLabel s data own
        obtain ⟨right,silentRight⟩ := @plainLabel t data (type ▸ own)
        exact ⟨sameLabelState.mpr ⟨sameTrans (sameSymm left) (sameTrans same right),types⟩,silentLeft.trans silentRight.symm⟩

theorem otherSilent {lead : List PadEvent} (others : ∀ e ∈ lead, ∃ appType data, e = .subfield appType data ∧ appType ≠ 2 ∧ appType ≠ 3) :
    labels (s.run lead).2 = [] ∧ begun 2 lead = 0 ∧ dataSince 2 [] lead = [] := by
  induction lead generalizing s with
  | nil => exact ⟨rfl,rfl,rfl⟩
  | cons e lead ih =>
    rw [forall_mem_cons] at others
    obtain ⟨⟨appType,data,rfl,start,continuation⟩,later⟩ := others
    obtain ⟨silent,count,none⟩ := ih (s := (s.step (.subfield appType data)).1) later
    refine ⟨?_,?_,?_⟩
    · show labels ((s.step (.subfield appType data)).2 ++ _) = []
      rw [labelsAppend,(otherSubfield start continuation).2,silent,append_nil]
    · unfold begun at count ⊢
      have other : ¬ isStart 2 (.subfield appType data) = true := fun here => start (of_decide_eq_true here)
      rw [countP_cons_of_neg other,count]
    · show dataSince 2 (if appType = 2 then data else if appType = 3 then [] ++ data else []) lead = []
      rw [if_neg start,if_neg continuation,none]

theorem labelReceived (L : DynamicLabel) (lead : List PadEvent) (groups : List LabelGroup) (sent : List (PadCall × XPadFrame))
    (s : PadHandler) (formed : WellFormed s.mXPadLength sent)
    (others : ∀ e ∈ lead, ∃ appType data, e = .subfield appType data ∧ appType ≠ 2 ∧ appType ≠ 3)
    (cut : List.Forall₂ LabelGroup.Carries groups L.segments) (events : eventsOf sent = lead ++ groups.flatMap LabelGroup.events)
    (received : List (PadCall × XPadFrame)) (part : received <+: sent) :
    labels (s.receive (received.map Prod.fst)).2 = if L.Arrived (eventsOf received) then [(L.text, L.charSet)] else [] := by
  have seen := (labelView.receiveFormed (formedPrefix formed part) (rfl : labelState s = labelState s)).2
  have front := eventsPrefix part
  rw [events] at front
  have long : ∀ g ∈ groups, 2 ≤ g.start.length := by
    intro g member
    have start : .subfield 2 g.start ∈ eventsOf sent := by
      rw [events]
      exact mem_append_right _ (mem_flatMap.mpr ⟨g,member,mem_cons_self⟩)
    have := subfieldLong formed start
    omega
  have carries : ∀ (k : Nat) (g : LabelGroup), groups[k]? = some g → g.Carries (L.segment k) := by
    intro k g found
    obtain ⟨inside,here⟩ := List.getElem?_eq_some_iff.mp found
    have within : k < L.segments.length := cut.length_eq ▸ inside
    have carried := (List.forall₂_iff_get.mp cut).2 k inside within
    rw [get_eq_getElem,get_eq_getElem,here] at carried
    unfold DynamicLabel.segment
    rwa [getD_eq_getElem _ _ within]
  rw [seen]
  rcases prefixAppendCases front with early | ⟨rest,split,late⟩
  · have quiet := @otherSilent s (eventsOf received) (fun e member => others e (early.subset member))
    rw [quiet.1,if_neg (fun arrived => absurd (quiet.2.1.symm.trans arrived.1) (Nat.ne_of_lt L.some))]
  · obtain ⟨silent,count,none⟩ := otherSilent (s := s) others
    have arrived : L.Arrived (lead ++ rest) ↔ L.Arrived rest := by
      unfold DynamicLabel.Arrived
      unfold begun at count ⊢
      rw [countP_append,count,Nat.zero_add,dataSinceAppend,none]
    rw [split,runAppend,labelsAppend,silent,nil_append,labelEvents groups cut.length_eq long carries late]
    exact if_congr arrived.symm rfl rfl

def greeting : DynamicLabel where
  charSet := 15
  segments := [⟨[0x62#8,0xF0#8],[0x41#8,0x42#8,0x43#8],[0x12#8,0x34#8]⟩]
  some := by decide
  few := by decide
  numbered := by
    intro k inside
    obtain rfl : k = 0 := by simpa using inside
    exact ⟨rfl,rfl,by decide,by decide,by decide,by decide,by decide,fun _ => by decide,fun other => absurd rfl other⟩

def greetingFrames : List (PadCall × XPadFrame) :=
  [(⟨[0x42#8,0x41#8,0xF0#8,0x62#8,0x00#8,0x02#8],5,0x20#8,0x02#8⟩, .indicated [(0x02#8, [0x62#8,0xF0#8,0x41#8,0x42#8])]),
    (⟨[0x00#8,0x00#8,0x00#8,0x34#8,0x12#8,0x43#8],5,0x20#8,0x00#8⟩, .plain [0x43#8,0x12#8,0x34#8,0x00#8,0x00#8,0x00#8])]

theorem greetingReceived : labels (receive {} (greetingFrames.map Prod.fst)).2 = [([0x41#8,0x42#8,0x43#8], 15)] := by
  have formed : WellFormed (-1) greetingFrames :=
    ⟨⟨by decide,by decide,by decide,by decide⟩,by decide,⟨by decide,by decide,by decide,by decide⟩,by decide,trivial⟩
  exact labelReceived greeting [] [⟨[0x62#8,0xF0#8,0x41#8,0x42#8],[(false, [0x43#8,0x12#8,0x34#8,0x00#8,0x00#8,0x00#8])],[]⟩]
    greetingFrames {} formed (fun e none => nomatch none) (.cons ⟨⟨[0x00#8,0x00#8,0x00#8],rfl⟩,fun e none => nomatch none⟩ .nil) rfl
    greetingFrames (prefix_refl _)

end PadHandler
end DabStar
