import DabStar.PadLabels

/-! Dynamic labels over short X-PAD, in fields of four bytes. The first and last flag are read
from every field with an indicator, so also from the text of a continuation. Which labels are
shown is decided for every cut into fields. -/
namespace DabStar
open List Lib.Prefixes
open PadHandler (getApplType collect)

inductive ShortField where
  | start (ci flags second first : U8)
  | continued (ci a b c : U8)
  | plain (a b c d : U8)
  deriving DecidableEq, Repr

namespace ShortField

def bytes : ShortField → List U8
  | start ci flags second first => [ci,flags,second,first]
  | continued ci a b c => [ci,a,b,c]
  | plain a b c d => [a,b,c,d]

def hasIndicator : ShortField → Bool
  | plain .. => false
  | _ => true

def data : ShortField → List U8
  | start .. => []
  | continued _ a b c => [a,b,c]
  | plain a b c d => [a,b,c,d]

def Typed : ShortField → Prop
  | start ci .. => getApplType ci = 2
  | continued ci .. => getApplType ci = 3
  | plain .. => True

def Continues : ShortField → Prop
  | start .. => False
  | _ => True

def KeepsText : ShortField → Prop
  | continued _ a _ _ => a.toNat &&& 0x40 = 0
  | _ => True

instance (f : ShortField) : Decidable f.Typed := by cases f <;> (unfold Typed; infer_instance)
instance (f : ShortField) : Decidable f.Continues := by cases f <;> (unfold Continues; infer_instance)
instance (f : ShortField) : Decidable f.KeepsText := by cases f <;> (unfold KeepsText; infer_instance)

end ShortField

namespace PadCall

structure CarriesShort (call : PadCall) (field : ShortField) : Prop where
  kind : (call.l1.toNat >>> 6) &&& 0x3 = 0 ∧ (call.l1.toNat >>> 4) &&& 0x3 = 1
  indicator : decide (call.l0.toNat &&& 0x2 ≠ 0) = field.hasIndicator
  inside : call.last < call.buffer.length ∧ 3 ≤ call.last
  content : collect call.buffer call.last 4 = field.bytes

end PadCall

namespace PadHandler
variable {s : PadHandler} {f : ShortField}

def texts (signals : List PadSignal) : List (List U8) := (labels signals).map Prod.fst

def shortHeader (s : PadHandler) (flags second : U8) : PadHandler :=
  { s with
    mFirstSegment := decide (flags.toNat &&& 0x40 ≠ 0)
    mLastSegment := decide (flags.toNat &&& 0x20 ≠ 0)
    mCharSet := second.toNat &&& 0x0F
    mDynamicLabelTextUnConverted := if decide (flags.toNat &&& 0x40 ≠ 0) then [] else s.mDynamicLabelTextUnConverted }

def shortStep (s : PadHandler) : ShortField → PadHandler × List PadSignal
  | .start _ flags second first => (s.shortHeader flags second).shortStart flags first
  | .continued _ a b c => (s.shortHeader a b).shortContinuation [a,b,c]
  | .plain a b c d => s.shortPlain [a,b,c,d]

def shortRun (s : PadHandler) : List ShortField → PadHandler × List PadSignal
  | [] => (s, [])
  | f :: rest => ((shortRun (s.shortStep f).1 rest).1, (s.shortStep f).2 ++ (shortRun (s.shortStep f).1 rest).2)

theorem shortRunAppend (fields more : List ShortField) :
    s.shortRun (fields ++ more) = (((s.shortRun fields).1.shortRun more).1, (s.shortRun fields).2 ++ ((s.shortRun fields).1.shortRun more).2) := by
  induction fields generalizing s with
  | nil => rfl
  | cons f fields ih => rw [cons_append,shortRun,shortRun,ih,append_assoc]

theorem collectFour {buffer : List U8} {base : Int} {a b c d : U8} (content : collect buffer base 4 = [a,b,c,d]) :
    Mp4Processor.byteOf buffer base = a ∧ Mp4Processor.byteOf buffer (base - 1) = b ∧ Mp4Processor.byteOf buffer (base - 2) = c ∧
      Mp4Processor.byteOf buffer (base - 3) = d := by
  have bytes : [Mp4Processor.byteOf buffer (base - 0),Mp4Processor.byteOf buffer (base - 1),Mp4Processor.byteOf buffer (base - 2),
      Mp4Processor.byteOf buffer (base - 3)] = [a,b,c,d] := content
  rw [sub_zero] at bytes
  simpa using bytes

theorem shortCall {call : PadCall} (carries : call.CarriesShort f) (typed : f.Typed) :
    s.processPad call.buffer call.last call.l1 call.l0 = s.shortStep f := by
  unfold processPad
  rw [if_neg (not_not_intro carries.kind.1),carries.kind.2,carries.indicator]
  show s.handleShortPad call.buffer call.last f.hasIndicator = _
  have content := carries.content
  unfold handleShortPad
  cases f with
  | start ci flags second first =>
    obtain ⟨zero,one,two,three⟩ := collectFour content
    have type : getApplType ci = 2 := typed
    rw [if_pos (show (ShortField.start ci flags second first).hasIndicator = true from rfl),zero,one,two,three,type]
    rfl
  | continued ci a b c =>
    obtain ⟨zero,one,two,three⟩ := collectFour content
    have type : getApplType ci = 3 := typed
    have behind : collect call.buffer (call.last - 1) 3 = [a,b,c] := (collectAppend (a := [ci]) (b := [a,b,c]) content).2
    rw [if_pos (show (ShortField.continued ci a b c).hasIndicator = true from rfl),zero,one,two,type,behind]
    rfl
  | plain a b c d =>
    rw [if_neg (show ¬ (ShortField.plain a b c d).hasIndicator = true from Bool.false_ne_true),content]
    rfl

theorem shortReceive {sent : List (PadCall × ShortField)} (carried : ∀ f ∈ sent, f.1.CarriesShort f.2 ∧ f.2.Typed) :
    s.receive (sent.map Prod.fst) = s.shortRun (sent.map Prod.snd) := by
  induction sent generalizing s with
  | nil => rfl
  | cons f sent ih =>
    rw [forall_mem_cons] at carried
    show ((receive (s.processPad _ _ _ _).1 _).1, (s.processPad _ _ _ _).2 ++ (receive (s.processPad _ _ _ _).1 _).2) = _
    rw [shortCall carried.1.1 carried.1.2,ih carried.2]
    rfl

section Segments
variable {T d r full : List U8} {flags : U8}

def Shows (flags : U8) : Prop := flags.toNat &&& 0x40 = 0 ∧ flags.toNat &&& 0x20 ≠ 0
  deriving Decidable

structure Open (T d r : List U8) (flags : U8) (s : PadHandler) : Prop where
  text : s.mDynamicLabelTextUnConverted = T
  data : s.mShortPadData = d
  still : s.mStillToGo = r.length
  first : s.mFirstSegment = decide (flags.toNat &&& 0x40 ≠ 0)
  last : s.mLastSegment = decide (flags.toNat &&& 0x20 ≠ 0)
  begun : d ≠ []
  single : r = [] → d.length = 1

structure Closed (T : List U8) (s : PadHandler) : Prop where
  text : s.mDynamicLabelTextUnConverted = T
  data : s.mShortPadData = []
  still : s.mStillToGo = 0

theorem startOpens (s : PadHandler) (ci second first : U8) (length : flags.toNat &&& 0x0F = r.length) :
    Open (if flags.toNat &&& 0x40 ≠ 0 then [] else s.mDynamicLabelTextUnConverted) [first] r flags (s.shortStep (.start ci flags second first)).1 ∧
      texts (s.shortStep (.start ci flags second first)).2 = [] := by
  have cleared : (s.shortHeader flags second).mDynamicLabelTextUnConverted =
      if flags.toNat &&& 0x40 ≠ 0 then [] else s.mDynamicLabelTextUnConverted := if_congr decide_eq_true_iff rfl rfl
  have empty : (s.shortHeader flags second).mFirstSegment = true → (s.shortHeader flags second).mDynamicLabelTextUnConverted = [] := by
    intro bit
    rw [cleared,if_pos (of_decide_eq_true bit)]
  rw [← cleared]
  show Open _ _ _ _ ((s.shortHeader flags second).shortStart flags first).1 ∧ texts ((s.shortHeader flags second).shortStart flags first).2 = []
  have bits : (s.shortHeader flags second).mFirstSegment = decide (flags.toNat &&& 0x40 ≠ 0) ∧
      (s.shortHeader flags second).mLastSegment = decide (flags.toNat &&& 0x20 ≠ 0) := ⟨rfl,rfl⟩
  generalize s.shortHeader flags second = t at empty bits
  unfold shortStart
  dsimp only
  by_cases opening : (t.mFirstSegment && !t.mLastSegment) = true
  · have none := empty (Bool.and_elim_left opening)
    rw [opening,none]
    exact ⟨⟨rfl,rfl,length,bits.1,bits.2,cons_ne_nil _ _,fun _ => rfl⟩,rfl⟩
  · rw [Bool.eq_false_iff.mpr opening]
    exact ⟨⟨rfl,rfl,length,bits.1,bits.2,cons_ne_nil _ _,fun _ => rfl⟩,rfl⟩

theorem headerOpen (opened : Open T d r flags s) (a b : U8) : Open (if a.toNat &&& 0x40 ≠ 0 then [] else T) d r a (s.shortHeader a b) := by
  refine ⟨?_,opened.data,opened.still,rfl,rfl,opened.begun,opened.single⟩
  rw [← opened.text]
  exact if_congr decide_eq_true_iff rfl rfl

theorem fieldTakes {bytes more : List U8} (front : r <+: bytes ++ more) :
    bytes.take (min bytes.length r.length) = r.take bytes.length ∧ r.drop bytes.length <+: more := by
  constructor
  · rw [takePrefix front (by omega) (by omega)]
    by_cases long : bytes.length ≤ r.length
    · rw [Nat.min_eq_left long]
    · rw [take_of_length_le (by omega),take_of_length_le (by omega)]
  · rcases prefixAppendCases front with early | ⟨rest,rfl,late⟩
    · rw [drop_eq_nil_of_le early.length_le]
      exact nil_prefix
    · rw [drop_left]
      exact late

theorem continuationOpen (opened : Open T d r flags s) {a b c : U8} {more : List U8} (front : r <+: [a,b,c] ++ more) :
    (if 0 < r.length ∧ r.length ≤ 3 then Closed (T ++ d ++ r) (s.shortContinuation [a,b,c]).1
      else Open T (d ++ r.take 3) (r.drop 3) flags (s.shortContinuation [a,b,c]).1) ∧ texts (s.shortContinuation [a,b,c]).2 = [] := by
  obtain ⟨text,data,still,first,last,begun,single⟩ := opened
  have taken : [a,b,c].take (min 3 r.length) = r.take 3 := (fieldTakes front).1
  have size : (d ++ r.take 3).length = d.length + min 3 r.length := by rw [length_append,length_take]
  have here := length_pos_of_ne_nil begun
  have closing : (r.length - min 3 r.length ≤ 0 ∧ (d ++ r.take 3).length > 1) ↔ 0 < r.length ∧ r.length ≤ 3 := by
    rw [size]
    constructor
    · rintro ⟨whole,long⟩
      refine ⟨length_pos_of_ne_nil fun none => ?_,by omega⟩
      have one := single none
      rw [none,length_nil] at long
      omega
    · omega
  unfold shortContinuation
  dsimp only
  rw [still,data,taken,text]
  by_cases closes : 0 < r.length ∧ r.length ≤ 3
  · rw [if_pos closes,if_pos (closing.mpr closes),take_of_length_le closes.2]
    refine ⟨⟨(append_assoc _ _ _).symm,rfl,?_⟩,rfl⟩
    show r.length - min 3 r.length = 0
    omega
  · rw [if_neg closes,if_neg (fun both => closes (closing.mp both))]
    refine ⟨⟨rfl,rfl,?_,first,last,append_ne_nil_of_left_ne_nil begun _,fun none => ?_⟩,rfl⟩
    · show r.length - min 3 r.length = (r.drop 3).length
      rw [length_drop]
      omega
    · have short : r.length ≤ 3 := drop_eq_nil_iff.mp none
      have empty : r = [] := eq_nil_of_length_eq_zero (by omega)
      rw [size,single empty,empty]
      rfl

theorem plainOpen (opened : Open T d r flags s) {a b c e : U8} {more : List U8} (front : r <+: [a,b,c,e] ++ more) : if r.length ≤ 4 then
      Closed (if Shows flags then [] else T ++ d ++ r) (s.shortPlain [a,b,c,e]).1 ∧
        texts (s.shortPlain [a,b,c,e]).2 = if Shows flags then [T ++ d ++ r] else []
    else Open T (d ++ r.take 4) (r.drop 4) flags (s.shortPlain [a,b,c,e]).1 ∧ texts (s.shortPlain [a,b,c,e]).2 = [] := by
  obtain ⟨text,data,still,first,last,begun,single⟩ := opened
  have taken : [a,b,c,e].take (min 4 r.length) = r.take 4 := (fieldTakes front).1
  have some : 0 < (d ++ r.take 4).length := length_pos_of_ne_nil (append_ne_nil_of_left_ne_nil begun _)
  have flag : (!s.mFirstSegment && s.mLastSegment) = decide (Shows flags) := by
    rw [first,last]
    unfold Shows
    by_cases bit : flags.toNat &&& 0x40 = 0 <;> simp [bit]
  unfold shortPlain
  dsimp only
  rw [still,data,taken,text,flag]
  by_cases closes : r.length ≤ 4
  · have gone : r.length - min 4 r.length = 0 := by omega
    have full : (T ++ (d ++ r)).isEmpty = false := by simp [begun]
    have whole : r.length - min 4 r.length ≤ 0 ∧ (d ++ r.take 4).length > 0 := ⟨gone.le,some⟩
    rw [if_pos closes,if_pos whole,take_of_length_le closes,full]
    by_cases shows : Shows flags
    · rw [if_pos (decide_eq_true shows),if_pos shows,if_pos shows]
      exact ⟨⟨rfl,rfl,gone⟩,congrArg (fun x => [x]) (append_assoc _ _ _).symm⟩
    · have hidden : ¬ decide (Shows flags) = true := fun flag => shows (of_decide_eq_true flag)
      rw [if_neg hidden,if_neg shows,if_neg shows]
      exact ⟨⟨(append_assoc _ _ _).symm,rfl,gone⟩,rfl⟩
  · rw [if_neg closes,if_neg (fun both => by omega)]
    refine ⟨⟨rfl,rfl,?_,first,last,append_ne_nil_of_left_ne_nil begun _,fun none => ?_⟩,rfl⟩
    · show r.length - min 4 r.length = (r.drop 4).length
      rw [length_drop]
      omega
    · exact absurd (drop_eq_nil_iff.mp none) closes

theorem closedStep (closed : Closed T s) (continues : f.Continues) :
    Closed (if f.KeepsText then T else []) (s.shortStep f).1 ∧ texts (s.shortStep f).2 = [] := by
  obtain ⟨text,data,still⟩ := closed
  cases f with
  | start ci flags second first => exact continues.elim
  | continued ci a b c =>
    have cleared : (s.shortHeader a b).mDynamicLabelTextUnConverted = if (ShortField.continued ci a b c).KeepsText then T else [] := by
      show (if decide (a.toNat &&& 0x40 ≠ 0) then [] else s.mDynamicLabelTextUnConverted) = if a.toNat &&& 0x40 = 0 then T else []
      rw [text]
      by_cases bit : a.toNat &&& 0x40 = 0 <;> simp [bit]
    show Closed _ ((s.shortHeader a b).shortContinuation [a,b,c]).1 ∧ texts ((s.shortHeader a b).shortContinuation [a,b,c]).2 = []
    unfold shortContinuation
    dsimp only
    have idle : ¬ (0 - min 3 0 ≤ 0 ∧ ([] ++ List.take (min 3 0) [a,b,c]).length > 1) := fun both => absurd both.2 (Nat.not_lt_zero 1)
    rw [show (s.shortHeader a b).mStillToGo = 0 from still,show (s.shortHeader a b).mShortPadData = [] from data,if_neg idle]
    exact ⟨⟨cleared,rfl,rfl⟩,rfl⟩
  | plain a b c e =>
    show Closed _ (s.shortPlain [a,b,c,e]).1 ∧ texts (s.shortPlain [a,b,c,e]).2 = []
    unfold shortPlain
    dsimp only
    have idle : ¬ (0 - min 4 0 ≤ 0 ∧ ([] ++ List.take (min 4 0) [a,b,c,e]).length > 0) := fun both => absurd both.2 (Nat.not_lt_zero 0)
    rw [still,data,if_neg idle]
    exact ⟨⟨text,rfl,rfl⟩,rfl⟩

theorem closedRun (fields : List ShortField) (closed : Closed T s) (continues : ∀ f ∈ fields, f.Continues) :
    Closed (if ∀ f ∈ fields, f.KeepsText then T else []) (s.shortRun fields).1 ∧ texts (s.shortRun fields).2 = [] := by
  induction fields generalizing s T with
  | nil => exact ⟨closed,rfl⟩
  | cons f fields ih =>
    rw [forall_mem_cons] at continues
    obtain ⟨next,silent⟩ := closedStep closed continues.1
    obtain ⟨final,rest⟩ := ih next continues.2
    have same : (if ∀ g ∈ fields, g.KeepsText then (if f.KeepsText then T else []) else []) =
        if ∀ g ∈ f :: fields, g.KeepsText then T else [] := by
      rw [← ite_and]
      exact if_congr (by rw [forall_mem_cons,and_comm]) rfl rfl
    rw [same] at final
    refine ⟨final,?_⟩
    show texts ((s.shortStep f).2 ++ _) = []
    unfold texts at silent rest ⊢
    rw [labelsAppend,map_append,silent,rest,append_nil]

/- What has to hold of the fields behind the start of a segment. They reach a field that
closes it: for one character this is the next field without indicator, otherwise the one
with the last character. Until then no first flag is read that clears earlier segments. A
segment before the last is not shown there, and no later field clears it; the last one is
shown, which takes a field without indicator. -/
def Collected (first last : Bool) : U8 → Nat → List ShortField → Prop
  | _, _, [] => False
  | flags, need, .start .. :: rest => Collected first last flags need rest
  | _, need, .continued _ a _ _ :: rest => (first = true ∨ a.toNat &&& 0x40 = 0) ∧
      if 0 < need ∧ need ≤ 3 then last = false ∧ ∀ f ∈ rest, f.KeepsText else Collected first last a (need - 3) rest
  | flags, need, .plain .. :: rest =>
    if need ≤ 4 then (if last then Shows flags else ¬ Shows flags ∧ ∀ f ∈ rest, f.KeepsText)
    else Collected first last flags (need - 4) rest

def sizes (shown : List (List U8)) : Nat := (shown.map List.length).sum

structure Outcome (last collected : Prop) (full : List U8) (shown : List (List U8)) (text : List U8) : Prop where
  bound : sizes shown + text.length ≤ full.length
  ending : last → (collected ↔ shown = [full])
  middle : ¬ last → (collected ↔ shown = [] ∧ text = full)
  short : shown = [] → text = full ∨ text.length < full.length

theorem textsAppend (a b : List PadSignal) : texts (a ++ b) = texts a ++ texts b := by
  unfold texts
  rw [labelsAppend,map_append]

theorem closedOutcome {last keeps : Prop} [Decidable keeps] (some : full ≠ []) :
    Outcome last (¬ last ∧ keeps) full [] (if keeps then full else []) := by
  have positive := length_pos_of_ne_nil some
  by_cases kept : keeps
  · rw [if_pos kept]
    exact ⟨(Nat.zero_add _).le,fun here => iff_of_false (fun both => both.1 here) (fun same => nomatch same),
      fun other => iff_of_true ⟨other,kept⟩ ⟨rfl,rfl⟩,fun _ => .inl rfl⟩
  · rw [if_neg kept]
    exact ⟨Nat.zero_le _,fun here => iff_of_false (fun both => both.1 here) (fun same => nomatch same),
      fun _ => iff_of_false (fun both => kept both.2) (fun both => some both.2.symm),fun _ => .inr positive⟩

theorem lostOutcome {last collected : Prop} {shown : List (List U8)} {text : List U8} (less : sizes shown + text.length < full.length)
    (fails : ¬ collected) : Outcome last collected full shown text := by
  refine ⟨less.le,fun _ => iff_of_false fails (fun same => ?_),fun _ => iff_of_false fails (fun both => ?_),fun _ => .inr (by omega)⟩
  · have size : sizes [full] = full.length := Nat.add_zero _
    rw [same,size] at less
    omega
  · rw [both.2] at less
    omega

theorem openOutcome (fields : List ShortField) (first last : Bool) (opened : Open T d r flags s) (whole : T ++ d ++ r = full)
    (cleared : first = true ↔ T = []) (continues : ∀ f ∈ fields, f.Continues) (front : r <+: fields.flatMap ShortField.data) :
    Outcome (last = true) (Collected first last flags r.length fields) full (texts (s.shortRun fields).2)
      (s.shortRun fields).1.mDynamicLabelTextUnConverted := by
  induction fields generalizing s T d r flags first full with
  | nil =>
    have text : ((s.shortRun []).1.mDynamicLabelTextUnConverted).length < full.length := by
      have positive := length_pos_of_ne_nil opened.begun
      rw [← whole,length_append,length_append,show (s.shortRun []).1 = s from rfl,opened.text]
      omega
    refine ⟨?_,fun _ => iff_of_false id (fun same => nomatch same),fun _ => iff_of_false id (fun both => ?_),fun _ => .inr text⟩
    · show 0 + _ ≤ _
      omega
    · rw [both.2] at text
      omega
  | cons f fields ih =>
    rw [forall_mem_cons] at continues
    rw [flatMap_cons] at front
    have later := (fieldTakes front).2
    have some : full ≠ [] := by
      rw [← whole]
      exact append_ne_nil_of_left_ne_nil (append_ne_nil_of_right_ne_nil _ opened.begun) _
    have cut : ∀ n U, U ++ (d ++ r.take n) ++ r.drop n = U ++ d ++ r := by
      intro n U
      rw [← append_assoc,append_assoc,take_append_drop]
    rw [shortRun,textsAppend]
    cases f with
    | start ci flags second first => exact continues.1.elim
    | continued ci a b c =>
      have header := headerOpen opened a b
      obtain ⟨next,silent⟩ := continuationOpen header front
      have step : s.shortStep (.continued ci a b c) = (s.shortHeader a b).shortContinuation [a,b,c] := rfl
      rw [step,silent,nil_append]
      generalize (s.shortHeader a b).shortContinuation [a,b,c] = t at next
      rw [Collected]
      by_cases kept : first = true ∨ a.toNat &&& 0x40 = 0
      · have same : (if a.toNat &&& 0x40 ≠ 0 then [] else T) = T := by
          rcases kept with here | bit
          · rw [cleared.mp here]
            exact ite_self _
          · exact if_neg (not_not_intro bit)
        rw [same] at next
        by_cases closes : 0 < r.length ∧ r.length ≤ 3
        · rw [if_pos closes,whole] at next
          obtain ⟨final,silent⟩ := closedRun fields next continues.2
          have means : ((first = true ∨ a.toNat &&& 0x40 = 0) ∧
              if 0 < r.length ∧ r.length ≤ 3 then last = false ∧ ∀ f ∈ fields, f.KeepsText else Collected first last a (r.length - 3) fields) ↔
              (¬ last = true ∧ ∀ f ∈ fields, f.KeepsText) := by
            rw [if_pos closes,Bool.not_eq_true]
            exact and_iff_right kept
          rw [silent,final.text,propext means]
          exact closedOutcome some
        · rw [if_neg closes] at next
          rw [if_neg closes,and_iff_right kept,← length_drop]
          exact ih first next ((cut 3 T).trans whole) cleared continues.2 later
      · have bit : a.toNat &&& 0x40 ≠ 0 := fun zero => kept (.inr zero)
        have before : T ≠ [] := fun empty => kept (.inl (cleared.mpr empty))
        rw [if_pos bit] at next
        refine lostOutcome ?_ (fun both => kept both.1)
        have less : ([] ++ d ++ r).length < full.length := by
          have positive := length_pos_of_ne_nil before
          simp only [← whole,length_append,length_nil]
          omega
        refine lt_of_le_of_lt ?_ less
        by_cases closes : 0 < r.length ∧ r.length ≤ 3
        · rw [if_pos closes] at next
          obtain ⟨final,silent⟩ := closedRun fields next continues.2
          rw [silent,final.text]
          have some : [] ++ d ++ r ≠ [] := append_ne_nil_of_left_ne_nil (append_ne_nil_of_right_ne_nil _ opened.begun) _
          exact (@closedOutcome _ True _ _ some).bound
        · rw [if_neg closes] at next
          exact (ih true next (cut 3 []) (iff_of_true rfl rfl) continues.2 later).bound
    | plain a b c e =>
      have next := plainOpen opened front
      have step : s.shortStep (.plain a b c e) = s.shortPlain [a,b,c,e] := rfl
      rw [step]
      generalize s.shortPlain [a,b,c,e] = t at next
      rw [Collected]
      by_cases closes : r.length ≤ 4
      · rw [if_pos closes,whole] at next
        rw [if_pos closes]
        obtain ⟨closed,shown⟩ := next
        obtain ⟨final,silent⟩ := closedRun fields closed continues.2
        rw [shown,silent,append_nil,final.text]
        by_cases shows : Shows flags
        · rw [if_pos shows,if_pos shows,ite_self]
          refine ⟨(Nat.add_zero _).le,fun here => ?_,fun other => ?_,fun none => nomatch none⟩
          · rw [if_pos here]
            exact iff_of_true shows rfl
          · rw [if_neg other]
            exact iff_of_false (fun both => both.1 shows) (fun both => nomatch both.1)
        · have means : (if last = true then Shows flags else ¬ Shows flags ∧ ∀ f ∈ fields, f.KeepsText) ↔
              (¬ last = true ∧ ∀ f ∈ fields, f.KeepsText) := by
            by_cases here : last = true
            · rw [if_pos here]
              exact iff_of_false shows (fun both => both.1 here)
            · rw [if_neg here]
              exact and_congr_left' (iff_of_true shows here)
          rw [if_neg shows,if_neg shows,propext means]
          exact closedOutcome some
      · rw [if_neg closes] at next
        rw [if_neg closes,next.2,nil_append,← length_drop]
        exact ih first next.1 ((cut 4 T).trans whole) cleared continues.2 later

end Segments

end PadHandler

structure ShortGroup where
  ci : U8
  rest : List ShortField
  deriving DecidableEq, Repr

namespace ShortGroup

def flags (segment : LabelSegment) : U8 := segment.header.getD 0 0#8

def fields (g : ShortGroup) (segment : LabelSegment) : List ShortField :=
  .start g.ci (flags segment) (segment.header.getD 1 0#8) (segment.text.getD 0 0#8) :: g.rest

structure Carries (g : ShortGroup) (segment : LabelSegment) : Prop where
  start : getApplType g.ci = 2
  typed : ∀ f ∈ g.rest, f.Typed
  continues : ∀ f ∈ g.rest, f.Continues
  text : segment.text.tail <+: g.rest.flatMap ShortField.data

end ShortGroup

namespace PadHandler
variable {s : PadHandler} {parts : List (ShortGroup × LabelSegment)} {first : Bool}

def shortFields (parts : List (ShortGroup × LabelSegment)) : List ShortField := parts.flatMap (fun x => x.1.fields x.2)

def textOf (parts : List (ShortGroup × LabelSegment)) : List U8 := (parts.map (fun x => x.2.text)).flatten

def AllCollected : Bool → List (ShortGroup × LabelSegment) → Prop
  | _, [] => True
  | first, x :: rest => Collected first rest.isEmpty (ShortGroup.flags x.2) (x.2.text.length - 1) x.1.rest ∧ AllCollected false rest

structure Fits (first : Bool) (g : ShortGroup) (segment : LabelSegment) : Prop where
  carries : g.Carries segment
  some : segment.text ≠ []
  length : (ShortGroup.flags segment).toNat &&& 0x0F = segment.text.length - 1
  first : (ShortGroup.flags segment).toNat &&& 0x40 ≠ 0 ↔ first = true

def AllFit : Bool → List (ShortGroup × LabelSegment) → Prop
  | _, [] => True
  | first, x :: rest => Fits first x.1 x.2 ∧ AllFit false rest

theorem groupOutcome {g : ShortGroup} {segment : LabelSegment} (fits : Fits first g segment) (firstFlag last : Bool)
    (cleared : firstFlag = true ↔ first = true ∨ s.mDynamicLabelTextUnConverted = []) :
    Outcome (last = true) (Collected firstFlag last (ShortGroup.flags segment) (segment.text.length - 1) g.rest)
      ((if first = true then [] else s.mDynamicLabelTextUnConverted) ++ segment.text)
      (texts (s.shortRun (g.fields segment)).2) (s.shortRun (g.fields segment)).1.mDynamicLabelTextUnConverted := by
  obtain ⟨carries,some,length,bit⟩ := fits
  have tail : segment.text.tail.length = segment.text.length - 1 := length_tail
  rw [← tail] at length ⊢
  obtain ⟨opened,silent⟩ := startOpens s g.ci (segment.header.getD 1 0#8) (segment.text.getD 0 0#8) length
  have kept : (if (ShortGroup.flags segment).toNat &&& 0x40 ≠ 0 then [] else s.mDynamicLabelTextUnConverted) =
      if first = true then [] else s.mDynamicLabelTextUnConverted := if_congr bit rfl rfl
  rw [kept] at opened
  have whole : [segment.text.getD 0 0#8] ++ segment.text.tail = segment.text := by
    cases h : segment.text with
    | nil => exact absurd h some
    | cons c rest => rfl
  have empty : firstFlag = true ↔ (if first = true then [] else s.mDynamicLabelTextUnConverted) = [] := by
    rw [cleared]
    by_cases here : first = true
    · rw [if_pos here]
      exact iff_of_true (.inl here) rfl
    · rw [if_neg here]
      exact or_iff_right here
  have joined : (if first = true then [] else s.mDynamicLabelTextUnConverted) ++ [segment.text.getD 0 0#8] ++ segment.text.tail =
      (if first = true then [] else s.mDynamicLabelTextUnConverted) ++ segment.text := by
    rw [append_assoc,whole]
  have outcome := openOutcome g.rest firstFlag last opened joined empty carries.continues carries.text
  unfold ShortGroup.fields
  rw [shortRun,textsAppend,silent,nil_append]
  exact outcome

theorem partsBound (fit : AllFit first parts) : sizes (texts (s.shortRun (shortFields parts)).2) ≤
      (if first = true then [] else s.mDynamicLabelTextUnConverted).length + (textOf parts).length := by
  induction parts generalizing s first with
  | nil => exact Nat.zero_le _
  | cons x parts ih =>
    obtain ⟨here,later⟩ := fit
    have outcome := groupOutcome (s := s) here (decide (first = true ∨ s.mDynamicLabelTextUnConverted = [])) true decide_eq_true_iff
    have bound := outcome.bound
    have rest := ih (s := (s.shortRun (x.1.fields x.2)).1) later
    have total : (textOf (x :: parts)).length = x.2.text.length + (textOf parts).length := length_append
    have size : ∀ a b : List (List U8), sizes (a ++ b) = sizes a + sizes b := by
      intro a b
      unfold sizes
      rw [map_append,sum_append]
    have split : shortFields (x :: parts) = x.1.fields x.2 ++ shortFields parts := flatMap_cons
    rw [length_append] at bound
    rw [if_neg Bool.false_ne_true] at rest
    rw [split,shortRunAppend,textsAppend,size,total]
    omega

theorem textPositive (some : parts ≠ []) (fit : AllFit first parts) : 0 < (textOf parts).length := by
  cases parts with
  | nil => exact absurd rfl some
  | cons x parts =>
    have length : (textOf (x :: parts)).length = x.2.text.length + (textOf parts).length := length_append
    have positive := length_pos_of_ne_nil fit.1.some
    omega

theorem labelCollected (some : parts ≠ []) (fit : AllFit first parts) (begun : first = false → s.mDynamicLabelTextUnConverted ≠ []) :
    texts (s.shortRun (shortFields parts)).2 = [(if first = true then [] else s.mDynamicLabelTextUnConverted) ++ textOf parts] ↔
      AllCollected first parts := by
  induction parts generalizing s first with
  | nil => exact absurd rfl some
  | cons x parts ih =>
    obtain ⟨here,later⟩ := fit
    have cleared : first = true ↔ first = true ∨ s.mDynamicLabelTextUnConverted = [] := by
      refine ⟨.inl,fun either => either.elim id fun empty => ?_⟩
      by_contra other
      exact begun (Bool.eq_false_iff.mpr other) empty
    have outcome := groupOutcome here first parts.isEmpty cleared
    have bound := outcome.bound
    have split : shortFields (x :: parts) = x.1.fields x.2 ++ shortFields parts := flatMap_cons
    have text : textOf (x :: parts) = x.2.text ++ textOf parts := rfl
    have nonempty : (if first = true then [] else s.mDynamicLabelTextUnConverted) ++ x.2.text ≠ [] :=
      append_ne_nil_of_right_ne_nil _ here.some
    rw [split,shortRunAppend,textsAppend,text,← append_assoc,AllCollected]
    generalize (if first = true then [] else s.mDynamicLabelTextUnConverted) ++ x.2.text = full at outcome bound nonempty ⊢
    by_cases last : parts = []
    · subst last
      have ending := outcome.ending rfl
      show texts _ ++ texts [] = [full ++ []] ↔ _ ∧ True
      rw [append_nil,and_true,ending,show texts [] = [] from rfl,append_nil]
    · have middle := outcome.middle (by simpa using last)
      have short := outcome.short
      have rest := partsBound (s := (s.shortRun (x.1.fields x.2)).1) later
      have next := ih (s := (s.shortRun (x.1.fields x.2)).1) last later
      have more : 0 < (textOf parts).length := textPositive last later
      generalize (s.shortRun (x.1.fields x.2)).1 = u at middle short bound rest next ⊢
      generalize texts (s.shortRun (x.1.fields x.2)).2 = shown at middle short bound ⊢
      have single : ∀ y : List U8, sizes [y] = y.length := fun y => Nat.add_zero _
      rw [middle]
      constructor
      · intro all
        have none : shown = [] := by
          cases shown with
          | nil => rfl
          | cons y ys =>
            obtain rfl := head_eq_of_cons_eq all
            have size : sizes ((full ++ textOf parts) :: ys) = (full.length + (textOf parts).length) + sizes ys := by
              unfold sizes
              rw [map_cons,sum_cons,length_append]
            omega
        rw [none,nil_append] at all
        have whole : u.mDynamicLabelTextUnConverted = full := by
          rcases short none with same | less
          · exact same
          · rw [all,single,length_append,if_neg Bool.false_ne_true] at rest
            omega
        refine ⟨⟨none,whole⟩,(next (fun _ => whole ▸ nonempty)).mp ?_⟩
        rw [if_neg Bool.false_ne_true,whole]
        exact all
      · rintro ⟨⟨none,whole⟩,others⟩
        have all := (next (fun _ => whole ▸ nonempty)).mpr others
        rw [if_neg Bool.false_ne_true,whole] at all
        rw [none,nil_append]
        exact all

theorem headerFlags {segment : LabelSegment} (header : segment.header.length = 2) :
    ((ShortGroup.flags segment).toNat &&& 0x40 ≠ 0 ↔ (segment.word >>> 14) &&& 1 ≠ 0) ∧
      (ShortGroup.flags segment).toNat &&& 0x0F = (segment.word >>> 8) &&& 0x0F := by
  obtain ⟨a,b,pair⟩ := length_eq_two.mp header
  have high : segment.word >>> 8 = a.toNat := by
    unfold LabelSegment.word be16
    rw [pair]
    show ((a.toNat <<< 8) ||| b.toNat) >>> 8 = a.toNat
    rw [Nat.shiftRight_or_distrib,Nat.shiftLeft_shiftRight,Nat.shiftRight_eq_div_pow,Nat.div_eq_of_lt b.isLt,Nat.or_zero]
  have flags : ShortGroup.flags segment = a := by
    unfold ShortGroup.flags
    rw [pair]
    rfl
  have bit : ∀ a : U8, a.toNat &&& 0x40 ≠ 0 ↔ (a.toNat >>> 6) &&& 1 ≠ 0 := by decide
  rw [show (14 : Nat) = 8 + 6 from rfl,Nat.shiftRight_add,high,flags]
  exact ⟨bit a,rfl⟩

theorem allFit (first : Bool) (fits : ∀ (k : Nat) (x : ShortGroup × LabelSegment), parts[k]? = some x → Fits (first && decide (k = 0)) x.1 x.2) :
    AllFit first parts := by
  induction parts generalizing first with
  | nil => trivial
  | cons x parts ih =>
    refine ⟨?_,ih false fun k y found => ?_⟩
    · have here := fits 0 x rfl
      rwa [decide_eq_true rfl,Bool.and_true] at here
    · have there := fits (k + 1) y found
      rwa [decide_eq_false (Nat.succ_ne_zero k),Bool.and_false] at there

theorem labelFits {L : DynamicLabel} {groups : List ShortGroup} (cut : List.Forall₂ ShortGroup.Carries groups L.segments) :
    AllFit true (groups.zip L.segments) := by
  refine allFit true fun k x found => ?_
  obtain ⟨left,right⟩ := List.getElem?_zip_eq_some.mp found
  obtain ⟨leftInside,leftHere⟩ := List.getElem?_eq_some_iff.mp left
  obtain ⟨inside,rightHere⟩ := List.getElem?_eq_some_iff.mp right
  have carries := (List.forall₂_iff_get.mp cut).2 k leftInside inside
  rw [get_eq_getElem,get_eq_getElem,leftHere,rightHere] at carries
  have numbered := L.numbered k inside
  rw [getD_eq_getElem _ _ inside,rightHere] at numbered
  obtain ⟨bit,length⟩ := headerFlags numbered.header
  have some := numbered.text
  have total := numbered.length
  refine ⟨carries,fun empty => ?_,?_,?_⟩
  · rw [empty] at some
    exact absurd some (by decide)
  · rw [length]
    omega
  · rw [bit,numbered.first,Bool.true_and,decide_eq_true_iff]

theorem partsText {L : DynamicLabel} {groups : List ShortGroup} (cut : List.Forall₂ ShortGroup.Carries groups L.segments) :
    textOf (groups.zip L.segments) = L.text := by
  have second : (groups.zip L.segments).map Prod.snd = L.segments := map_snd_zip cut.length_eq.ge
  unfold textOf DynamicLabel.text
  conv_rhs => rw [← second,map_map]
  rfl

theorem fieldsTyped (fit : AllFit first parts) : ∀ f ∈ shortFields parts, f.Typed := by
  induction parts generalizing first with
  | nil => exact fun f none => nomatch none
  | cons x parts ih =>
    obtain ⟨here,later⟩ := fit
    have split : shortFields (x :: parts) = x.1.fields x.2 ++ shortFields parts := flatMap_cons
    rw [split]
    refine forall_mem_append.mpr ⟨?_,ih later⟩
    exact forall_mem_cons.mpr ⟨here.carries.start,here.carries.typed⟩

theorem fitMember (fit : AllFit first parts) : ∀ x ∈ parts, x.2.text ≠ [] := by
  induction parts generalizing first with
  | nil => exact fun x none => nomatch none
  | cons x parts ih => exact forall_mem_cons.mpr ⟨fit.1.some,ih fit.2⟩

theorem fitFront {more : List (ShortGroup × LabelSegment)} (fit : AllFit first (parts ++ more)) : AllFit first parts := by
  induction parts generalizing first with
  | nil => trivial
  | cons x parts ih => exact ⟨fit.1,ih fit.2⟩

theorem shortLabelShown (L : DynamicLabel) (groups : List ShortGroup) (cut : List.Forall₂ ShortGroup.Carries groups L.segments)
    (sent : List (PadCall × ShortField)) (carried : ∀ f ∈ sent, f.1.CarriesShort f.2)
    (fields : sent.map Prod.snd = shortFields (groups.zip L.segments)) (s : PadHandler) :
    (texts (s.receive ((sent.map Prod.fst).take (shortFields (groups.zip L.segments).dropLast).length)).2 = [] ∧
      texts (s.receive (sent.map Prod.fst)).2 = [L.text]) ↔ AllCollected true (groups.zip L.segments) := by
  have fit := labelFits cut
  have text := partsText cut
  have some : groups.zip L.segments ≠ [] := by
    have length : (groups.zip L.segments).length = min groups.length L.segments.length := length_zip
    have count := L.some
    rw [cut.length_eq,Nat.min_self] at length
    exact ne_nil_of_length_pos (by omega)
  have typed : ∀ f ∈ sent, f.1.CarriesShort f.2 ∧ f.2.Typed :=
    fun f member => ⟨carried f member,fieldsTyped fit f.2 (fields ▸ mem_map_of_mem member)⟩
  have split : shortFields (groups.zip L.segments) = shortFields (groups.zip L.segments).dropLast ++ shortFields [(groups.zip L.segments).getLast some] := by
    conv_lhs => rw [← dropLast_append_getLast some]
    exact flatMap_append
  have early : s.receive ((sent.map Prod.fst).take (shortFields (groups.zip L.segments).dropLast).length) =
      s.shortRun (shortFields (groups.zip L.segments).dropLast) := by
    rw [← map_take,shortReceive (fun f member => typed f (mem_of_mem_take member)),map_take,fields,split,take_left]
  have all := labelCollected (s := s) some fit (fun other => nomatch other)
  rw [if_pos rfl,nil_append,text] at all
  rw [early,shortReceive typed,fields,← all]
  refine ⟨And.right,fun shown => ⟨?_,shown⟩⟩
  have front : AllFit true (groups.zip L.segments).dropLast := fitFront (by rw [dropLast_append_getLast some]; exact fit)
  have bound := partsBound (s := s) front
  rw [if_pos rfl,length_nil,Nat.zero_add] at bound
  have less : (textOf (groups.zip L.segments).dropLast).length < L.text.length := by
    have last : textOf (groups.zip L.segments) = textOf (groups.zip L.segments).dropLast ++ ((groups.zip L.segments).getLast some).2.text := by
      conv_lhs => rw [← dropLast_append_getLast some]
      unfold textOf
      rw [map_append,flatten_append,map_singleton,flatten_singleton]
    have member := getLast_mem some
    have positive := length_pos_of_ne_nil (fitMember fit _ member)
    rw [← text,last,length_append]
    omega
  rw [split,shortRunAppend,textsAppend] at shown
  cases h : texts (s.shortRun (shortFields (groups.zip L.segments).dropLast)).2 with
  | nil => rfl
  | cons y ys =>
    rw [h] at shown bound
    obtain rfl := head_eq_of_cons_eq shown
    have size : sizes (L.text :: ys) = L.text.length + sizes ys := by
      unfold sizes
      rw [map_cons,sum_cons]
    omega

def twoSegments : DynamicLabel where
  charSet := 15
  segments := [⟨[0x41#8,0xF0#8],[0x41#8,0x42#8],[0x12#8,0x34#8]⟩,⟨[0x21#8,0x10#8],[0x43#8,0x44#8],[0x12#8,0x34#8]⟩]
  some := by decide
  few := by decide
  numbered := by
    intro k inside
    obtain rfl | rfl : k = 0 ∨ k = 1 := by
      have : k < 2 := inside
      omega
    · exact ⟨rfl,rfl,by decide,by decide,by decide,by decide,by decide,fun _ => by decide,fun other => absurd rfl other⟩
    · exact ⟨rfl,rfl,by decide,by decide,by decide,by decide,by decide,fun zero => absurd zero (by decide),fun _ => by decide⟩

def twoSegmentsSent : List (PadCall × ShortField) :=
  [(⟨[0x41#8,0xF0#8,0x41#8,0x02#8],3,0x10#8,0x02#8⟩, .start 0x02#8 0x41#8 0xF0#8 0x41#8),
    (⟨[0x00#8,0x34#8,0x12#8,0x42#8],3,0x10#8,0x00#8⟩, .plain 0x42#8 0x12#8 0x34#8 0x00#8),
    (⟨[0x43#8,0x10#8,0x21#8,0x02#8],3,0x10#8,0x02#8⟩, .start 0x02#8 0x21#8 0x10#8 0x43#8),
    (⟨[0x00#8,0x34#8,0x12#8,0x44#8],3,0x10#8,0x00#8⟩, .plain 0x44#8 0x12#8 0x34#8 0x00#8)]

theorem carriedShort {sent : List (PadCall × ShortField)} (all : ∀ f ∈ sent,
    ((f.1.l1.toNat >>> 6) &&& 0x3 = 0 ∧ (f.1.l1.toNat >>> 4) &&& 0x3 = 1) ∧ decide (f.1.l0.toNat &&& 0x2 ≠ 0) = f.2.hasIndicator ∧
      (f.1.last < f.1.buffer.length ∧ 3 ≤ f.1.last) ∧ collect f.1.buffer f.1.last 4 = f.2.bytes) : ∀ f ∈ sent, f.1.CarriesShort f.2 :=
  fun f member => ⟨(all f member).1,(all f member).2.1,(all f member).2.2.1,(all f member).2.2.2⟩

theorem twoSegmentsShown : texts (receive {} (twoSegmentsSent.map Prod.fst)).2 = [[0x41#8,0x42#8,0x43#8,0x44#8]] := by
  have shown := shortLabelShown twoSegments [⟨0x02#8,[.plain 0x42#8 0x12#8 0x34#8 0x00#8]⟩,⟨0x02#8,[.plain 0x44#8 0x12#8 0x34#8 0x00#8]⟩]
    (.cons ⟨by decide,by decide,by decide,by decide⟩ (.cons ⟨by decide,by decide,by decide,by decide⟩ .nil))
    twoSegmentsSent (carriedShort (by decide)) rfl {}
  exact (shown.mpr ⟨⟨by decide,by decide⟩,(by decide : Shows 0x21#8),trivial⟩).2

theorem singleSegmentHidden : ∃ (L : DynamicLabel) (groups : List ShortGroup) (sent : List (PadCall × ShortField)),
    List.Forall₂ ShortGroup.Carries groups L.segments ∧ (∀ f ∈ sent, f.1.CarriesShort f.2) ∧
      sent.map Prod.snd = shortFields (groups.zip L.segments) ∧ texts (receive {} (sent.map Prod.fst)).2 ≠ [L.text] := by
  refine ⟨greeting,[⟨0x02#8,[.plain 0x42#8 0x43#8 0x12#8 0x34#8]⟩],
    [(⟨[0x41#8,0xF0#8,0x62#8,0x02#8],3,0x10#8,0x02#8⟩, .start 0x02#8 0x62#8 0xF0#8 0x41#8),
      (⟨[0x34#8,0x12#8,0x43#8,0x42#8],3,0x10#8,0x00#8⟩, .plain 0x42#8 0x43#8 0x12#8 0x34#8)],
    .cons ⟨by decide,by decide,by decide,by decide⟩ .nil,carriedShort (by decide),rfl,by decide⟩

end PadHandler
end DabStar
