import DabStar.PadGroups
import DabStar.MotBounds

/-! Which bytes process_PAD reads. A call stays inside if and only if the buffer has the field
that the indicators or the state ask for, and each data group that the call completes has the
fields that its own flags announce. -/
namespace DabStar
open Lib.Accesses List
open Mp4Processor (byteOf checkCrcBytes)

inductive PadMemory where
  | buffer
  | group
  deriving DecidableEq, Repr

abbrev PadAccess := Access PadMemory

namespace PadHandler
variable {s : PadHandler} {data : List U8}

section DataGroups
variable (length : Nat) (data : List U8)

def groupAccesses : List PadAccess :=
  let size := min data.length length
  let header := (data.getD 0 0#8).toNat
  let groupType := header &&& 0x0F
  let segmentFlag := header &&& 0x20 ≠ 0
  let userAccessFlag := header &&& 0x10 ≠ 0
  if size < 2 then []
  else
    [Access.touch PadMemory.group 0 length] ++ (if header &&& 0x40 ≠ 0 then stretch PadMemory.group length 0 size else []) ++
    if header &&& 0x40 ≠ 0 ∧ ¬ checkCrcBytes data (size - 2) then []
    else if groupType ≠ 3 ∧ groupType ≠ 4 then []
    else
      let index : Nat := if header &&& 0x80 ≠ 0 then 4 else 2
      (if segmentFlag then stretch PadMemory.group length index 2 else []) ++
      let index : Nat := index + if segmentFlag then 2 else 0
      let access := (data.getD index 0#8).toNat
      let transportIdFlag := userAccessFlag ∧ access &&& 0x10 ≠ 0
      (if userAccessFlag then [Access.touch PadMemory.group index length] else []) ++
      (if transportIdFlag then stretch PadMemory.group length (index + 1 : Nat) 2 else []) ++
      let index : Nat := index + if userAccessFlag then 1 + (access &&& 0x0F) else 0
      if ¬ transportIdFlag then []
      else
        let segmentSize := (((data.getD index 0#8).toNat &&& 0x1F) <<< 8) ||| (data.getD (index + 1) 0#8).toNat
        stretch PadMemory.group length index 2 ++ stretch PadMemory.group length (index + 2 : Nat) segmentSize ++
          if groupType = 3 then
            (MotObject.headerReads (data.drop (index + 2))).map (fun i : Nat => Access.touch PadMemory.group (index + 2 + i : Nat) length)
          else []

def GroupWithin : Prop :=
  let size := min data.length length
  let header := (data.getD 0 0#8).toNat
  let groupType := header &&& 0x0F
  let segmentFlag := header &&& 0x20 ≠ 0
  let userAccessFlag := header &&& 0x10 ≠ 0
  let segmentField := if header &&& 0x80 ≠ 0 then 4 else 2
  let userField := segmentField + if segmentFlag then 2 else 0
  let access := (data.getD userField 0#8).toNat
  let segment := userField + 1 + (access &&& 0x0F) + 2
  let segmentSize := (((data.getD (segment - 2) 0#8).toNat &&& 0x1F) <<< 8) ||| (data.getD (segment - 1) 0#8).toNat
  2 ≤ size ∧ (header &&& 0x40 ≠ 0 → checkCrcBytes data (size - 2)) ∧ (groupType = 3 ∨ groupType = 4) →
    (segmentFlag → segmentField + 2 ≤ length) ∧ (userAccessFlag → userField + 1 ≤ length) ∧
    (userAccessFlag ∧ access &&& 0x10 ≠ 0 → segment + segmentSize ≤ length ∧
      (groupType = 3 → segment + 7 ≤ length ∧
        ∀ pointer ∈ MotObject.parameters (data.drop segment), segment + MotObject.parameterEnd (data.drop segment) pointer ≤ length))
  deriving Decidable

theorem headerWithin {start : Nat} :
    Inside ((MotObject.headerReads (data.drop start)).map (fun i : Nat => Access.touch PadMemory.group (start + i : Nat) length)) ↔
      start + 7 ≤ length ∧
        ∀ pointer ∈ MotObject.parameters (data.drop start), start + MotObject.parameterEnd (data.drop start) pointer ≤ length := by
  have below := @MotObject.headerBelow (data.drop start) (length - start)
  unfold Inside
  rw [forall_mem_map]
  constructor
  · intro all
    obtain ⟨core,rest⟩ := below.mp fun i member => by have := (all i member).2; omega
    refine ⟨by omega,fun pointer member => ?_⟩
    have fits := rest pointer member
    omega
  · rintro ⟨core,rest⟩ i member
    have inside := below.mpr ⟨by omega,fun pointer member => by have := rest pointer member; omega⟩ i member
    exact ⟨by omega,by omega⟩

theorem groupInside : Inside (groupAccesses length data) ↔ GroupWithin length data := by
  unfold groupAccesses GroupWithin
  extract_lets size header groupType segmentFlag userAccessFlag segmentField userField access transportIdFlag next nextSize segment segmentSize
  by_cases short : size < 2
  · rw [if_pos short]
    exact iff_of_true (insideNil.mpr trivial) (fun all => absurd all.1 (by omega))
  have inLength : size ≤ length := Nat.min_le_right _ _
  have first : Inside [Access.touch PadMemory.group 0 length] := insideCons.mpr ⟨⟨le_rfl,by omega⟩,insideNil.mpr trivial⟩
  have checked : Inside (if header &&& 0x40 ≠ 0 then stretch PadMemory.group length 0 size else []) :=
    insideWhen.mpr fun _ => stretchInside.mpr (.inr ⟨le_rfl,by omega⟩)
  rw [if_neg short,insideAppend,insideAppend,and_iff_right ⟨first,checked⟩]
  by_cases wrong : header &&& 0x40 ≠ 0 ∧ ¬ checkCrcBytes data (size - 2) = true
  · rw [if_pos wrong]
    exact iff_of_true (insideNil.mpr trivial) (fun all => absurd (all.2.1 wrong.1) wrong.2)
  rw [if_neg wrong]
  by_cases unknown : groupType ≠ 3 ∧ groupType ≠ 4
  · rw [if_pos unknown]
    exact iff_of_true (insideNil.mpr trivial) (fun all => absurd all.2.2 (by omega))
  have parsed : 2 ≤ size ∧ (header &&& 0x40 ≠ 0 → checkCrcBytes data (size - 2) = true) ∧ (groupType = 3 ∨ groupType = 4) :=
    ⟨by omega,fun flag => by_contra fun bad => wrong ⟨flag,bad⟩,by omega⟩
  rw [if_neg unknown,imp_iff_right parsed,insideAppend,insideAppend,insideAppend,insideWhen,insideWhen,insideWhen]
  refine and_congr (imp_congr_right fun _ => by rw [stretchInside]; omega) ?_
  have user : Inside [Access.touch PadMemory.group userField length] ↔ userField + 1 ≤ length := by
    rw [insideCons,touchInside]
    simp only [insideNil,and_true]
    omega
  rw [user]
  by_cases named : transportIdFlag
  swap
  · rw [if_pos named]
    constructor
    · exact fun all => ⟨all.1.1,fun wanted => absurd wanted named⟩
    · exact fun all => ⟨⟨all.1,fun wanted => absurd wanted named⟩,insideNil.mpr trivial⟩
  have behind : next = userField + 1 + (access &&& 0x0F) := by
    show userField + (if userAccessFlag then _ else 0) = _
    rw [if_pos named.1,← Nat.add_assoc]
  have begins : next + 2 = segment := congrArg (· + 2) behind
  have sizes : nextSize = segmentSize := by
    show _ = (((data.getD (segment - 2) 0#8).toNat &&& 0x1F) <<< 8) ||| (data.getD (segment - 1) 0#8).toNat
    rw [← begins]
    rfl
  rw [if_neg (not_not_intro named),begins,sizes,insideAppend,insideAppend,insideWhen,headerWithin,imp_iff_right named.1,
    imp_iff_right named,imp_iff_right named,stretchInside,stretchInside,stretchInside]
  constructor
  · rintro ⟨⟨field,id⟩,⟨sizeField,handed⟩,object⟩
    exact ⟨field,by omega,object⟩
  · rintro ⟨field,handed,object⟩
    exact ⟨⟨field,by omega⟩,⟨by omega,by omega⟩,object⟩

end DataGroups

section Elements
variable (s : PadHandler) (data : List U8)

def newMscAccesses : List PadAccess := if data.length ≥ s.mDataGroupLength % 65536 then groupAccesses s.mDataGroupLength data else []

def addMscAccesses : List PadAccess :=
  if s.mMscDataGroupBuffer = [] then []
  else if (s.mMscDataGroupBuffer ++ data).length ≥ s.mDataGroupLength then groupAccesses s.mDataGroupLength (s.mMscDataGroupBuffer ++ data)
  else []

def eventAccesses : PadEvent → List PadAccess
  | .subfield appType data =>
    match appType with
    | 12 => s.newMscAccesses data
    | 13 => s.addMscAccesses data
    | _ => []
  | .plain data =>
    match s.mLastAppType with
    | 12 | 13 => if s.mMscGroupElement then s.addMscAccesses data else []
    | _ => []

end Elements

def GroupsWithin : GroupState → List PadEvent → Prop
  | _, [] => True
  | g, e :: rest => (∀ data ∈ g.completes e, GroupWithin g.length data) ∧ GroupsWithin (g.next e) rest

instance decideGroups : ∀ (g : GroupState) (events : List PadEvent), Decidable (GroupsWithin g events)
  | _, [] => .isTrue trivial
  | g, e :: rest => @instDecidableAnd _ _ inferInstance (decideGroups (g.next e) rest)

section Buffers
variable (buffer : List U8) (size : Nat)

def indicatorAccesses : Nat → Int → List PadAccess
  | 0, _ => []
  | count + 1, base =>
    Access.touch PadMemory.buffer base size :: if getApplType (byteOf buffer base) = 0 then [] else indicatorAccesses count (base - 1)

def contentsAccesses : List U8 → Int → PadHandler → List PadAccess
  | [], _, _ => []
  | ci :: rest, base, s =>
    let data := collect buffer base (getLength ci)
    descent PadMemory.buffer size base (getLength ci) ++ s.eventAccesses (.subfield (getApplType ci) data) ++
    let base := base - getLength ci
    if base < -1 then [] else contentsAccesses rest base (s.handleContent (getApplType ci) data).1

def variableAccesses (s : PadHandler) (last : Int) (ciFlag : Bool) : List PadAccess :=
  if !ciFlag then
    if s.mXPadLength > 0 then
      if last < s.mXPadLength - 1 then []
      else
        descent PadMemory.buffer size last s.mXPadLength.toNat ++ s.eventAccesses (.plain (collect buffer last s.mXPadLength.toNat))
    else []
  else
    let (table, base) := readIndicators buffer 4 last
    indicatorAccesses buffer size 4 last ++ contentsAccesses buffer size table base { s with mXPadLength := xPadLengthOf table }

def shortAccesses (s : PadHandler) (last : Int) (ciFlag : Bool) : List PadAccess :=
  if ciFlag then
    let flags := byteOf buffer (last - 1)
    [Access.touch PadMemory.buffer last size,Access.touch PadMemory.buffer (last - 1) size,Access.touch PadMemory.buffer (last - 2) size] ++
    match getApplType (byteOf buffer last) with
    | 2 =>
      (if flags.toNat &&& 0x40 ≠ 0 ∧ flags.toNat &&& 0x20 = 0 then [Access.touch PadMemory.buffer (last - 2) size] else []) ++
        [Access.touch PadMemory.buffer (last - 1) size,Access.touch PadMemory.buffer (last - 3) size]
    | 3 => descent PadMemory.buffer size (last - 1) (min 3 s.mStillToGo)
    | _ => []
  else descent PadMemory.buffer size last (min 4 s.mStillToGo)

end Buffers

def padAccesses (s : PadHandler) (call : PadCall) : List PadAccess :=
  if (call.l1.toNat >>> 6) &&& 0x3 ≠ 0 then []
  else
    let ciFlag := decide (call.l0.toNat &&& 0x2 ≠ 0)
    let size := (call.last + 1).toNat
    match (call.l1.toNat >>> 4) &&& 0x3 with
    | 1 => shortAccesses call.buffer size s call.last ciFlag
    | 2 => variableAccesses call.buffer size s call.last ciFlag
    | _ => []

def shortLength (s : PadHandler) (call : PadCall) : Nat :=
  if call.l0.toNat &&& 0x2 ≠ 0 then
    match getApplType (byteOf call.buffer call.last) with
    | 2 => 4
    | 3 => if 3 ≤ s.mStillToGo then 4 else 3
    | _ => 3
  else min 4 s.mStillToGo

def cutEvents (buffer : List U8) : List U8 → Int → List PadEvent
  | [], _ => []
  | ci :: rest, base => .subfield (getApplType ci) (collect buffer base (getLength ci)) :: cutEvents buffer rest (base - getLength ci)

def PadFits (s : PadHandler) (call : PadCall) : Prop :=
  let table := (readIndicators call.buffer 4 call.last).1
  let base := (readIndicators call.buffer 4 call.last).2
  (call.l1.toNat >>> 6) &&& 0x3 = 0 →
    ((call.l1.toNat >>> 4) &&& 0x3 = 1 → shortLength s call ≤ call.last + 1) ∧
    ((call.l1.toNat >>> 4) &&& 0x3 = 2 →
      if call.l0.toNat &&& 0x2 ≠ 0 then xPadLengthOf table ≤ call.last + 1 ∧ GroupsWithin (groupState s) (cutEvents call.buffer table base)
      else 0 < s.mXPadLength ∧ s.mXPadLength ≤ call.last + 1 →
        GroupsWithin (groupState s) [.plain (collect call.buffer call.last s.mXPadLength.toNat)])
  deriving Decidable

theorem wholeWithin {c : Prop} [Decidable c] {length : Nat} {whole : List U8} :
    Inside (if c then groupAccesses length whole else []) ↔ ∀ data ∈ (if c then some whole else none), GroupWithin length data := by
  by_cases complete : c
  · rw [if_pos complete,if_pos complete,groupInside]
    exact ⟨fun within data same => Option.some.inj same ▸ within,fun all => all whole rfl⟩
  · rw [if_neg complete,if_neg complete]
    exact iff_of_true (insideNil.mpr trivial) (fun data none => nomatch none)

theorem noneWithin {length : Nat} : Inside ([] : List PadAccess) ↔ ∀ data ∈ (none : Option (List U8)), GroupWithin length data :=
  iff_of_true (insideNil.mpr trivial) (fun _ none => nomatch none)

theorem addInside (s : PadHandler) (data : List U8) :
    Inside (s.addMscAccesses data) ↔ ∀ whole ∈ (groupState s).continued data, GroupWithin s.mDataGroupLength whole := by
  have same : s.addMscAccesses data = if (groupState s).buffer ≠ [] ∧ (groupState s).length ≤ ((groupState s).buffer ++ data).length
      then groupAccesses s.mDataGroupLength (s.mMscDataGroupBuffer ++ data) else [] := by
    unfold addMscAccesses
    by_cases empty : s.mMscDataGroupBuffer = []
    · rw [if_pos empty,if_neg (fun both => both.1 empty)]
    · rw [if_neg empty]
      exact if_congr ⟨fun whole => ⟨empty,whole⟩,And.right⟩ rfl rfl
  rw [same]
  exact wholeWithin

theorem eventInside (s : PadHandler) (e : PadEvent) :
    Inside (s.eventAccesses e) ↔ ∀ data ∈ (groupState s).completes e, GroupWithin s.mDataGroupLength data := by
  cases e with
  | subfield appType data =>
    rw [GroupState.completes]
    unfold eventAccesses
    dsimp only
    split
    · exact wholeWithin
    · exact addInside s data
    · rename_i start continuation
      rw [if_neg start,if_neg continuation]
      exact noneWithin
  | plain data =>
    have step : s.eventAccesses (.plain data) = if (groupState s).Continues then s.addMscAccesses data else [] := by
      unfold eventAccesses
      dsimp only
      split
      · rename_i own
        exact if_congr ⟨fun element => ⟨.inl own,element⟩,And.right⟩ rfl rfl
      · rename_i own
        exact if_congr ⟨fun element => ⟨.inr own,element⟩,And.right⟩ rfl rfl
      · rename_i start continuation
        exact (if_neg fun both => both.1.elim start continuation).symm
    rw [step,GroupState.completes]
    by_cases continues : (groupState s).Continues
    · rw [if_pos continues,if_pos continues]
      exact addInside s data
    · rw [if_neg continues,if_neg continues]
      exact noneWithin

section Calls
variable {buffer : List U8} {size : Nat}

theorem indicatorCount (count : Nat) (base : Int) : (readIndicators buffer count base).1.length ≤ count ∧
    base - (readIndicators buffer count base).2 =
      if (readIndicators buffer count base).1.length = count then (count : Int) else (readIndicators buffer count base).1.length + 1 := by
  induction count generalizing base with
  | zero => exact ⟨le_rfl,sub_self base⟩
  | succ count ih =>
    unfold readIndicators
    by_cases none : getApplType (byteOf buffer base) = 0
    · rw [if_pos none,length_nil,if_neg (by omega)]
      exact ⟨Nat.zero_le _,by omega⟩
    · obtain ⟨few,taken⟩ := ih (base - 1)
      rw [if_neg none]
      dsimp only
      rw [length_cons]
      refine ⟨by omega,?_⟩
      by_cases all : (readIndicators buffer count (base - 1)).1.length = count
      · rw [if_pos all] at taken
        rw [if_pos (by omega)]
        omega
      · rw [if_neg all] at taken
        rw [if_neg (by omega)]
        omega

theorem indicatorsInside {count : Nat} {base : Int} (below : base < size) :
    Inside (indicatorAccesses buffer size count base) ↔ count = 0 ∨ base - (readIndicators buffer count base).2 ≤ base + 1 := by
  induction count generalizing base with
  | zero => exact iff_of_true (insideNil.mpr trivial) (.inl rfl)
  | succ count ih =>
    unfold indicatorAccesses readIndicators
    rw [insideCons,touchInside,or_iff_right (Nat.succ_ne_zero count)]
    by_cases none : getApplType (byteOf buffer base) = 0
    · rw [if_pos none,if_pos none,and_iff_left (insideNil.mpr trivial)]
      dsimp only
      omega
    · obtain ⟨few,taken⟩ := @indicatorCount buffer count (base - 1)
      rw [if_neg none,if_neg none,ih (by omega)]
      dsimp only
      by_cases all : (readIndicators buffer count (base - 1)).1.length = count
      · rw [if_pos all] at taken
        omega
      · rw [if_neg all] at taken
        omega

/- A subfield that reaches over the end of the buffer is read before the index is checked. -/
theorem contentsInside {table : List U8} {base : Int} (low : -1 ≤ base) (high : base < size) :
    Inside (contentsAccesses buffer size table base s) ↔
      ((table.map getLength).sum : Int) ≤ base + 1 ∧ GroupsWithin (groupState s) (cutEvents buffer table base) := by
  induction table generalizing base s with
  | nil =>
    refine iff_of_true (insideNil.mpr trivial) ⟨?_,trivial⟩
    rw [map_nil,sum_nil]
    omega
  | cons ci table ih =>
    have some := getLengthMin ci
    have step := (groupStep s (.subfield (getApplType ci) (collect buffer base (getLength ci)))).1
    unfold contentsAccesses cutEvents
    dsimp only
    rw [insideAppend,insideAppend,descentInside,eventInside,map_cons,sum_cons,GroupsWithin,← step]
    by_cases fits : (getLength ci : Int) ≤ base + 1
    · rw [if_neg (by omega),ih (by omega) (by omega)]
      constructor
      · rintro ⟨⟨-,here⟩,sum,later⟩
        exact ⟨by omega,here,later⟩
      · rintro ⟨sum,here,later⟩
        exact ⟨⟨.inr ⟨fits,high⟩,here⟩,by omega,later⟩
    · exact iff_of_false (fun all => by omega) (fun all => by omega)

theorem shortInside {last : Int} (inside : 0 ≤ last) (ciFlag : Bool) : Inside (shortAccesses buffer (last + 1).toNat s last ciFlag) ↔
      ((if ciFlag = true then (match getApplType (byteOf buffer last) with | 2 => 4 | 3 => if 3 ≤ s.mStillToGo then 4 else 3 | _ => 3)
        else min 4 s.mStillToGo : Nat) : Int) ≤ last + 1 := by
  unfold shortAccesses
  cases ciFlag with
  | false =>
    rw [if_neg Bool.false_ne_true,if_neg Bool.false_ne_true,descentInside]
    omega
  | true =>
    have front : Inside [Access.touch PadMemory.buffer last (last + 1).toNat,Access.touch PadMemory.buffer (last - 1) (last + 1).toNat,
        Access.touch PadMemory.buffer (last - 2) (last + 1).toNat] ↔ 2 ≤ last := by
      simp only [insideCons,touchInside,insideNil,and_true]
      omega
    rw [if_pos rfl,if_pos rfl]
    dsimp only
    rw [insideAppend,front]
    split
    · rw [insideAppend,insideWhen]
      simp only [insideCons,touchInside,insideNil,and_true]
      omega
    · rw [descentInside]
      split <;> omega
    · rw [and_iff_left (insideNil.mpr trivial)]
      omega

theorem variableInside {last : Int} (inside : 0 ≤ last) (ciFlag : Bool) : Inside (variableAccesses buffer (last + 1).toNat s last ciFlag) ↔
      if ciFlag = true then (xPadLengthOf (readIndicators buffer 4 last).1 : Int) ≤ last + 1 ∧
        GroupsWithin (groupState s) (cutEvents buffer (readIndicators buffer 4 last).1 (readIndicators buffer 4 last).2)
      else 0 < s.mXPadLength ∧ s.mXPadLength ≤ last + 1 →
        GroupsWithin (groupState s) [.plain (collect buffer last s.mXPadLength.toNat)] := by
  unfold variableAccesses
  cases ciFlag with
  | false =>
    rw [if_pos (show (!false) = true from rfl),if_neg Bool.false_ne_true]
    by_cases known : s.mXPadLength > 0 ∧ ¬ last < s.mXPadLength - 1
    · have read : Inside (descent PadMemory.buffer (last + 1).toNat last s.mXPadLength.toNat) := descentInside.mpr (.inr (by omega))
      rw [if_pos known.1,if_neg known.2,insideAppend,and_iff_right read,eventInside,imp_iff_right (by omega)]
      exact (and_iff_left trivial).symm
    · refine iff_of_true ?_ (fun fits => absurd fits (by omega))
      by_cases positive : s.mXPadLength > 0
      · rw [if_pos positive,if_pos (by omega)]
        exact insideNil.mpr trivial
      · rw [if_neg positive]
        exact insideNil.mpr trivial
  | true =>
    obtain ⟨few,taken⟩ := @indicatorCount buffer 4 last
    have indicators := @indicatorsInside buffer (last + 1).toNat 4 last (by omega)
    rw [if_neg (show ¬ (!true) = true from Bool.false_ne_true),if_pos rfl]
    dsimp only
    generalize readIndicators buffer 4 last = read at few taken indicators ⊢
    have length : (xPadLengthOf read.1 : Int) = (read.1.map getLength).sum + (last - read.2) := by
      unfold xPadLengthOf
      rw [taken]
      split <;> push_cast <;> omega
    rw [insideAppend,indicators,length,or_iff_right (by decide)]
    by_cases fits : last - read.2 ≤ last + 1
    · have less : read.2 < (last + 1).toNat := by
        have positive : 0 ≤ last - read.2 := by
          rw [taken]
          split <;> omega
        omega
      rw [and_iff_right fits,contentsInside (by omega) less]
      exact and_congr_left' (by omega)
    · exact iff_of_false (fun all => fits all.1) (fun all => fits (by omega))

end Calls

theorem padInside (s : PadHandler) (call : PadCall) (inside : 0 ≤ call.last) : Inside (padAccesses s call) ↔ PadFits s call := by
  unfold padAccesses PadFits
  dsimp only
  by_cases other : (call.l1.toNat >>> 6) &&& 0x3 ≠ 0
  · rw [if_pos other]
    exact iff_of_true (insideNil.mpr trivial) (fun zero => absurd zero other)
  rw [if_neg other,imp_iff_right (not_not.mp other)]
  split
  · rename_i short
    rw [shortInside inside,imp_iff_right short,and_iff_left (fun two => by omega)]
    unfold shortLength
    simp only [decide_eq_true_eq]
  · rename_i variable_
    rw [variableInside inside,imp_iff_right variable_,and_iff_right (fun one => by omega)]
    simp only [decide_eq_true_eq]
  · rename_i one two
    exact iff_of_true (insideNil.mpr trivial) ⟨fun short => absurd short one,fun long => absurd long two⟩

def overlongGroup : PadCall :=
  ⟨[0x00#8,0x00#8,0x08#8,0x01#8,0x00#8,0x12#8,0x00#8,0x14#8,0x55#8,0xB2#8,0x05#8,0x00#8,0x00#8,0x4C#8,0x01#8],14,0x20#8,0x02#8⟩

def exactGroup : PadCall :=
  ⟨[0xAA#8,0x01#8,0x00#8,0x01#8,0x00#8,0x12#8,0x00#8,0x14#8,0xF8#8,0x63#8,0x08#8,0x00#8,0x00#8,0x4C#8,0x01#8],14,0x20#8,0x02#8⟩

theorem exactGroupInside : 0 ≤ exactGroup.last ∧ Inside (padAccesses {} exactGroup) :=
  ⟨by decide,(padInside {} exactGroup (by decide)).mpr (by decide)⟩

example : builds (receive {} [exactGroup]).2 = [[0x14#8,0x00#8,0x12#8,0x00#8,0x01#8,0x00#8,0x01#8,0xAA#8]] := by decide

theorem readBehindBuffer : ¬ Inside (padAccesses {} ⟨[0x02#8],0,0x10#8,0x02#8⟩) ∧ ¬ Inside (padAccesses {} overlongGroup) := by decide

end PadHandler
end DabStar
