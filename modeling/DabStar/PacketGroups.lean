import DabStar.DataProcessor
import DabStar.Lib.Reassembly

/-! The data groups of packet mode under loss. A packet that is refused, for its continuity
index or its CRC, leaves the series that is open as it was, so a later packet is joined to
it. -/
namespace DabStar.DataProcessor
open List
open Fib (Bits getBits getBits2)
open Lib.Reassembly

inductive Transmission where
  | lost (address : Int)
  | received (data : Bits)

def Transmission.address : Transmission → Int
  | lost address => address
  | received data => DataProcessor.address data

def transmit (s : DataProcessor) : Transmission → DataProcessor × List (List Bool)
  | .lost _ => (s, [])
  | .received data => s.handlePacket data

def runPackets (s : DataProcessor) (sent : List Transmission) : DataProcessor := sent.foldl (fun s t => (s.transmit t).1) s

def partOf (data : Bits) : Part :=
  match firstLast data with
  | 0 => .intermediate
  | 1 => .last
  | 2 => .first
  | _ => .single

section Stream
variable (own : Int)

def expectedAfter (expected : Nat) : Transmission → Nat
  | .lost _ => expected
  | .received data =>
    if (address data : Int) ≠ own then expected else if continuityIndex data = expected then (expected + 1) % 4 else 0

def taken (expected : Nat) : Transmission → List (Option (Part × Bits))
  | .lost address => if address = own then [none] else []
  | .received data =>
    if (address data : Int) ≠ own then []
    else if continuityIndex data = expected ∧ crcCorrect data then [some (partOf data, data)] else [none]

def heard (expected : Nat) : List Transmission → List (Option (Part × Bits))
  | [] => []
  | t :: sent => taken own expected t ++ heard (expectedAfter own expected t) sent

structure MadeOf (sent : List Transmission) (packets : List Bits) : Prop where
  taken : packets.map (fun data => some (partOf data, data)) <:+ heard own 0 sent
  run : IsRun (packets.map partOf)
  complete : packets.map .received <:+ sent.filter (fun t => t.address = own)
  correct : ∀ data ∈ packets, crcCorrect data = true
  consecutive : packets.IsChain (fun data next => continuityIndex next = (continuityIndex data + 1) % 4)

end Stream

variable {own : Int} {s : DataProcessor} {t : Transmission} {sent : List Transmission} {expected : Nat}

structure Assembles (own : Int) (expected : Nat) (series : Option (List Bits)) (s : DataProcessor) : Prop where
  address : s.mPacketAddress = own
  index : s.mExpectedIndex = expected
  state : s.mPacketState = if series.isSome then 1 else 0
  bits : ∀ packets, series = some packets → s.mSeriesVec = packets.flatMap useful

theorem partCases (data : Bits) : (firstLast data = 0 ∧ partOf data = .intermediate) ∨ (firstLast data = 1 ∧ partOf data = .last) ∨
    (firstLast data = 2 ∧ partOf data = .first) ∨ (firstLast data = 3 ∧ partOf data = .single) := by
  have small : firstLast data < 4 := Fib.getBitsLt data 4 2
  unfold partOf
  interval_cases firstLast data <;> simp

theorem assembleStep {series : Option (List Bits)} (before : Assembles own expected series s) (data : Bits) :
    Assembles own expected (step series (some (partOf data, data))).1 (s.assemble data).1 ∧
      (s.assemble data).2 = (step series (some (partOf data, data))).2.toList.map (fun packets => packets.flatMap useful) := by
  obtain ⟨address,index,state,bits⟩ := before
  cases series with
  | none =>
    have waiting : s.mPacketState = 0 := state
    rcases partCases data with ⟨field,part⟩ | ⟨field,part⟩ | ⟨field,part⟩ | ⟨field,part⟩ <;>
      simp only [assemble,waiting,field,part,step] <;> refine ⟨⟨?_,?_,?_,?_⟩,?_⟩ <;> simp [address,index]
  | some packets =>
    have within : s.mPacketState = 1 := state
    have collected := bits packets rfl
    rcases partCases data with ⟨field,part⟩ | ⟨field,part⟩ | ⟨field,part⟩ | ⟨field,part⟩ <;>
      simp only [assemble,within,field,part,step] <;> refine ⟨⟨?_,?_,?_,?_⟩,?_⟩ <;> simp [address,index,collected]

inductive Fate (own : Int) (expected : Nat) (s : DataProcessor) (t : Transmission) : Prop where
  | foreign (apart : t.address ≠ own) (none : taken own expected t = []) (index : expectedAfter own expected t = expected)
      (result : s.transmit t = (s, []))
  | refused (first : Bool) (mine : t.address = own) (missing : taken own expected t = [none])
      (result : s.transmit t = ({ s with mFirstPacket := first, mExpectedIndex := expectedAfter own expected t }, []))
  | accepted (data : Bits) (same : t = .received data) (mine : t.address = own) (correct : crcCorrect data = true)
      (index : continuityIndex data = expected ∧ expectedAfter own expected t = (expected + 1) % 4)
      (here : taken own expected t = [some (partOf data, data)])
      (result : s.transmit t = assemble { s with mFirstPacket := false, mExpectedIndex := expectedAfter own expected t } data)

theorem transmitFate (addressed : s.mPacketAddress = own) (indexed : s.mExpectedIndex = expected) (t : Transmission) :
    Fate own expected s t := by
  subst addressed indexed
  cases t with
  | lost address =>
    by_cases mine : address = s.mPacketAddress
    · exact .refused s.mFirstPacket mine (by simp [taken,mine]) rfl
    · exact .foreign mine (by simp [taken,mine]) rfl rfl
  | received data =>
    by_cases mine : (address data : Int) = s.mPacketAddress
    · by_cases next : continuityIndex data = s.mExpectedIndex
      · by_cases correct : crcCorrect data = true
        · exact .accepted data rfl mine correct ⟨next,by simp [expectedAfter,mine,next]⟩ (by simp [taken,mine,next,correct])
            (by simp [transmit,handlePacket,expectedAfter,mine,next,correct])
        · exact .refused false mine (by simp [taken,mine,correct]) (by simp [transmit,handlePacket,expectedAfter,mine,next,correct])
      · exact .refused s.mFirstPacket mine (by simp [taken,mine,next]) (by simp [transmit,handlePacket,expectedAfter,mine,next])
    · have apart : s.mPacketAddress ≠ address data := fun same => mine same.symm
      exact .foreign mine (by simp [taken,mine]) (by simp [expectedAfter,mine]) (by simp [transmit,handlePacket,apart])

theorem takenFate (own : Int) (expected : Nat) (t : Transmission) : ∃ s, Fate own expected s t :=
  ⟨_,@transmitFate own { newDataProcessor 0 0 false own with mExpectedIndex := expected } expected rfl rfl t⟩

theorem transmitStep {stream : List (Option (Part × Bits))} (before : Assembles own expected (seriesAfter stream) s) (t : Transmission) :
    Assembles own (expectedAfter own expected t) (seriesAfter (stream ++ taken own expected t)) (s.transmit t).1 ∧
      (s.transmit t).2 = (taken own expected t).flatMap
        (fun e => (step (seriesAfter stream) e).2.toList.map (fun packets => packets.flatMap useful)) := by
  obtain ⟨address,index,state,bits⟩ := before
  cases transmitFate address index t with
  | foreign _ none next result =>
    rw [none,next,result,append_nil]
    exact ⟨⟨address,index,state,bits⟩,rfl⟩
  | refused first _ missing result =>
    rw [missing,result,seriesSnoc]
    exact ⟨⟨address,rfl,state,bits⟩,rfl⟩
  | accepted data _ _ _ _ here result =>
    rw [here,result,seriesSnoc]
    obtain ⟨assembles,groups⟩ := @assembleStep own { s with mFirstPacket := false, mExpectedIndex := expectedAfter own expected t }
      (expectedAfter own expected t) (seriesAfter stream) ⟨address,rfl,state,bits⟩ data
    exact ⟨assembles,by rw [groups,flatMap_singleton]⟩

theorem heardAppend (own : Int) (expected : Nat) (sent later : List Transmission) :
    heard own expected (sent ++ later) = heard own expected sent ++ heard own (sent.foldl (expectedAfter own) expected) later := by
  induction sent generalizing expected with
  | nil => rfl
  | cons t sent ih => simp [heard,ih]

theorem runAssembles (fresh : Assembles own 0 none s) (sent : List Transmission) :
    Assembles own (sent.foldl (expectedAfter own) 0) (seriesAfter (heard own 0 sent)) (s.runPackets sent) := by
  induction sent using List.reverseRecOn with
  | nil => exact fresh
  | append_singleton sent t ih =>
    have step := (transmitStep ih t).1
    simpa [runPackets,heardAppend,heard] using step

theorem heardSplit {before after : List (Option (Part × Bits))} {e : Option (Part × Bits)}
    (split : heard own expected sent = before ++ e :: after) : ∃ earlier t later, sent = earlier ++ t :: later ∧
      heard own expected earlier = before ∧ taken own (earlier.foldl (expectedAfter own) expected) t = [e] := by
  induction sent generalizing expected before with
  | nil => exact absurd split (by simp [heard])
  | cons t sent ih =>
    have onward : ∀ {before'}, heard own (expectedAfter own expected t) sent = before' ++ e :: after →
        before = taken own expected t ++ before' → ∃ earlier t' later, t :: sent = earlier ++ t' :: later ∧
          heard own expected earlier = before ∧ taken own (earlier.foldl (expectedAfter own) expected) t' = [e] := by
      rintro before' rest rfl
      obtain ⟨earlier,t',later,rfl,here,last⟩ := ih rest
      exact ⟨t :: earlier,t',later,rfl,by rw [heard,here],last⟩
    have single : ∀ {x}, taken own expected t = [x] → ∃ earlier t' later, t :: sent = earlier ++ t' :: later ∧
        heard own expected earlier = before ∧ taken own (earlier.foldl (expectedAfter own) expected) t' = [e] := by
      intro x here
      rw [heard,here] at split
      cases before with
      | nil =>
        obtain ⟨rfl,-⟩ := List.cons.inj split
        exact ⟨[],t,sent,rfl,rfl,here⟩
      | cons y before =>
        obtain ⟨rfl,rest⟩ := List.cons.inj split
        exact onward rest (by rw [here]; rfl)
    obtain ⟨s,fate⟩ := takenFate own expected t
    cases fate with
    | foreign _ none => exact onward (by rw [heard,none] at split; exact split) (by rw [none]; rfl)
    | refused _ _ missing => exact single missing
    | accepted _ _ _ _ _ here => exact single here

theorem heardOwn (own : Int) (expected : Nat) (sent : List Transmission) :
    List.Forall₂ (fun e t => ∀ part data, e = some (part, data) → t = .received data ∧ crcCorrect data = true)
      (heard own expected sent) (sent.filter (fun t => t.address = own)) := by
  induction sent generalizing expected with
  | nil => exact .nil
  | cons t sent ih =>
    unfold heard
    obtain ⟨s,fate⟩ := takenFate own expected t
    cases fate with
    | foreign apart none =>
      rw [none,filter_cons_of_neg (by simpa using apart)]
      exact ih _
    | refused _ mine missing =>
      rw [missing,filter_cons_of_pos (by simpa using mine)]
      exact .cons nofun (ih _)
    | accepted data same mine correct _ here =>
      rw [here,filter_cons_of_pos (by simpa using mine)]
      refine .cons (fun part data' entry => ?_) (ih _)
      obtain ⟨-,rfl⟩ := Prod.mk.inj (Option.some.inj entry)
      exact ⟨same,correct⟩

def Follows (e next : Option (Part × Bits)) : Prop :=
  ∀ part data part' data', e = some (part, data) → next = some (part', data') → continuityIndex data' = (continuityIndex data + 1) % 4

theorem heardFollows (own : Int) (expected : Nat) (sent : List Transmission) : (heard own expected sent).IsChain Follows ∧
      ∀ part data, (heard own expected sent).head? = some (some (part, data)) → continuityIndex data = expected := by
  induction sent generalizing expected with
  | nil => exact ⟨.nil,nofun⟩
  | cons t sent ih =>
    unfold heard
    obtain ⟨chain,begins⟩ := ih (expectedAfter own expected t)
    obtain ⟨s,fate⟩ := takenFate own expected t
    cases fate with
    | foreign apart none index =>
      rw [none,nil_append]
      rw [index] at chain begins ⊢
      exact ⟨chain,begins⟩
    | refused _ mine missing =>
      rw [missing]
      refine ⟨isChain_cons.mpr ⟨fun next _ => nofun,chain⟩,nofun⟩
    | accepted data same mine correct index here =>
      rw [here]
      refine ⟨isChain_cons.mpr ⟨fun next first => ?_,chain⟩,fun part data' head => ?_⟩
      · rintro part data₁ part' data₂ entry rfl
        obtain ⟨-,rfl⟩ := Prod.mk.inj (Option.some.inj entry)
        rw [begins part' data₂ first,index.2,index.1]
      · obtain ⟨-,rfl⟩ := Prod.mk.inj (Option.some.inj (Option.some.inj head))
        exact index.1

theorem sentPackets {packets : List Bits} {last : List Transmission}
    (same : List.Forall₂ (fun data t => t = .received data ∧ crcCorrect data = true) packets last) :
    last = packets.map .received ∧ ∀ data ∈ packets, crcCorrect data = true := by
  induction same with
  | nil => exact ⟨rfl,nofun⟩
  | cons here _ ih =>
    obtain ⟨rfl,correct⟩ := here
    obtain ⟨rfl,others⟩ := ih
    exact ⟨rfl,forall_mem_cons.mpr ⟨correct,others⟩⟩

theorem madeOf {packets : List Bits} (run : IsRun (packets.map partOf))
    (here : packets.map (fun data => some (partOf data, data)) <:+ heard own 0 sent) : MadeOf own sent packets := by
  have follows := (heardFollows own 0 sent).1.suffix here
  rw [isChain_map] at follows
  have matched := heardOwn own 0 sent
  obtain ⟨earlier,whole⟩ := here
  have behind := List.forall₂_drop earlier.length matched
  rw [← whole,drop_left,List.forall₂_map_left_iff] at behind
  obtain ⟨last,correct⟩ := sentPackets (behind.imp fun data t entry => entry (partOf data) data rfl)
  refine ⟨⟨earlier,whole⟩,run,?_,correct,follows.imp fun data next entry => entry _ _ _ _ rfl rfl⟩
  rw [← last]
  exact drop_suffix ..

theorem gaplessMade {stream : List (Option (Part × Bits))} {packets : List Bits} (same : stream = heard own 0 sent)
    (gapless : Gapless stream packets) (parts : ∀ part data, some (part, data) ∈ stream → part = partOf data) :
    MadeOf own sent packets := by
  obtain ⟨pairs,rfl,run,suffix⟩ := gapless
  have own : ∀ p ∈ pairs, p.1 = partOf p.2 := fun p member => parts _ _ (suffix.subset (mem_map_of_mem member))
  have kinds : (pairs.map Prod.snd).map partOf = pairs.map Prod.fst := by
    rw [map_map]
    exact map_congr_left fun p member => (own p member).symm
  have entries : (pairs.map Prod.snd).map (fun data => some (partOf data, data)) = pairs.map some := by
    rw [map_map]
    exact map_congr_left fun p member => congrArg some (Prod.ext (own p member).symm rfl)
  exact madeOf (by rwa [kinds]) (by rwa [entries,← same])

theorem heardParts {part : Part} {data : Bits} (member : some (part, data) ∈ heard own expected sent) : part = partOf data := by
  induction sent generalizing expected with
  | nil => exact nomatch member
  | cons t sent ih =>
    rw [heard,mem_append] at member
    rcases member with here | later
    · obtain ⟨s,fate⟩ := takenFate own expected t
      cases fate with
      | foreign _ none => simp [none] at here
      | refused _ _ missing => simp [missing] at here
      | accepted data' _ _ _ _ only =>
        simp only [only,mem_singleton,Option.some.injEq,Prod.mk.injEq] at here
        rw [here.1,here.2]
    · exact ih later

theorem takenOnly {e : Option (Part × Bits)} (member : e ∈ taken own expected t) : taken own expected t = [e] := by
  obtain ⟨s,fate⟩ := takenFate own expected t
  cases fate with
  | foreign _ none => simp [none] at member
  | refused _ _ missing => simpa [missing,eq_comm] using member
  | accepted data _ _ _ _ only => simpa [only,eq_comm] using member

theorem groupsGapless (bitRate dscTy : Nat) (dgFlag : Bool) (own : Int) (sent : List Transmission) :
    (∀ before t after, sent = before ++ t :: after →
      ∀ group ∈ (((newDataProcessor bitRate dscTy dgFlag own).runPackets before).transmit t).2,
        ∃ packets, MadeOf own (before ++ [t]) packets ∧ group = packets.flatMap useful) ↔ Unbroken (heard own 0 sent) := by
  have fresh : Assembles own 0 none (newDataProcessor bitRate dscTy dgFlag own) := ⟨rfl,rfl,rfl,nofun⟩
  constructor
  · intro made
    refine unbrokenOfGapless fun before e after split handed => ?_
    obtain ⟨earlier,t,later,rfl,rfl,here⟩ := heardSplit split
    obtain ⟨message,handed⟩ := Option.ne_none_iff_exists'.mp handed
    have groups := (transmitStep (runAssembles fresh earlier) t).2
    rw [here,flatMap_singleton,handed] at groups
    obtain ⟨packets,⟨suffix,run,-⟩,-⟩ := made earlier t later rfl (message.flatMap useful) (by simp [groups])
    refine ⟨packets,packets.map (fun data => (partOf data, data)),?_,?_,?_⟩
    · simp [Function.comp_def]
    · simpa [Function.comp_def] using run
    · simpa [heardAppend,heard,here,Function.comp_def] using suffix
  · rintro unbroken before t after rfl group handed
    rw [(transmitStep (runAssembles fresh before) t).2] at handed
    obtain ⟨e,here,handed⟩ := mem_flatMap.mp handed
    obtain ⟨packets,message,rfl⟩ := mem_map.mp handed
    have only := takenOnly here
    have stream : heard own 0 (before ++ [t]) = heard own 0 before ++ [e] := by simp [heardAppend,heard,only]
    have whole : heard own 0 (before ++ t :: after) = heard own 0 before ++ e ::
        heard own (expectedAfter own (before.foldl (expectedAfter own) 0) t) after := by
      simp [heardAppend,heard,only]
    rw [whole] at unbroken
    refine ⟨packets,gaplessMade stream.symm (gaplessOfUnbroken unbroken (Option.mem_toList.mp message)) ?_,rfl⟩
    rw [← stream]
    exact fun part data => heardParts

def packetOf (bytes : List Nat) (crc : Nat) : Bits := fun i =>
  ((bytes ++ replicate (22 - bytes.length) 0 ++ [crc / 256,crc % 256]).getD (i / 8) 0).testBit (7 - i % 8)

def firstPacket : Bits := packetOf [0x08,0x01,0x01,0xAA] 0x10FF
def lastPacket : Bits := packetOf [0x24,0x01,0x01,0xCC] 0xC67E

def damagedPacket : Bits := packetOf [0x10,0x01,0x01,0xBB] 0x1D59

theorem damagedPacketLeftOut : crcCorrect damagedPacket = false ∧
    (((newDataProcessor 8 60 false 1).runPackets [.received firstPacket,.received damagedPacket]).transmit (.received lastPacket)).2 =
      [useful firstPacket ++ useful lastPacket] ∧
    [firstPacket,damagedPacket,lastPacket].map (fun data => (address data, continuityIndex data)) = [(1, 0),(1, 1),(1, 2)] := by
  decide +kernel

end DabStar.DataProcessor
