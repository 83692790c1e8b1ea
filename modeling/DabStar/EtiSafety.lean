import DabStar.EtiRun

/-! Index safety of the ETI generator. The import of the FIBs alone adds to the index into the
arrays of 16 without wrapping it. -/
namespace DabStar.EtiSafety
open List Fib Fib.FibDecoder Fib.Multiplex SubChannel EtiGenerator
variable {fib : FibDecoder} {s : EtiGenerator} {subChIds : List Int} {frame : Option (List Nat)}

theorem shortRates : ∀ index < 64, 15 * (cProtLevelTable.getD index ⟨0,0,0⟩).bitRate ≤
    32 * (cProtLevelTable.getD index ⟨0,0,0⟩).cuSize := by decide

theorem readRate (d : Bits) (bitOffset : Nat) : 15 * (readFig0s1 d bitOffset).bitRate ≤ 32 * (readFig0s1 d bitOffset).subChannelSize := by
  have level := getBitsLt d (bitOffset + 20) 2
  have unitA : ∀ level < 4, 4 ≤ optionATable.getD level 1 := by decide
  have unitB : ∀ level < 4, 15 ≤ optionBTable.getD level 1 := by decide
  unfold readFig0s1
  dsimp only
  split
  · have rate := shortRates (getBits6 d (bitOffset + 18)) (getBitsLt d (bitOffset + 18) 6)
    show (15 : Int) * ((cProtLevelTable.getD (getBits6 d (bitOffset + 18)) ⟨0,0,0⟩).bitRate : Nat) ≤
      32 * ((cProtLevelTable.getD (getBits6 d (bitOffset + 18)) ⟨0,0,0⟩).cuSize : Nat)
    exact_mod_cast rate
  · split
    · have unit := unitA (getBits2 d (bitOffset + 20)) level
      have units := Nat.div_mul_le_self (getBits d (bitOffset + 22) 10) (optionATable.getD (getBits2 d (bitOffset + 20)) 1)
      show (15 : Int) * (_ / _ * 8) ≤ 32 * (getBits d (bitOffset + 22) 10 : Nat)
      norm_cast
      nlinarith
    · split
      · have unit := unitB (getBits2 d (bitOffset + 20)) level
        have units := Nat.div_mul_le_self (getBits d (bitOffset + 22) 10) (optionBTable.getD (getBits2 d (bitOffset + 20)) 1)
        show (15 : Int) * (_ / _ * 32) ≤ 32 * (getBits d (bitOffset + 22) 10 : Nat)
        norm_cast
        nlinarith
      · show (15 : Int) * -1 ≤ 32 * (getBits d (bitOffset + 22) 10 : Nat)
        omega

structure Sound (fib : FibDecoder) : Prop where
  consistent : Consistent fib.fig0Curr.fig0s1Vec
  described : Described fib.fig0Curr.fig0s1Vec

theorem infoCases (fib : FibDecoder) (subChId : Int) :
    (∃ e ∈ fib.fig0Curr.fig0s1Vec, e.subChId = subChId ∧ fib.getSubChannelInfo subChId = channelData true e) ∨
    fib.getSubChannelInfo subChId = channelData false {} := by
  unfold getSubChannelInfo FibConfigFig0.getFig0s1OfSubChId
  cases found : fib.fig0Curr.fig0s1Vec.find? (fun e => e.subChId = subChId) with
  | none => exact Or.inr rfl
  | some e =>
    have same := List.find?_some found
    exact Or.inl ⟨e,mem_of_find?_eq_some found,of_decide_eq_true same,rfl⟩

noncomputable def units (fib : FibDecoder) (subChId : Int) : Finset Int :=
  Finset.Ico (fib.getSubChannelInfo subChId).startCu
    ((fib.getSubChannelInfo subChId).startCu + (fib.getSubChannelInfo subChId).size)

theorem unitsInside (sound : Sound fib) (subChId : Int) : units fib subChId ⊆ Finset.Ico 0 864 := by
  unfold units
  rcases infoCases fib subChId with ⟨e,stored,_,info⟩ | info
  · rw [info]
    have inside := sound.consistent.inside e stored
    exact Finset.Ico_subset_Ico inside.1 inside.2
  · rw [info]
    decide

theorem unitsDisjoint (sound : Sound fib) {a b : Int} (different : a ≠ b) : Disjoint (units fib a) (units fib b) := by
  unfold units
  rcases infoCases fib a with ⟨e,stored,ofA,info⟩ | info
  · rcases infoCases fib b with ⟨f,storedToo,ofB,infoToo⟩ | infoToo
    · rw [info,infoToo,← Finset.disjoint_coe,Finset.coe_Ico,Finset.coe_Ico]
      have others : e ≠ f := by
        rintro rfl
        exact different (ofA.symm.trans ofB)
      have symmetric : Std.Symm (fun a b : Fig0s1 => Disjoint (cuRange a) (cuRange b)) := ⟨fun _ _ apart => apart.symm⟩
      exact sound.consistent.disjoint.forall stored storedToo others
    · rw [infoToo]
      exact Finset.disjoint_empty_right _
  · rw [info]
    exact Finset.disjoint_empty_left _

theorem unitsRate (sound : Sound fib) (subChId : Int) :
    15 * (fib.getSubChannelInfo subChId).bitrate.toNat ≤ 32 * (units fib subChId).card := by
  unfold units
  rw [Int.card_Ico,add_sub_cancel_left]
  rcases infoCases fib subChId with ⟨e,stored,_,info⟩ | info
  · rw [info]
    obtain ⟨d,bitOffset,rfl⟩ := sound.described e stored
    have rate := readRate d bitOffset
    show 15 * (readFig0s1 d bitOffset).bitRate.toNat ≤ 32 * (readFig0s1 d bitOffset).subChannelSize.toNat
    omega
  · rw [info]
    decide

def dataBytes (fib : FibDecoder) (subChIds : List Int) : Nat :=
  (subChIds.map (fun subChId => 3 * (fib.getSubChannelInfo subChId).bitrate.toNat)).sum

theorem dataBytesBound (sound : Sound fib) (distinct : subChIds.Nodup) : dataBytes fib subChIds ≤ 5529 := by
  have total : ∑ subChId ∈ subChIds.toFinset, (units fib subChId).card ≤ 864 := by
    rw [← Finset.card_biUnion (fun a _ b _ different => unitsDisjoint sound different)]
    have inside : subChIds.toFinset.biUnion (units fib) ⊆ Finset.Ico 0 864 :=
      Finset.biUnion_subset.mpr (fun subChId _ => unitsInside sound subChId)
    exact (Finset.card_le_card inside).trans (by rw [Int.card_Ico]; decide)
  have rates : 15 * ∑ subChId ∈ subChIds.toFinset, (fib.getSubChannelInfo subChId).bitrate.toNat ≤
      32 * ∑ subChId ∈ subChIds.toFinset, (units fib subChId).card := by
    rw [Finset.mul_sum,Finset.mul_sum]
    exact Finset.sum_le_sum (fun subChId _ => unitsRate sound subChId)
  have bytes : dataBytes fib subChIds = 3 * ∑ subChId ∈ subChIds.toFinset, (fib.getSubChannelInfo subChId).bitrate.toNat := by
    unfold dataBytes
    rw [Finset.mul_sum,sum_toFinset _ distinct]
  omega

structure Indexed (s : EtiGenerator) : Prop where
  index : s.indexOut < 16
  distinct : s.subChIdList.Nodup
  ids : ∀ subChId ∈ s.subChIdList, 0 ≤ subChId ∧ subChId < 64

theorem listLength (indexed : Indexed s) : s.subChIdList.length ≤ 64 := by
  have inside : s.subChIdList.toFinset ⊆ Finset.Ico 0 64 := by
    intro subChId listed
    exact Finset.mem_Ico.mpr (indexed.ids subChId (mem_toFinset.mp listed))
  have count := Finset.card_le_card inside
  rw [toFinset_card_of_nodup indexed.distinct,Int.card_Ico] at count
  exact count

theorem processSubChannelLength (data : ChannelData) (prot : Protection) (desc : List Bool) (input : Nat → Int) :
    (processSubChannel data prot desc input).2.length = 3 * data.bitrate.toNat := by
  unfold processSubChannel packBytes
  simp only [length_map,length_range]
  omega

theorem decodedLength {s t : EtiGenerator} {input : Nat → Int} {subChId : Int} {decode : Decode}
    {bytes : List Nat} (decoded : Decoded s fib input subChId t decode bytes) :
    bytes.length = 3 * (fib.getSubChannelInfo subChId).bitrate.toNat := by rw [decoded.bytes,processSubChannelLength,decoded.data]

theorem decodesLength {input : Nat → Int} {s t : EtiGenerator}
    {decodes : List Decode} {data : List Nat} (decoded : Decodes fib input subChIds s decodes t data) :
    data.length = dataBytes fib subChIds := by
  induction decoded with
  | nil s => rfl
  | cons head tail ih =>
    rw [length_append,decodedLength head,ih]
    rfl

theorem processCifInside (fib : FibDecoder) (input : Nat → Int) (subChIds : List Int) (s : EtiGenerator) {offset : Nat}
    (room : offset + dataBytes fib subChIds ≤ 6144) : ∀ access ∈ (processCif fib input subChIds s offset).accesses, access.Inside := by
  induction subChIds generalizing s offset with
  | nil =>
    intro access impossible
    cases impossible
  | cons subChId subChIds ih =>
    unfold processCif
    cases head : s.decodeSubChannel fib input subChId with
    | none =>
      intro access impossible
      cases impossible
    | some found =>
      obtain ⟨next,decode,bytes⟩ := found
      have length := decodedLength (decodeExact head)
      have split : dataBytes fib (subChId :: subChIds) = 3 * (fib.getSubChannelInfo subChId).bitrate.toNat + dataBytes fib subChIds := rfl
      intro access member
      rcases mem_cons.mp member with rfl | later
      · show offset + bytes.length ≤ 6144
        omega
      · exact ih next (by omega) access later

theorem streamHeadersLength (infos : List ChannelData) : (infos.flatMap streamHeader).length = 4 * infos.length := by
  induction infos with
  | nil => rfl
  | cons data infos ih =>
    rw [flatMap_cons,length_append,ih,length_cons]
    show 4 + _ = _
    omega

theorem initEtiLength {hi lo minor : Int} {header : List Nat}
    (ok : initEti fib subChIds hi lo minor = some header) : header.length = 12 + 4 * subChIds.length := by
  have sync : ∀ (odd : Prop) [Decidable odd],
      (if odd then [0xf8,0xc5,0x49] else [0x07,0x3a,0xb6] : List Nat).length = 3 := by
    intro odd _
    split <;> rfl
  unfold initEti at ok
  dsimp only at ok
  split at ok
  · cases ok
    simp only [length_append,streamHeadersLength,sync,length_map,length_cons,length_nil]
    omega
  · contradiction

theorem writeFrameInside (indexed : Indexed s) (sound : Sound fib) : ∀ access ∈ (s.writeFrame fib).accesses, access.Inside := by
  have streams := listLength indexed
  have total := dataBytesBound sound indexed.distinct
  unfold writeFrame
  cases built : initEti fib s.subChIdList s.cifCountHi s.cifCountLo s.minor with
  | none =>
    intro access member
    rw [mem_singleton.mp member]
    show 0 + (12 + 4 * s.subChIdList.length) ≤ 6144
    omega
  | some header =>
    have length := initEtiLength built
    have inside := processCifInside fib (fun i => s.temp.getD i 0) s.subChIdList s
      (show header.length + 96 + dataBytes fib s.subChIdList ≤ 6144 by omega)
    have first : ∀ access ∈ [Access.theVector 0 header.length,.fibVector s.indexOut,.theVector header.length 96] ++
        (processCif fib (fun i => s.temp.getD i 0) s.subChIdList s (header.length + 96)).accesses, access.Inside := by
      intro access member
      rcases mem_append.mp member with start | data
      · have index := indexed.index
        simp only [mem_cons,not_mem_nil,or_false] at start
        rcases start with rfl | rfl | rfl
        · show 0 + header.length ≤ 6144
          omega
        · exact index
        · show header.length + 96 ≤ 6144
          omega
      · exact inside access data
    dsimp only
    cases decoded : (processCif fib (fun i => s.temp.getD i 0) s.subChIdList s (header.length + 96)).result with
    | none => exact first
    | some out =>
      obtain ⟨t,data⟩ := out
      have bytes := decodesLength (processCifExact decoded)
      intro access member
      rcases mem_append.mp member with start | trailer
      · exact first access start
      · simp only [mem_cons,not_mem_nil,or_false] at trailer
        rcases trailer with rfl | rfl
        · show header.length + 96 + data.length + 8 ≤ 6144
          omega
        · show header.length + 96 + data.length + 8 + (6144 - (header.length + 96 + data.length + 8)) ≤ 6144
          omega

theorem maskedLt (index : Nat) : index &&& 15 < 16 := by
  rw [Deinterleaver.maskSixteen]
  exact Nat.mod_lt _ (by decide)

theorem writeFrameIndexed {s t : EtiGenerator} (indexed : Indexed s) (ok : (s.writeFrame fib).result = some (t, frame)) : Indexed t := by
  obtain ⟨protTable,descrambler,rfl⟩ := writeFrameState ok
  exact ⟨maskedLt _,indexed.distinct,indexed.ids⟩

theorem interleavedInside (s : EtiGenerator) : ∀ access ∈ s.interleavedAccesses, access.Inside := by
  intro access member
  obtain ⟨i,_,here⟩ := mem_flatMap.mp member
  simp only [mem_cons,not_mem_nil,or_false] at here
  rcases here with rfl | rfl <;> exact maskedLt _

theorem interleavedIndexed (indexed : Indexed s) : Indexed s.interleaved := by
  obtain ⟨temp,cifVector,same⟩ := interleavedExact s
  rw [same]
  exact ⟨indexed.index,indexed.distinct,indexed.ids⟩

theorem completeCifInside (indexed : Indexed s) (sound : Sound fib) : ∀ access ∈ (s.completeCif fib).accesses, access.Inside := by
  have finished := finishCifCases s.interleaved fib
  have frame := writeFrameInside (interleavedIndexed indexed) sound
  refine forall_mem_append.mpr ⟨interleavedInside s,?_⟩
  generalize s.interleaved.finishCif fib = outcome at finished ⊢
  cases finished with
  | fills | uncounted | idle => simp
  | writes => exact frame

theorem finishCifIndexed {s t : EtiGenerator} (indexed : Indexed s) (ok : (s.finishCif fib).result = some (t, frame)) : Indexed t := by
  have finished := finishCifCases s fib
  generalize s.finishCif fib = outcome at finished ok
  cases finished with
  | fills =>
    cases ok
    exact ⟨maskedLt _,indexed.distinct,indexed.ids⟩
  | uncounted =>
    cases ok
    exact ⟨indexed.index,indexed.distinct,indexed.ids⟩
  | idle =>
    cases ok
    exact indexed
  | writes => exact writeFrameIndexed indexed ok

theorem importIndexed (indexed : Indexed s) (sound : Sound fib) (fic : FicData) : Indexed (s.importFibs fib fic) := by
  refine ⟨indexed.index,sound.consistent.distinct,?_⟩
  intro subChId listed
  obtain ⟨e,stored,rfl⟩ := mem_map.mp listed
  obtain ⟨d,bitOffset,rfl⟩ := sound.described e stored
  have bound : getBits6 d bitOffset < 64 := getBitsLt d bitOffset 6
  rw [readSubChId]
  omega

theorem importInside (s : EtiGenerator) : (∀ access ∈ s.importAccesses, access.Inside) ↔ s.indexOut ≤ 12 := by
  constructor
  · intro inside
    have last : s.indexOut + 3 < 16 := inside (.fibValid (s.indexOut + 3)) (by
      unfold importAccesses
      simp)
    omega
  · intro small access member
    unfold importAccesses at member
    obtain ⟨i,range,here⟩ := mem_flatMap.mp member
    have bound := mem_range.mp range
    simp only [mem_cons,not_mem_nil,or_false] at here
    rcases here with rfl | rfl
    · show s.indexOut + i < 16
      omega
    · exact maskedLt _

theorem takeIndexed (indexed : Indexed s) (sound : Sound fib) (fic : FicData)
    (bits : Nat → Int) (ofdmSymbIdx : Nat) : Indexed (s.takeSymbol fib fic bits ofdmSymbIdx) := by
  unfold takeSymbol
  obtain ⟨cifIn,same⟩ := storeExact (if ofdmSymbIdx = 4 then s.importFibs fib fic else s) bits ((ofdmSymbIdx - 4) % 18)
  rw [same]
  split
  · have imported := importIndexed indexed sound fic
    exact ⟨imported.index,imported.distinct,imported.ids⟩
  · exact ⟨indexed.index,indexed.distinct,indexed.ids⟩

theorem wakeIndexed (indexed : Indexed s) (ofdmSymbIdx : Nat) : Indexed (s.wake ofdmSymbIdx) := by
  unfold wake
  split
  · exact ⟨indexed.index,indexed.distinct,indexed.ids⟩
  · exact indexed

theorem blockIndexed {s t : EtiGenerator} {fic : FicData} {bits : Nat → Int} {ofdmSymbIdx : Nat} (indexed : Indexed s) (sound : Sound fib)
    (ok : (s.processBlock fib fic bits ofdmSymbIdx).result = some (t, frame)) : Indexed t := by
  have processed := processBlockCases s fib fic bits ofdmSymbIdx
  have taken := takeIndexed indexed sound fic bits ofdmSymbIdx
  generalize s.processBlock fib fic bits ofdmSymbIdx = outcome at processed ok
  cases processed with
  | stopped =>
    cases ok
    exact indexed
  | early =>
    cases ok
    exact wakeIndexed indexed ofdmSymbIdx
  | stores =>
    cases ok
    exact taken
  | completes =>
    simp only [completeCifResult] at ok
    exact finishCifIndexed (interleavedIndexed taken) ok

/- The one access that can leave its array: the flags of the four FIBs, from index 13 on. -/
def Overruns (s : EtiGenerator) (ofdmSymbIdx : Nat) : Prop := s.running = true ∧ ofdmSymbIdx = 4 ∧ 12 < s.indexOut

theorem takeInside (s : EtiGenerator) (ofdmSymbIdx : Nat) :
    (∀ access ∈ s.takeAccesses ofdmSymbIdx, access.Inside) ↔ ¬(ofdmSymbIdx = 4 ∧ 12 < s.indexOut) := by
  have store : Access.Inside (.cifIn ((ofdmSymbIdx - 4) % 18 * 3072) 3072) := by
    show (ofdmSymbIdx - 4) % 18 * 3072 + 3072 ≤ 55296
    omega
  unfold takeAccesses
  split
  · rename_i four
    rw [forall_mem_append,importInside,forall_mem_singleton,and_iff_left store]
    simp [four]
  · rename_i other
    rw [nil_append,forall_mem_singleton]
    simp [store,other]

theorem blockInside (indexed : Indexed s) (sound : Sound fib) (fic : FicData) (bits : Nat → Int) (ofdmSymbIdx : Nat) :
    (∀ access ∈ (s.processBlock fib fic bits ofdmSymbIdx).accesses, access.Inside) ↔ ¬Overruns s ofdmSymbIdx := by
  have processed := processBlockCases s fib fic bits ofdmSymbIdx
  have taken := takeIndexed indexed sound fic bits ofdmSymbIdx
  have inside := takeInside s ofdmSymbIdx
  generalize s.processBlock fib fic bits ofdmSymbIdx = outcome at processed ⊢
  unfold Overruns
  cases processed with
  | stopped _ off => simp [off]
  | early first =>
    have other : ofdmSymbIdx ≠ 4 := by omega
    simp [other]
  | stores on =>
    rw [on,eq_self,true_and]
    exact inside
  | completes on =>
    rw [on,eq_self,true_and,forall_mem_append,← inside]
    exact and_iff_left (completeCifInside taken sound)

structure SystemSound (s : EtiSystem) : Prop where
  consistent : Both Consistent s.fib
  described : Both Described s.fib
  indexed : Indexed s.eti

theorem SystemSound.sound {s : EtiSystem} (system : SystemSound s) : Sound s.fib := ⟨system.consistent.1,system.described.1⟩

theorem resetIndexed (indexed : Indexed s) : Indexed s.reset := ⟨Nat.zero_lt_succ 15,indexed.distinct,indexed.ids⟩

variable (toQString : Nat → List Nat → List Nat)

theorem stepSystemSound {s : EtiSystem} (system : SystemSound s)
    (event : EtiSystem.Event) : SystemSound (EtiSystem.step toQString s event) := by
  cases event with
  | fib event =>
    exact ⟨stepKept consistentKept toQString system.consistent event,
      stepKept describedKept toQString system.described event,system.indexed⟩
  | block fic bits ofdmSymbIdx =>
    unfold EtiSystem.step
    dsimp only
    split
    · exact system
    · split
      · exact ⟨system.consistent,system.described,system.indexed⟩
      · rename_i t frame ok
        exact ⟨system.consistent,system.described,blockIndexed system.indexed system.sound ok⟩
  | startEtiGenerator opened =>
    have indexed := resetIndexed system.indexed
    exact ⟨system.consistent,system.described,indexed.index,indexed.distinct,indexed.ids⟩
  | stopEtiGenerator =>
    exact ⟨system.consistent,system.described,system.indexed.index,system.indexed.distinct,system.indexed.ids⟩
  | reset => exact ⟨system.consistent,system.described,resetIndexed system.indexed⟩

theorem runSystemSound (events : List EtiSystem.Event) : SystemSound (EtiSystem.run toQString {} events) := by
  have kept : ∀ s, SystemSound s → SystemSound (events.foldl (EtiSystem.step toQString) s) := by
    induction events with
    | nil => exact fun s system => system
    | cons event events ih => exact fun s system => ih _ (stepSystemSound toQString system event)
  exact kept {} ⟨⟨consistentKept.empty,consistentKept.empty⟩,⟨describedKept.empty,describedKept.empty⟩,
    by decide,nodup_nil,by simp⟩

def OverrunsAt (s : EtiSystem) : EtiSystem.Event → Prop
  | .block _ _ ofdmSymbIdx => s.ended = false ∧ Overruns s.eti ofdmSymbIdx
  | _ => False

theorem indexSafety (toQString : Nat → List Nat → List Nat) (events : List EtiSystem.Event) (event : EtiSystem.Event) :
    (∀ access ∈ (EtiSystem.run toQString {} events).accesses event, access.Inside) ↔
      ¬OverrunsAt (EtiSystem.run toQString {} events) event := by
  have system := runSystemSound toQString events
  generalize EtiSystem.run toQString {} events = s at system ⊢
  cases event with
  | block fic bits ofdmSymbIdx =>
    have inside := blockInside system.indexed system.sound fic bits ofdmSymbIdx
    unfold EtiSystem.accesses OverrunsAt
    cases ended : s.ended with
    | true => simp
    | false => simpa using inside
  | fib => simp [EtiSystem.accesses,OverrunsAt]
  | startEtiGenerator => simp [EtiSystem.accesses,OverrunsAt]
  | stopEtiGenerator => simp [EtiSystem.accesses,OverrunsAt]
  | reset => simp [EtiSystem.accesses,OverrunsAt]

theorem pacedOverruns {p : Nat} (paced : EtiRun.Paced p s) (started : 0 < p) :
    Overruns s (p % 75 + 1) ↔ p % 75 = 3 ∧ 4 ≤ p / 75 ∧ p / 75 % 4 = 0 := by
  have index := paced.index
  unfold Overruns
  rw [paced.running started,eq_self,true_and]
  constructor
  · rintro ⟨four,large⟩
    have position : p % 75 = 3 := by omega
    have frames : EtiRun.cif p = 4 * (p / 75) := by
      unfold EtiRun.cif
      omega
    rw [frames] at index
    split at index <;> omega
  · rintro ⟨position,warm,fourth⟩
    have frames : EtiRun.cif p = 4 * (p / 75) := by
      unfold EtiRun.cif
      omega
    rw [frames,if_neg (by omega)] at index
    omega

def silence : FicData := ⟨fun _ => false,fun _ => true⟩

theorem fifthFrameOverruns : ∃ access ∈ (EtiSystem.run plainText {} (.startEtiGenerator true ::
    EtiRun.blocks silence (fun _ => 0) 0 303)).accesses (.block silence (fun _ => 0) 4), ¬access.Inside := by
  have run := (EtiRun.warmUpRun plainText {} silence (fun _ => 0) (show 303 ≤ 320 by decide)).1
  have system := runSystemSound plainText (.startEtiGenerator true :: EtiRun.blocks silence (fun _ => 0) 0 303)
  rw [EtiSystem.runCons] at system ⊢
  have start : EtiSystem.step plainText {} (.startEtiGenerator true) =
      { fib := {}, eti := EtiGenerator.startEtiGenerator {} true } := rfl
  rw [start] at system ⊢
  generalize EtiSystem.run plainText _ _ = s at run system ⊢
  have overruns : Overruns s.eti 4 := (pacedOverruns run.paced (by decide)).mpr (by decide)
  have outside := mt (blockInside system.indexed system.sound silence (fun _ => 0) 4).mp (not_not.mpr overruns)
  unfold EtiSystem.accesses
  rw [run.going]
  simpa using outside

end DabStar.EtiSafety
