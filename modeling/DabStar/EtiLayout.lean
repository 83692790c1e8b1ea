import DabStar.EtiAgreement

/-! The layout of an ETI frame. The length fields of the header are computed before the
streams are written and agree with them, since every bit rate of a FIG 0/1 is a
multiple of 8; both CRCs cover what stands before them. -/
namespace DabStar.EtiLayout
open List Fib Fib.FibDecoder Fib.Multiplex EtiGenerator EtiSafety EtiCache EtiAgreement
variable {fib : FibDecoder} {infos : List ChannelData} {subChIds : List Int} {hi lo minor : Nat} {s : EtiGenerator}

theorem maskByte (n : Nat) : n &&& 0xff = n % 256 := Nat.and_two_pow_sub_one_eq_mod n 8

theorem maskHigh (n : Nat) : (n &&& 0xff00) >>> 8 = n / 256 % 256 ∧ (n &&& 0x700) >>> 8 = n / 256 % 8 ∧
    (n &&& 0x300) >>> 8 = n / 256 % 4 := by
  rw [Nat.shiftRight_and_distrib,Nat.shiftRight_and_distrib,Nat.shiftRight_and_distrib,Nat.shiftRight_eq_div_pow]
  exact ⟨Nat.and_two_pow_sub_one_eq_mod _ 8,Nat.and_two_pow_sub_one_eq_mod _ 3,Nat.and_two_pow_sub_one_eq_mod _ 2⟩

theorem orLow (a : Nat) {i b : Nat} (small : b < 2 ^ i) : (a <<< i) ||| b = a * 2 ^ i + b := by
  rw [← Nat.shiftLeft_add_eq_or_of_lt small,Nat.shiftLeft_eq]

theorem wordBytes {crc : Nat} (small : crc < 2 ^ 16) : ((crc &&& 0xff00) >>> 8) * 256 + (crc &&& 0xff) = crc := by
  rw [(maskHigh crc).1,maskByte]
  omega

theorem crcSmall (data : List Nat) : calcCrc data < 2 ^ 16 := by
  have bounded : ∀ bits register, register < 2 ^ 16 → Lib.Crc.remainder 0x1021 register bits < 2 ^ 16 := by
    intro bits
    induction bits with
    | nil => exact fun _ small => small
    | cons bit bits ih =>
      intro register small
      refine ih _ (Nat.xor_lt_two_pow (Nat.mod_lt _ (by decide)) ?_)
      split <;> decide
  rw [calcCrcRegister]
  exact Nat.xor_lt_two_pow (by decide) (bounded _ _ (by decide))

theorem ratesEight (d : Bits) (bitOffset : Nat) (rated : 0 ≤ (readFig0s1 d bitOffset).bitRate) :
    (readFig0s1 d bitOffset).bitRate.toNat % 8 = 0 := by
  have short : ∀ index < 64, (cProtLevelTable.getD index ⟨0,0,0⟩).bitRate % 8 = 0 := by decide
  revert rated
  unfold readFig0s1
  dsimp only
  split
  · intro _
    exact short (getBits6 d (bitOffset + 18)) (getBitsLt d (bitOffset + 18) 6)
  · split
    · intro _
      show (_ / _ * 8 : Int).toNat % 8 = 0
      omega
    · split
      · intro _
        show (_ / _ * 32 : Int).toNat % 8 = 0
        omega
      · intro rated
        have unset : (0 : Int) ≤ -1 := rated
        omega

structure HeaderFields (infos : List ChannelData) (count : Nat) (header : List Nat) : Prop where
  parts : ∃ start covered, start.length = 4 ∧ covered.length = 6 + 4 * infos.length ∧
    header = start ++ covered ++ [(calcCrc covered &&& 0xff00) >>> 8,calcCrc covered &&& 0xff]
  fct : header.getD 4 0 = count % 250
  nst : header.getD 5 0 % 128 = infos.length
  fp : header.getD 6 0 / 32 = count % 8
  fl : header.getD 6 0 % 8 * 256 + header.getD 7 0 =
    (infos.map (fun data => data.bitrate.toNat * 3 / 4)).sum + infos.length + 1 + 24
  stl : ∀ k < infos.length, header.getD (8 + 4 * k + 2) 0 % 4 * 256 + header.getD (8 + 4 * k + 3) 0 =
    (infos.map (fun data => data.bitrate.toNat * 3 / 8)).getD k 0

theorem streamHeaderStl {data : ChannelData} (small : data.bitrate.toNat * 3 / 8 < 1024) :
    (streamHeader data).length = 4 ∧ (streamHeader data).getD 2 0 % 4 * 256 + (streamHeader data).getD 3 0 =
      data.bitrate.toNat * 3 / 8 := by
  refine ⟨rfl,?_⟩
  unfold streamHeader byte
  dsimp only
  generalize (if data.uepFlag then 0x10 ||| (data.protlev - 1).toNat else 0x20 ||| data.protlev.toNat) = tpl
  generalize data.bitrate.toNat * 3 / 8 = stl at small ⊢
  show ((tpl <<< 2) ||| ((stl &&& 0x300) >>> 8)) % 256 % 4 * 256 + (stl &&& 0xff) = stl
  have low : stl / 256 % 4 < 2 ^ 2 := Nat.mod_lt _ (by decide)
  rw [(maskHigh stl).2.2,maskByte,orLow tpl low]
  omega

theorem flatMapFour {k : Nat} (inside : k < infos.length) (j : Nat) (small : j < 4) (rest : List Nat) :
    (infos.flatMap streamHeader ++ rest).getD (4 * k + j) 0 = ((infos.map streamHeader).getD k []).getD j 0 := by
  induction infos generalizing k with
  | nil => exact absurd inside (Nat.not_lt_zero k)
  | cons data infos ih =>
    have four : (streamHeader data).length = 4 := rfl
    rw [flatMap_cons,append_assoc]
    cases k with
    | zero =>
      rw [getD_append _ _ _ _ (by omega),Nat.mul_zero,Nat.zero_add]
      rfl
    | succ k =>
      rw [getD_append_right _ _ _ _ (by omega),four,show 4 * (k + 1) + j - 4 = 4 * k + j by omega]
      exact ih (Nat.lt_of_succ_lt_succ inside)

theorem fieldsOf {cifCount fl : Nat} (few : infos.length ≤ 64) (small : fl < 2048)
    (words : (infos.map (fun data => data.bitrate.toNat * 3 / 4)).sum + infos.length + 1 + 24 = fl)
    (streamWords : ∀ data ∈ infos, data.bitrate.toNat * 3 / 8 < 1024) (sync : List Nat) (three : sync.length = 3) :
    let crcd := [byte (cifCount % 250),byte (1 <<< 7 ||| infos.length),
      byte ((cifCount % 8) <<< 5 ||| 1 <<< 3 ||| (fl &&& 0x700) >>> 8),fl &&& 0xff] ++ infos.flatMap streamHeader ++ [0xff,0xff]
    HeaderFields infos cifCount ([0xff] ++ sync ++ crcd ++ [(calcCrc crcd &&& 0xff00) >>> 8,calcCrc crcd &&& 0xff]) := by
  intro crcd
  match sync, three with
  | [first,second,third], _ =>
  have nst : byte (1 <<< 7 ||| infos.length) = 128 + infos.length := by
    rw [orLow 1 (show infos.length < 2 ^ 7 by omega),byte]
    omega
  have fp : byte ((cifCount % 8) <<< 5 ||| 1 <<< 3 ||| (fl &&& 0x700) >>> 8) = cifCount % 8 * 32 + 8 + fl / 256 := by
    have high : fl / 256 % 8 < 2 ^ 3 := Nat.mod_lt _ (by decide)
    rw [(maskHigh fl).2.1,orLow (cifCount % 8) (show 1 <<< 3 < 2 ^ 5 by decide),
      show cifCount % 8 * 2 ^ 5 + 1 <<< 3 = (cifCount % 8 * 4 + 1) <<< 3 by rw [Nat.shiftLeft_eq]; omega,orLow _ high,byte]
    omega
  refine ⟨⟨[0xff,first,second,third],crcd,rfl,?_,rfl⟩,?_,?_,?_,?_,?_⟩
  · show ([_,_,_,_] ++ infos.flatMap streamHeader ++ [0xff,0xff]).length = _
    rw [length_append,length_append,streamHeadersLength]
    show 4 + 4 * infos.length + 2 = 6 + 4 * infos.length
    omega
  · show byte (cifCount % 250) = cifCount % 250
    unfold byte
    omega
  · show byte (1 <<< 7 ||| infos.length) % 128 = infos.length
    rw [nst]
    omega
  · show byte ((cifCount % 8) <<< 5 ||| 1 <<< 3 ||| (fl &&& 0x700) >>> 8) / 32 = cifCount % 8
    rw [fp]
    omega
  · show byte ((cifCount % 8) <<< 5 ||| 1 <<< 3 ||| (fl &&& 0x700) >>> 8) % 8 * 256 + (fl &&& 0xff) = _
    rw [fp,maskByte,words]
    omega
  · intro k inside
    have within : ∀ j, ([0xff] ++ [first,second,third] ++ crcd ++ [(calcCrc crcd &&& 0xff00) >>> 8,calcCrc crcd &&& 0xff]).getD
        (8 + 4 * k + j) 0 = (infos.flatMap streamHeader ++ [0xff,0xff] ++ [(calcCrc crcd &&& 0xff00) >>> 8,
          calcCrc crcd &&& 0xff]).getD (4 * k + j) 0 := by
      intro j
      rw [show 8 + 4 * k + j = 4 * k + j + 8 by omega]
      rfl
    have stream : (infos.map streamHeader).getD k [] = streamHeader (infos[k]) := by
      rw [getD_eq_getElem _ _ (by rwa [length_map]),getElem_map]
    rw [within,within,append_assoc,flatMapFour inside 2 (by decide),flatMapFour inside 3 (by decide),stream,
      getD_eq_getElem (infos.map _) _ (by rwa [length_map]),getElem_map]
    exact (streamHeaderStl (streamWords _ (getElem_mem inside))).2

theorem headerFields {header : List Nat} (hiRange : hi < 20) (loRange : lo < 250) (minorRange : minor < 4) (few : subChIds.length ≤ 64)
    (frameWords : ((subChIds.map fib.getSubChannelInfo).map (fun data => data.bitrate.toNat * 3 / 4)).sum + 89 < 2048)
    (streamWords : ∀ data ∈ subChIds.map fib.getSubChannelInfo, data.bitrate.toNat * 3 / 8 < 1024)
    (ok : initEti fib subChIds hi lo minor = some header) :
    HeaderFields (subChIds.map fib.getSubChannelInfo) ((250 * hi + lo + minor) % 5000) header := by
  have count : subChIds.length = (subChIds.map fib.getSubChannelInfo).length := (length_map _).symm
  unfold initEti at ok
  dsimp only at ok
  split at ok
  · rw [count] at few ok
    generalize subChIds.map fib.getSubChannelInfo = infos at *
    simp only [Int.toNat_natCast] at ok
    -- The count after the carry: its saturation at 20 keeps the phase, since 5000 is a multiple of 8.
    have low : (if lo + minor ≥ 250 then (lo + minor) % 250 else lo + minor) = (250 * hi + lo + minor) % 5000 % 250 := by split <;> omega
    have phase : ((if (if lo + minor ≥ 250 then hi + 1 else hi) ≥ 20 then 20
        else if lo + minor ≥ 250 then hi + 1 else hi) * 250 +
          if lo + minor ≥ 250 then (lo + minor) % 250 else lo + minor) % 8 = (250 * hi + lo + minor) % 5000 % 8 := by
      split <;> split <;> omega
    rw [phase,low] at ok
    generalize (250 * hi + lo + minor) % 5000 = cifCount at *
    generalize words : (infos.map (fun data => data.bitrate.toNat * 3 / 4)).sum + infos.length + 1 + 24 = fl at *
    exact (Option.some.inj ok) ▸ fieldsOf few (by omega) words streamWords _ (by split <;> rfl)
  · contradiction

theorem headerLong {cifCount : Nat} {header : List Nat} (fields : HeaderFields infos cifCount header) :
    header.length = 12 + 4 * infos.length := by
  obtain ⟨start,covered,four,length,rfl⟩ := fields.parts
  rw [length_append,length_append,four,length,length_cons,length_singleton]
  omega

def slice (frame : List Nat) (first last : Nat) : List Nat := (frame.take last).drop first

def word (frame : List Nat) (offset : Nat) : Nat := frame.getD offset 0 * 256 + frame.getD (offset + 1) 0

def headerEnd (streams : List (List Nat)) : Nat := 8 + 4 * streams.length + 4

def mainEnd (streams : List (List Nat)) : Nat := headerEnd streams + 96 + streams.flatten.length

structure Layout (streams : List (List Nat)) (cifCount : Nat) (frame : List Nat) : Prop where
  fits : mainEnd streams + 8 ≤ 6144
  padded : frame = frame.take (mainEnd streams + 8) ++ replicate (6144 - (mainEnd streams + 8)) 0x55
  length : frame.length = 6144
  fct : frame.getD 4 0 = cifCount % 250
  fp : frame.getD 6 0 / 32 = cifCount % 8
  nst : frame.getD 5 0 % 128 = streams.length
  fl : 8 + 4 * (frame.getD 6 0 % 8 * 256 + frame.getD 7 0) = mainEnd streams
  stl : ∀ k < streams.length, 8 * (frame.getD (8 + 4 * k + 2) 0 % 4 * 256 + frame.getD (8 + 4 * k + 3) 0) =
    (streams.getD k []).length
  streamBytes : slice frame (headerEnd streams + 96) (mainEnd streams) = streams.flatten
  headerCrc : word frame (headerEnd streams - 2) = crc16 (slice frame 4 (headerEnd streams - 2))
  dataCrc : word frame (mainEnd streams) = crc16 (slice frame (headerEnd streams) (mainEnd streams))

theorem sliceMiddle {a b c frame : List Nat} {first last : Nat} (parts : frame = a ++ b ++ c) (start : a.length = first)
    (stop : first + b.length = last) : slice frame first last = b := by
  subst parts start stop
  unfold slice
  rw [← length_append,take_left,drop_left]

theorem wordCrc {a c frame data : List Nat} {offset : Nat} (start : a.length = offset)
    (parts : frame = a ++ [(calcCrc data &&& 0xff00) >>> 8,calcCrc data &&& 0xff] ++ c) : word frame offset = crc16 data := by
  subst parts start
  unfold word
  rw [append_assoc,getD_append_right a _ _ _ (le_refl _),getD_append_right a _ _ _ (Nat.le_add_right _ 1),
    Nat.sub_self,Nat.add_sub_cancel_left,← calcCrcRegister]
  exact wordBytes (crcSmall data)

theorem wordsBytes {streams : List (List Nat)} (eights : ∀ data ∈ infos, data.bitrate.toNat % 8 = 0)
    (lengths : List.Forall₂ (fun data stream => stream.length = 3 * data.bitrate.toNat) infos streams) :
    streams.flatten.length = 4 * (infos.map (fun data => data.bitrate.toNat * 3 / 4)).sum ∧
    ∀ k, 8 * (infos.map (fun data => data.bitrate.toNat * 3 / 8)).getD k 0 = (streams.getD k []).length := by
  induction lengths with
  | nil => exact ⟨rfl,fun k => rfl⟩
  | @cons data stream infos streams head tail ih =>
    have eight := eights data mem_cons_self
    obtain ⟨total,each⟩ := ih (fun other later => eights other (mem_cons_of_mem _ later))
    refine ⟨?_,?_⟩
    · rw [flatten_cons,length_append,map_cons,sum_cons,total,head]
      omega
    · intro k
      cases k with
      | zero =>
        show 8 * (data.bitrate.toNat * 3 / 8) = stream.length
        omega
      | succ k => exact each k

theorem frameLayout {cifCount : Nat} {header fibs : List Nat} {streams : List (List Nat)}
    (fields : HeaderFields infos cifCount header) (fibsLong : fibs.length = 96) (eights : ∀ data ∈ infos, data.bitrate.toNat % 8 = 0)
    (lengths : List.Forall₂ (fun data stream => stream.length = 3 * data.bitrate.toNat) infos streams)
    (room : mainEnd streams + 8 ≤ 6144) : Layout streams cifCount (frameBytes header fibs streams.flatten) := by
  have count : infos.length = streams.length := lengths.length_eq
  have long := headerLong fields
  obtain ⟨total,each⟩ := wordsBytes eights lengths
  have headerBound : headerEnd streams = header.length := by
    unfold headerEnd
    omega
  have mainBound : mainEnd streams = header.length + 96 + streams.flatten.length := by
    unfold mainEnd
    omega
  have inHeader : ∀ i < header.length, (frameBytes header fibs streams.flatten).getD i 0 = header.getD i 0 := by
    intro i inside
    unfold frameBytes
    dsimp only
    rw [append_assoc,append_assoc,append_assoc,getD_append _ _ _ _ inside]
  obtain ⟨start,covered,four,coveredLong,parts⟩ := fields.parts
  generalize written : streams.flatten = data at *
  generalize padding : replicate (6144 - (header.length + 96 + data.length + 8)) 0x55 = pad
  have shape : frameBytes header fibs data = header ++ fibs ++ data ++ [(calcCrc (fibs ++ data) &&& 0xff00) >>> 8,
      calcCrc (fibs ++ data) &&& 0xff] ++ (replicate 6 0xff ++ pad) := by
    unfold frameBytes
    rw [padding]
    simp only [append_assoc,cons_append,nil_append,replicate]
  have total : (frameBytes header fibs data).length = header.length + 96 + data.length + 8 + pad.length := by
    rw [shape]
    simp only [length_append,length_replicate,length_cons,length_nil,fibsLong]
    omega
  have padLong : pad.length = 6144 - (header.length + 96 + data.length + 8) := by rw [← padding,length_replicate]
  refine ⟨room,?_,by omega,?_,?_,?_,?_,?_,?_,?_,?_⟩
  · rw [mainBound,padding]
    have rest : (frameBytes header fibs data).drop (header.length + 96 + data.length + 8) = pad := by
      rw [shape,← append_assoc,drop_left']
      simp only [length_append,length_replicate,length_cons,length_nil,fibsLong]
    conv_lhs => rw [← take_append_drop (header.length + 96 + data.length + 8) (frameBytes header fibs data),rest]
  · rw [inHeader 4 (by omega),fields.fct]
  · rw [inHeader 6 (by omega),fields.fp]
  · rw [inHeader 5 (by omega),fields.nst,count]
  · rw [inHeader 6 (by omega),inHeader 7 (by omega),fields.fl,mainBound]
    omega
  · intro k inside
    rw [inHeader _ (by omega),inHeader _ (by omega),fields.stl k (by omega),each]
  · rw [append_assoc (header ++ fibs ++ data)] at shape
    have start : (header ++ fibs).length = headerEnd streams + 96 := by rw [length_append,headerBound,fibsLong]
    rw [written]
    exact sliceMiddle shape start (by rw [headerBound,mainBound])
  · have header : frameBytes header fibs data = start ++ covered ++ ([(calcCrc covered &&& 0xff00) >>> 8,
        calcCrc covered &&& 0xff] ++ (fibs ++ data ++ [(calcCrc (fibs ++ data) &&& 0xff00) >>> 8,
          calcCrc (fibs ++ data) &&& 0xff] ++ (replicate 6 0xff ++ pad))) := by
      rw [shape,parts]
      simp only [append_assoc]
    rw [sliceMiddle header four (by omega)]
    exact wordCrc (by rw [length_append]; omega) (header.trans (append_assoc _ _ _).symm)
  · rw [append_assoc header fibs data] at shape
    rw [sliceMiddle (shape.trans (append_assoc _ _ _)) headerBound.symm (by rw [length_append]; omega)]
    exact wordCrc (by rw [length_append,length_append]; omega) shape

def streamsOf (input : Nat → Int) (decodes : List Decode) : List (List Nat) :=
  decodes.map (fun decode => (processSubChannel decode.data decode.prot decode.desc input).2)

theorem decodesStreams {input : Nat → Int} {s t : EtiGenerator}
    {decodes : List Decode} {data : List Nat} (decoded : Decodes fib input subChIds s decodes t data) :
    data = (streamsOf input decodes).flatten ∧ List.Forall₂ (fun data stream => stream.length = 3 * data.bitrate.toNat)
      (subChIds.map fib.getSubChannelInfo) (streamsOf input decodes) := by
  induction decoded with
  | nil s => exact ⟨rfl,List.Forall₂.nil⟩
  | cons head tail ih =>
    refine ⟨?_,List.Forall₂.cons ?_ ih.2⟩
    · rw [ih.1,head.bytes]
      rfl
    · rw [processSubChannelLength,head.data]

theorem decodesData {input : Nat → Int} {s t : EtiGenerator}
    {decodes : List Decode} {data : List Nat} (decoded : Decodes fib input subChIds s decodes t data) :
    decodes.map Decode.data = subChIds.map fib.getSubChannelInfo := by
  induction decoded with
  | nil s => rfl
  | cons head tail ih => rw [map_cons,map_cons,ih,head.data]

structure Due (s : EtiGenerator) (fib : FibDecoder) (hi lo minor : Nat) : Prop where
  sized : Sized s
  index : s.indexOut < 16
  file : s.etiFile = true
  counts : s.cifCountHi = hi ∧ s.cifCountLo = lo ∧ s.minor = minor
  ranges : hi < 20 ∧ lo < 250 ∧ minor < 4
  list : s.subChIdList = fib.getSubChannelIdList
  sound : EtiSafety.Sound fib
  rated : ∀ e ∈ fib.fig0Curr.fig0s1Vec, 0 ≤ e.bitRate

theorem dueFew (sound : EtiSafety.Sound fib) : fib.getSubChannelIdList.length ≤ 64 := by
  refine listLength (s := { subChIdList := fib.getSubChannelIdList }) ⟨Nat.zero_lt_succ 15,sound.consistent.distinct,?_⟩
  intro subChId listed
  obtain ⟨e,stored,rfl⟩ := mem_map.mp listed
  exact storedIds sound stored

theorem dueRates (sound : EtiSafety.Sound fib) (rated : ∀ e ∈ fib.fig0Curr.fig0s1Vec, 0 ≤ e.bitRate) :
    ∀ data ∈ fib.getSubChannelIdList.map fib.getSubChannelInfo, data.bitrate.toNat % 8 = 0 := by
  intro data mapped
  obtain ⟨subChId,listed,rfl⟩ := mem_map.mp mapped
  obtain ⟨e,stored,rfl⟩ := mem_map.mp listed
  rw [infoListed sound stored]
  have rate := rated e stored
  obtain ⟨d,bitOffset,rfl⟩ := sound.described e stored
  exact ratesEight d bitOffset rate

theorem dueWords (fib : FibDecoder) (subChIds : List Int) :
    4 * ((subChIds.map fib.getSubChannelInfo).map (fun data => data.bitrate.toNat * 3 / 4)).sum ≤ dataBytes fib subChIds ∧
    ∀ data ∈ subChIds.map fib.getSubChannelInfo, 3 * data.bitrate.toNat ≤ dataBytes fib subChIds := by
  induction subChIds with
  | nil => exact ⟨le_refl _,fun _ impossible => absurd impossible not_mem_nil⟩
  | cons subChId subChIds ih =>
    obtain ⟨total,each⟩ := ih
    have split : dataBytes fib (subChId :: subChIds) = 3 * (fib.getSubChannelInfo subChId).bitrate.toNat + dataBytes fib subChIds := rfl
    refine ⟨?_,?_⟩
    · rw [map_cons,map_cons,sum_cons]
      omega
    · intro data member
      rcases mem_cons.mp member with rfl | later
      · omega
      · have one := each data later
        omega

theorem writeFrameLayout (due : Due s fib hi lo minor) : ∃ t frame, (s.writeFrame fib).result = some (t, some frame) ∧
      (s.writeFrame fib).decodes.map Decode.data = fib.getSubChannelIdList.map fib.getSubChannelInfo ∧
      Layout (streamsOf (fun i => s.temp.getD i 0) (s.writeFrame fib).decodes) ((250 * hi + lo + minor) % 5000) frame := by
  obtain ⟨hiCount,loCount,minorCount⟩ := due.counts
  obtain ⟨hiRange,loRange,minorRange⟩ := due.ranges
  have few := dueFew due.sound
  have bound : dataBytes fib fib.getSubChannelIdList ≤ 5529 := dataBytesBound due.sound due.sound.consistent.distinct
  obtain ⟨words,streamWords⟩ := dueWords fib fib.getSubChannelIdList
  obtain ⟨header,built⟩ := initEtiTotal due.sound (fun e stored => stored) s.cifCountHi s.cifCountLo s.minor
  obtain ⟨⟨last,data⟩,decoded⟩ := processCifTotal due.sound (fun i => s.temp.getD i 0) (fun e stored => stored) due.rated s
    (header.length + 96)
  have fields := headerFields hiRange loRange minorRange few (by omega)
    (fun data member => by have one := streamWords data member; omega) (hiCount ▸ loCount ▸ minorCount ▸ built)
  have exact := processCifExact decoded
  obtain ⟨bytes,lengths⟩ := decodesStreams exact
  obtain ⟨protTable,descrambler,same⟩ := decodesState exact
  have fibsLong : (last.fibVector.getD last.indexOut []).length = 96 := by
    rw [same]
    exact due.sized.fibs _ due.index
  have total := decodesLength exact
  have count : header.length = 12 + 4 * fib.getSubChannelIdList.length := (initEtiLength built).trans rfl
  have listed := due.list
  unfold getSubChannelIdList at listed
  rw [← listed] at built decoded
  obtain ⟨made,decodes⟩ := writeFrameMakes built decoded (by rw [same]; exact due.file)
  rw [decodes,listed]
  refine ⟨_,_,made,decodesData exact,?_⟩
  rw [bytes]
  refine frameLayout fields fibsLong (dueRates due.sound due.rated) lengths ?_
  have streams := lengths.length_eq
  rw [length_map,length_map] at streams
  rw [bytes] at total
  unfold mainEnd headerEnd
  unfold getSubChannelIdList at few bound
  rw [length_map] at few
  omega

theorem finishDue (due : Due s fib hi lo minor) (filled : 15 ≤ s.amount) : s.finishCif fib = s.writeFrame fib := by
  obtain ⟨hiCount,loCount,minorCount⟩ := due.counts
  unfold finishCif
  rw [if_neg (by omega),if_neg (by omega),if_neg (by omega)]

theorem completesDue {hi lo minor ofdmSymbIdx : Nat} (due : Due s fib hi lo minor)
    (running : s.running = true) (filled : 15 ≤ s.amount) (late : 4 ≤ ofdmSymbIdx) (last : (ofdmSymbIdx - 4) % 18 = 17)
    (fic : FicData) (bits : Nat → Int) : let u := (s.takeSymbol fib fic bits ofdmSymbIdx).interleaved
    Due u fib hi lo minor ∧ (s.processBlock fib fic bits ofdmSymbIdx).result = (u.writeFrame fib).result ∧
      (s.processBlock fib fic bits ofdmSymbIdx).decodes = (u.writeFrame fib).decodes := by
  have taken : ∃ cifIn, s.takeSymbol fib fic bits ofdmSymbIdx = { s with cifIn := cifIn } := by
    unfold takeSymbol
    rw [if_neg (by omega)]
    exact storeExact s bits _
  have sized := (interleavedSpec (takeSized due.sized fib fic bits ofdmSymbIdx)).1
  obtain ⟨temp,cifVector,moved⟩ := interleavedExact (s.takeSymbol fib fic bits ofdmSymbIdx)
  have processed := processBlockCases s fib fic bits ofdmSymbIdx
  generalize s.processBlock fib fic bits ofdmSymbIdx = outcome at processed ⊢
  obtain ⟨cifIn,same⟩ := taken
  have unmoved : Due (s.takeSymbol fib fic bits ofdmSymbIdx).interleaved fib hi lo minor ∧
      15 ≤ (s.takeSymbol fib fic bits ofdmSymbIdx).interleaved.amount := by
    generalize (s.takeSymbol fib fic bits ofdmSymbIdx).interleaved = u at *
    rw [same] at moved
    rw [moved] at sized ⊢
    exact ⟨⟨sized,due.index,due.file,due.counts,due.ranges,due.list,due.sound,due.rated⟩,filled⟩
  refine ⟨unmoved.1,?_⟩
  cases processed with
  | stopped _ off =>
    rw [off] at running
    cases running
  | early first => omega
  | stores _ _ inside => exact absurd last inside
  | completes => simp only [completeCifResult,completeCifDecodes,finishDue unmoved.1 unmoved.2,and_self]

theorem etiFrameLayout {s : EtiGenerator} {fib : FibDecoder} {hi lo minor ofdmSymbIdx : Nat} (due : Due s fib hi lo minor)
    (running : s.running = true) (filled : 15 ≤ s.amount) (late : 4 ≤ ofdmSymbIdx) (last : (ofdmSymbIdx - 4) % 18 = 17)
    (fic : FicData) (bits : Nat → Int) : let outcome := s.processBlock fib fic bits ofdmSymbIdx
    ∃ t frame, outcome.result = some (t, some frame) ∧ outcome.decodes.map Decode.data = fib.getSubChannelIdList.map fib.getSubChannelInfo ∧
      Layout (streamsOf (fun i => (s.takeSymbol fib fic bits ofdmSymbIdx).interleaved.temp.getD i 0) outcome.decodes)
        ((250 * hi + lo + minor) % 5000) frame := by
  obtain ⟨next,result,decodes⟩ := completesDue due running filled late last fic bits
  dsimp only
  rw [result,decodes]
  exact writeFrameLayout next

def lastCount : EtiGenerator :=
  { etiFile := true, running := true, amount := 15, cifCountHi := 19, cifCountLo := 249, minor := 3, subChIdList := [1] }

theorem lastCountDue : Due lastCount (FibDecoder.processFib plainText {} rateFib) 19 249 3 where
  sized := ⟨newSized.cifIn,newSized.shape,newSized.fibVector,newSized.fibs⟩
  index := Nat.zero_lt_succ 15
  file := rfl
  counts := ⟨rfl,rfl,rfl⟩
  ranges := by decide
  list := by decide
  sound := tunedSound (streamTuned (fun _ _ => 0)) 0
  rated := by decide

theorem lastCountLayout :
    ∃ t frame, (lastCount.processBlock (FibDecoder.processFib plainText {} rateFib) silence zeros 21).result = some (t, some frame) ∧
      frame.getD 4 0 = 2 ∧ frame.getD 6 0 / 32 = 2 := by
  obtain ⟨t,frame,ok,_,layout⟩ := etiFrameLayout lastCountDue rfl (le_refl 15) (show 4 ≤ 21 by decide) (by decide)
    silence zeros
  exact ⟨t,frame,ok,layout.fct,layout.fp⟩

end DabStar.EtiLayout
