import DabStar.Mp2Processor
import DabStar.Lib.BitFields

/-! Frames that follow each other without a gap. The header of a frame may change the length in
the middle of a call; until then the length is not looked at. -/
namespace DabStar.Mp2Processor
open List Lib.BitFields

structure Mp2Frame (bitRate : Nat) where
  mpeg2 : Bool
  bytes : List U8
  length : bytes.length = if mpeg2 then 6 * bitRate else 3 * bitRate
  header : getMp2SampleRate bytes = if mpeg2 then 24000 else 48000

namespace Mp2Frame

variable {bitRate : Nat}

def part (f : Mp2Frame bitRate) (start : Nat) : List Bool := (range (24 * bitRate)).map fun i => byteBits f.bytes (start + i)

def calls (f : Mp2Frame bitRate) : List (List Bool) := if f.mpeg2 then [f.part 0,f.part (24 * bitRate)] else [f.part 0]

/- The frame decoder gets the frame with the last bit of the call; what stands behind the
frame in the vector is older. -/
def DecodedBy (f : Mp2Frame bitRate) (d : DecodedFrame) : Prop := d.bit + 1 = 24 * bitRate ∧ d.mp2Frame.take f.bytes.length = f.bytes

end Mp2Frame

inductive Decoded {bitRate : Nat} : List (Mp2Frame bitRate) → List (List DecodedFrame) → Prop where
  | nil : Decoded [] []
  | mpeg1 {f : Mp2Frame bitRate} {d : DecodedFrame} {frames : List (Mp2Frame bitRate)} {rest : List (List DecodedFrame)}
      (kind : f.mpeg2 = false) (decoded : f.DecodedBy d) (behind : Decoded frames rest) : Decoded (f :: frames) ([d] :: rest)
  | mpeg2 {f : Mp2Frame bitRate} {d : DecodedFrame} {frames : List (Mp2Frame bitRate)} {rest : List (List DecodedFrame)}
      (kind : f.mpeg2 = true) (decoded : f.DecodedBy d) (behind : Decoded frames rest) :
      Decoded (f :: frames) ([] :: [d] :: rest)

theorem toI16Small {n : Int} (low : 0 ≤ n) (high : n < 32768) : toI16 n = n := by rw [toI16,Int.bmod_eq_of_le (by omega) (by omega)]

theorem byteSet (v : U8) (b : Bool) {k : Nat} (inside : k < 8) (i : Nat) :
    (if b then v ||| 1#8 <<< (7 - k) else v &&& ~~~(1#8 <<< (7 - k))).getMsbD i = if i = k then b else v.getMsbD i := by
  by_cases here : i < 8
  · cases b <;> simp [BitVec.getMsbD,BitVec.getLsbD_shiftLeft,BitVec.getLsbD_one,here] <;> grind
  · simp [BitVec.getMsbD,here,show i ≠ k by omega]

@[simp] theorem addBitLength (v : List U8) (b : Bool) (n : Int) : (addBitToMp2 v b n).length = v.length := by simp [addBitToMp2]

theorem addBitRead (v : List U8) (b : Bool) {n : Nat} (room : n < 8 * v.length) (i : Nat) :
    byteBits (addBitToMp2 v b n) i = if i = n then b else byteBits v i := by
  have byte : n / 8 < v.length := by omega
  unfold addBitToMp2 byteBits
  rw [Int.toNat_natCast]
  by_cases same : i / 8 = n / 8
  · rw [same,getD_eq_getElem?_getD,List.getElem?_set_self byte,Option.getD_some,byteSet _ _ (by omega)]
    have place : i % 8 = n % 8 ↔ i = n := by omega
    simp only [place]
  · have other : i ≠ n := fun equal => same (by rw [equal])
    rw [getD_eq_getElem?_getD,List.getElem?_set_ne (Ne.symm same),← getD_eq_getElem?_getD,if_neg other]

def Agree (v w : List U8) (k : Nat) : Prop := ∀ i < k, byteBits v i = byteBits w i

theorem agreeNext {v w : List U8} {k : Nat} (agree : Agree v w k) (room : k < 8 * v.length) :
    Agree (addBitToMp2 v (byteBits w k) k) w (k + 1) := by
  intro i inside
  rw [addBitRead v _ room]
  split
  · rename_i last
    rw [last]
  · exact agree i (by omega)

theorem agreeByte {v w : List U8} {k n : Nat} (agree : Agree v w k) (whole : 8 * (n + 1) ≤ k) : v.getD n 0#8 = w.getD n 0#8 := by
  apply BitVec.eq_of_getMsbD_eq
  intro i inside
  have bit := agree (8 * n + i) (by omega)
  have byte : (8 * n + i) / 8 = n := by omega
  have place : (8 * n + i) % 8 = i := by omega
  rwa [byteBits,byteBits,byte,place] at bit

theorem agreeTake {v w : List U8} (agree : Agree v w (8 * w.length)) (room : w.length ≤ v.length) : v.take w.length = w := by
  apply ext_getElem
  · rw [length_take,Nat.min_eq_left room]
  · intro n _ inside
    have byte := agreeByte agree (show 8 * (n + 1) ≤ 8 * w.length by omega)
    rw [getD_eq_getElem _ _ (by omega),getD_eq_getElem _ _ inside] at byte
    rw [getElem_take,byte]

theorem agreeRate {v w : List U8} (agree : Agree v w 24) (some : v ≠ []) (other : w ≠ []) : getMp2SampleRate v = getMp2SampleRate w := by
  rw [getMp2SampleRate,getMp2SampleRate,if_neg some,if_neg other,agreeByte agree (by decide : 8 * (0 + 1) ≤ 24),
    agreeByte agree (by decide : 8 * (1 + 1) ≤ 24),agreeByte agree (by decide : 8 * (2 + 1) ≤ 24)]

theorem layerOnes (v : U8) (layer : v &&& 0xF6#8 = 0xF4#8) {i : Nat} (inside : i < 4) : v.getMsbD i = true := by
  have bit := congrArg (fun w : U8 => w.getMsbD i) layer
  interval_cases i <;> simpa [BitVec.getMsbD] using bit

theorem rateOnes {w : List U8} (rate : getMp2SampleRate w ≠ 0) {i : Nat} (inside : i < 12) : byteBits w i = true := by
  unfold getMp2SampleRate at rate
  split at rate
  · exact absurd rfl rate
  · split at rate
    · exact absurd rfl rate
    · rename_i valid
      simp only [not_or,not_not] at valid
      obtain ⟨syncword,layer,_⟩ := valid
      unfold byteBits
      by_cases first : i < 8
      · have place : i % 8 = i := by omega
        rw [Nat.div_eq_of_lt first,syncword,place]
        interval_cases i <;> rfl
      · have byte : i / 8 = 1 := by omega
        rw [byte]
        exact layerOnes _ layer (by omega)

theorem agreeOnes {v w : List U8} (ones : ∀ i < 12, byteBits w i = true) (room : 12 ≤ 8 * v.length) (n : Nat) (most : n ≤ 12) :
    Agree ((range n).foldl (fun mp2Frame (k : Nat) => addBitToMp2 mp2Frame true k) v) w n ∧
      ((range n).foldl (fun mp2Frame (k : Nat) => addBitToMp2 mp2Frame true k) v).length = v.length := by
  induction n with
  | zero => exact ⟨fun i none => absurd none (Nat.not_lt_zero i),rfl⟩
  | succ n ih =>
    obtain ⟨agree,length⟩ := ih (by omega)
    have next := agreeNext agree (show n < 8 * _ by rw [length]; omega)
    rw [ones n (by omega)] at next
    rw [range_succ,foldl_append]
    exact ⟨next,(addBitLength _ _ _).trans length⟩

section Steps

variable {bitRate : Nat}

namespace Mp2Frame

def rate (f : Mp2Frame bitRate) : Nat := if f.mpeg2 then 24000 else 48000

theorem ones (f : Mp2Frame bitRate) {i : Nat} (inside : i < 12) : byteBits f.bytes i = true := by
  apply rateOnes _ inside
  rw [f.header]
  split <;> decide

end Mp2Frame

def Fits (bitRate : Nat) : Prop := 2 ≤ bitRate ∧ 48 * bitRate < 32768

theorem bitrateFits {bitRate : Nat} (rate : bitRate ∈ bitrates) : Fits bitRate := by
  have all : ∀ r ∈ bitrates, 2 ≤ r ∧ 48 * r < 32768 := by decide
  exact all bitRate rate

def Sized (bitRate : Nat) (s : Mp2Processor) : Prop := s.mp2FrameSize = 24 * bitRate ∧ s.mp2Frame.length = 48 * bitRate

inductive Reading (f : Mp2Frame bitRate) (k : Nat) (s : Mp2Processor) (lf : Int) : Prop where
  | sync (early : k < 12) (state : s.mp2SyncState = .searchingForSync) (count : s.mp2HeaderCount = k)
  | header (synced : 12 ≤ k) (early : k < 24) (state : s.mp2SyncState = .getSampleRate) (count : s.mp2BitCount = k)
      (agree : Agree s.mp2Frame f.bytes k)
  | data (known : 24 ≤ k) (state : s.mp2SyncState = .getData) (count : s.mp2BitCount = k)
      (agree : Agree s.mp2Frame f.bytes k) (rate : s.sampleRate = f.rate) (length : lf = 8 * f.bytes.length)

theorem frameBytes (f : Mp2Frame bitRate) : f.bytes.length ≤ 6 * bitRate ∧ 3 * bitRate ≤ f.bytes.length := by
  have length := f.length
  split at length <;> omega

theorem frameLengthRight (fits : Fits bitRate) {f : Mp2Frame bitRate} {s : Mp2Processor}
    (size : s.mp2FrameSize = 24 * bitRate) (rate : s.sampleRate = f.rate) : s.frameLength = 8 * f.bytes.length := by
  obtain ⟨_,most⟩ := fits
  have length := f.length
  rw [frameLength,rate,size,Mp2Frame.rate]
  cases kind : f.mpeg2 with
  | false =>
    simp only [kind,Bool.false_eq_true,if_false,if_true] at length ⊢
    omega
  | true =>
    simp only [kind,if_true] at length ⊢
    rw [if_neg (by decide),toI16Small (by omega) (by omega)]
    omega

theorem rateSet (f : Mp2Frame bitRate) {s : Mp2Processor} {v : List U8} (agree : Agree v f.bytes 24)
    (some : v ≠ []) (other : f.bytes ≠ []) : s.setSampleRate (getMp2SampleRate v) = { s with sampleRate := f.rate } := by
  have read : getMp2SampleRate v = f.rate := (agreeRate agree some other).trans f.header
  rw [read,setSampleRate]
  split
  · rename_i same
    rw [← same]
  · rw [if_neg]
    rw [Mp2Frame.rate]
    split <;> decide

variable {f : Mp2Frame bitRate} {k i : Nat} {s : Mp2Processor} {lf : Int} {iBits : List Bool} (decoded : List DecodedFrame)

theorem bitRead (fits : Fits bitRate) (sized : Sized bitRate s) (reading : Reading f k s lf)
    (more : k + 1 < 8 * f.bytes.length) (bit : iBits.getD i false = byteBits f.bytes k) :
    ∃ s' lf', addBit iBits (s, lf, decoded) i = (s', lf', decoded) ∧ Sized bitRate s' ∧ Reading f (k + 1) s' lf' := by
  obtain ⟨least,most⟩ := fits
  obtain ⟨size,room⟩ := sized
  have bounds := frameBytes f
  have count : toI16 ((k : Int) + 1) = (k + 1 : Nat) := by rw [toI16Small (by omega) (by omega),Nat.cast_succ]
  cases reading with
  | sync early state ones =>
    rw [f.ones early] at bit
    simp only [addBit,state,bit,if_true,ones,count]
    by_cases last : k + 1 = 12
    · obtain ⟨agree,length⟩ := agreeOnes (v := s.mp2Frame) (fun i inside => f.ones inside) (by omega) 12 (le_refl 12)
      rw [last,if_pos (by rfl)]
      exact ⟨_,_,rfl,⟨size,length.trans room⟩,.header (le_refl 12) (by decide) rfl rfl agree⟩
    · rw [if_neg (by omega)]
      exact ⟨_,_,rfl,⟨size,room⟩,.sync (by omega) rfl rfl⟩
  | header synced early state stands agree =>
    have next := agreeNext agree (by omega)
    have length : (addBitToMp2 s.mp2Frame (byteBits f.bytes k) k).length = 48 * bitRate := by rw [addBitLength,room]
    simp only [addBit,state,bit,stands,count]
    by_cases last : k + 1 = 24
    · have some : addBitToMp2 s.mp2Frame (byteBits f.bytes k) k ≠ [] := ne_nil_of_length_pos (by omega)
      have other : f.bytes ≠ [] := ne_nil_of_length_pos (by omega)
      rw [if_pos (by rw [last]; rfl),rateSet f (last ▸ next) some other]
      exact ⟨_,_,rfl,⟨size,length⟩,.data (by omega) rfl rfl next rfl (frameLengthRight ⟨least,most⟩ size rfl)⟩
    · rw [if_neg (by omega)]
      exact ⟨_,_,rfl,⟨size,length⟩,.header (by omega) (by omega) rfl rfl next⟩
  | data known state stands agree rate total =>
    have next := agreeNext agree (by omega)
    have length : (addBitToMp2 s.mp2Frame (byteBits f.bytes k) k).length = 48 * bitRate := by rw [addBitLength,room]
    simp only [addBit,state,bit,stands,count]
    rw [if_neg (by omega)]
    exact ⟨_,_,rfl,⟨size,length⟩,.data (by omega) rfl rfl next rate total⟩

theorem lastBitRead (fits : Fits bitRate) (sized : Sized bitRate s) (reading : Reading f k s lf)
    (last : k + 1 = 8 * f.bytes.length) (bit : iBits.getD i false = byteBits f.bytes k) :
    ∃ s' lf' v, addBit iBits (s, lf, decoded) i = (s', lf', decoded ++ [⟨i,v⟩]) ∧ v.take f.bytes.length = f.bytes ∧
      Sized bitRate s' ∧ ∀ (g : Mp2Frame bitRate) (l : Int), Reading g 0 s' l := by
  obtain ⟨least,most⟩ := fits
  obtain ⟨size,room⟩ := sized
  have bounds := frameBytes f
  have count : toI16 ((k : Int) + 1) = (k + 1 : Nat) := by rw [toI16Small (by omega) (by omega),Nat.cast_succ]
  cases reading with
  | sync early state ones | header synced early state stands agree => omega
  | data known state stands agree rate total =>
    have next := agreeNext agree (by omega)
    have length : (addBitToMp2 s.mp2Frame (byteBits f.bytes k) k).length = 48 * bitRate := by rw [addBitLength,room]
    simp only [addBit,state,bit,stands,count]
    rw [if_pos (by omega)]
    exact ⟨_,_,_,rfl,agreeTake (last ▸ next) (by omega),⟨size,length⟩,fun g l => .sync (by decide) rfl rfl⟩

end Steps

section Calls

variable {bitRate : Nat} {f : Mp2Frame bitRate} {s : Mp2Processor} {start : Nat}

theorem partBit {i : Nat} (inside : i < 24 * bitRate) : (f.part start).getD i false = byteBits f.bytes (start + i) := by
  rw [Mp2Frame.part,getD_eq_getElem?_getD,List.getElem?_map,List.getElem?_range inside]
  rfl

theorem bitsRead (fits : Fits bitRate) (sized : Sized bitRate s) {lf : Int} (reading : Reading f start s lf) (n : Nat)
    (inside : n ≤ 24 * bitRate) (more : start + n < 8 * f.bytes.length) :
    ∃ s' lf', (range n).foldl (addBit (f.part start)) (s, lf, []) = (s', lf', []) ∧ Sized bitRate s' ∧ Reading f (start + n) s' lf' := by
  induction n with
  | zero => exact ⟨s,lf,rfl,sized,reading⟩
  | succ n ih =>
    obtain ⟨t,l,walked,fine,here⟩ := ih (by omega) (by omega)
    rw [range_succ,foldl_append,walked]
    exact bitRead [] fits fine here more (partBit (by omega))

theorem callReads (fits : Fits bitRate) (sized : Sized bitRate s) (reading : Reading f start s s.frameLength)
    (more : start + 24 * bitRate < 8 * f.bytes.length) :
    (s.addToFrame (f.part start)).2 = [] ∧ Sized bitRate (s.addToFrame (f.part start)).1 ∧
      ∃ lf, Reading f (start + 24 * bitRate) (s.addToFrame (f.part start)).1 lf := by
  obtain ⟨t,l,walked,fine,here⟩ := bitsRead fits sized reading (24 * bitRate) (le_refl _) more
  have amount : s.mp2FrameSize.toNat = 24 * bitRate := by rw [sized.1]; omega
  rw [addToFrame,amount,walked]
  exact ⟨rfl,fine,l,here⟩

theorem callDecodes (fits : Fits bitRate) (sized : Sized bitRate s) (reading : Reading f start s s.frameLength)
    (last : start + 24 * bitRate = 8 * f.bytes.length) :
    ∃ d, (s.addToFrame (f.part start)).2 = [d] ∧ f.DecodedBy d ∧ Sized bitRate (s.addToFrame (f.part start)).1 ∧
      ∀ (g : Mp2Frame bitRate) (l : Int), Reading g 0 (s.addToFrame (f.part start)).1 l := by
  have some := fits.1
  obtain ⟨n,whole⟩ : ∃ n, 24 * bitRate = n + 1 := ⟨24 * bitRate - 1,by omega⟩
  obtain ⟨t,l,walked,fine,here⟩ := bitsRead fits sized reading n (by omega) (by omega)
  obtain ⟨u,m,v,step,taken,small,ready⟩ := lastBitRead [] fits fine here (by omega) (partBit (by omega))
  have amount : s.mp2FrameSize.toNat = n + 1 := by rw [sized.1]; omega
  rw [addToFrame,amount,range_succ,foldl_append,walked,foldl_cons,step]
  exact ⟨⟨n,v⟩,rfl,⟨whole.symm,taken⟩,small,ready⟩

end Calls

section Runs

variable {bitRate : Nat}

theorem framesRead (fits : Fits bitRate) (frames : List (Mp2Frame bitRate)) (s : Mp2Processor) (sized : Sized bitRate s)
    (ready : ∀ (g : Mp2Frame bitRate) (l : Int), Reading g 0 s l) : Decoded frames (s.run (frames.flatMap Mp2Frame.calls)) := by
  induction frames generalizing s with
  | nil => exact .nil
  | cons f frames ih =>
    have length := f.length
    have some := fits.1
    cases kind : f.mpeg2 with
    | false =>
      simp only [kind,Bool.false_eq_true,if_false] at length
      obtain ⟨d,passed,right,fine,free⟩ := callDecodes fits sized (ready f _) (by omega)
      simp only [flatMap_cons,Mp2Frame.calls,kind,Bool.false_eq_true,if_false,singleton_append,run,passed]
      exact .mpeg1 kind right (ih _ fine free)
    | true =>
      simp only [kind,if_true] at length
      obtain ⟨none,half,l,here⟩ := callReads fits sized (ready f _) (by omega)
      have again : Reading f (24 * bitRate) (s.addToFrame (f.part 0)).1 (s.addToFrame (f.part 0)).1.frameLength := by
        rw [Nat.zero_add] at here
        cases here with
        | sync early | header _ early => omega
        | data known state count agree rate _ => exact .data known state count agree rate (frameLengthRight fits half.1 rate)
      obtain ⟨d,passed,right,fine,free⟩ := callDecodes fits half again (by omega)
      simp only [flatMap_cons,Mp2Frame.calls,kind,if_true,cons_append,nil_append,run,none,passed]
      exact .mpeg2 kind right (ih _ fine free)

theorem framesDecoded (bitRate : Nat) (rate : bitRate ∈ bitrates) (frames : List (Mp2Frame bitRate)) :
    Decoded frames ((new bitRate).run (frames.flatMap Mp2Frame.calls)) := by
  have fits := bitrateFits rate
  have size : toI16 (24 * (bitRate : Int)) = 24 * bitRate := toI16Small (by omega) (by have := fits.2; omega)
  apply framesRead fits
  · constructor
    · rw [new,size]
    · rw [new,size,length_replicate]
      omega
  · exact fun g l => .sync (by decide) rfl rfl

def mpeg1Frame : Mp2Frame 32 :=
  ⟨false,[0xFF#8,0xFC#8,0x14#8] ++ replicate 93 0xFF#8,by rw [List.length_append,List.length_replicate]; rfl,by decide⟩

def mpeg2Frame : Mp2Frame 32 :=
  ⟨true,[0xFF#8,0xF4#8,0x44#8] ++ replicate 189 0x00#8,by rw [List.length_append,List.length_replicate]; rfl,by decide⟩

theorem framesDecodedMixed : 32 ∈ bitrates ∧ Decoded [mpeg1Frame,mpeg2Frame,mpeg1Frame]
    ((new (32 : Nat)).run ([mpeg1Frame,mpeg2Frame,mpeg1Frame].flatMap Mp2Frame.calls)) := ⟨by decide,framesDecoded 32 (by decide) _⟩

end Runs

end DabStar.Mp2Processor
