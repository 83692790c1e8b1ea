import DabStar.MotBounds
import DabStar.Lib.BitFields

/-! The header of a MOT object as it is transmitted. The pointer of set_header goes from
parameter to parameter as long as none that is only named in _process_parameter_id has a length
field. -/
namespace DabStar.MotObject
open List Lib.BitFields

inductive ParameterData where
  | none
  | one (byte : U8)
  | four (first second third fourth : U8)
  | short (data : List U8) (fits : data.length < 128)
  | long (data : List U8) (fits : data.length < 32768)
  deriving DecidableEq, Repr

structure Parameter where
  paramId : BitVec 6
  data : ParameterData
  deriving DecidableEq, Repr

namespace Parameter

def indicated (indicator : BitVec 2) (p : Parameter) : U8 := indicator ++ p.paramId

def bytes (p : Parameter) : List U8 :=
  match p.data with
  | .none => [indicated 0#2 p]
  | .one byte => [indicated 1#2 p,byte]
  | .four first second third fourth => [indicated 2#2 p,first,second,third,fourth]
  | .short data _ => [indicated 3#2 p,BitVec.ofNat 8 data.length] ++ data
  | .long data _ => [indicated 3#2 p,BitVec.ofNat 8 (128 + data.length / 256),BitVec.ofNat 8 (data.length % 256)] ++ data

def content (p : Parameter) : List U8 :=
  match p.data with
  | .none => []
  | .one byte => [byte]
  | .four first second third fourth => [first,second,third,fourth]
  | .short data _ => data
  | .long data _ => data

def hasLength (p : Parameter) : Bool :=
  match p.data with
  | .short _ _ => true
  | .long _ _ => true
  | _ => false

def isName (p : Parameter) : Bool := p.paramId = 0x0C#6

def isListed (p : Parameter) : Bool := p.paramId.toNat ∈ [0x02,0x03,0x04,0x05,0x06,0x07,0x08,0x0A,0x0B,0x0F]

def text (p : Parameter) : List U8 := p.content.drop 1

end Parameter

structure MotHeader where
  core : BitVec 56
  parameters : List Parameter
  sized : (core.extractLsb' 15 13).toNat = 7 + (parameters.flatMap Parameter.bytes).length
  deriving DecidableEq

def coreBytes (core : BitVec 56) : List U8 := (range 7).map fun i => core.extractLsb' (48 - 8 * i) 8

def starts : Nat → List Parameter → List Nat
  | _, [] => []
  | pointer, p :: rest => pointer :: starts (pointer + p.bytes.length) rest

def lastName (parameters : List Parameter) : List U8 := ((parameters.filter Parameter.isName).getLast?.map Parameter.text).getD []

namespace MotHeader
variable (h : MotHeader)

def bytes : List U8 := coreBytes h.core ++ h.parameters.flatMap Parameter.bytes

def size : Nat := 7 + (h.parameters.flatMap Parameter.bytes).length

end MotHeader

theorem extractNumber (data : List U8) (bitOffset : Nat) {numBits : Nat} (some : 0 < numBits) :
    extractBitsFromByteStream data bitOffset numBits = number (byteBits data) bitOffset numBits := by
  have count : 8 * ((bitOffset + numBits - 1) / 8 + 1 - bitOffset / 8) =
      bitOffset % 8 + numBits + (((bitOffset + numBits - 1) / 8 + 1) * 8 - (bitOffset + numBits)) := by omega
  have offset : 8 * (bitOffset / 8) + bitOffset % 8 = bitOffset := by omega
  rw [extractBitsFromByteStream,bytesNumber,count,numberCut,offset]

theorem coreWritten (core : BitVec 56) (behind : List U8) : Written (byteBits (coreBytes core ++ behind)) 0 (field core) := by
  intro i inside
  rw [fieldLength] at inside
  have byte : i / 8 < 7 := by omega
  have place : 55 - i = 48 - 8 * (i / 8) + (7 - i % 8) := by omega
  have low : i % 8 < 8 := by omega
  have high : 7 - i % 8 < 8 := by omega
  rw [Nat.zero_add,fieldBit core inside,byteBits,getD_append _ _ _ _ (by simpa [coreBytes] using byte)]
  simp [coreBytes,byte,BitVec.getMsbD,inside,low,high,place]

theorem headerSizeRead (h : MotHeader) (behind : List U8) : (readHeaderCore (h.bytes ++ behind)).headerSize = h.size := by
  have part := fieldPart (coreWritten h.core (h.parameters.flatMap Parameter.bytes ++ behind)) 28 13 (by decide)
  have size := h.sized
  rw [BitVec.extractLsb'_toNat,Nat.shiftRight_eq_div_pow] at size
  have read := extractNumber (h.bytes ++ behind) 28 (show 0 < 13 by decide)
  rw [MotHeader.bytes,append_assoc] at read ⊢
  exact read.trans (part.trans size)

namespace Parameter

def step (p : Parameter) : Nat := if p.isListed && p.hasLength then p.bytes.length - p.content.length else p.bytes.length

def named (name : List U8) (p : Parameter) : List U8 := if p.isName && p.hasLength then p.text else name

end Parameter

theorem indicatedFirst (id : BitVec 6) : ∀ indicator : BitVec 2, ((indicator ++ id).toNat &&& 0xC0) >>> 6 = indicator.toNat ∧
    (indicator ++ id).toNat &&& 0x3F = id.toNat := by
  revert id
  decide

theorem shortLength : ∀ n < 128, n % 256 &&& 0x80 = 0 ∧ n % 256 &&& 0x7F = n := by decide

theorem longLength : ∀ n < 128, ¬ (128 + n) % 256 &&& 0x80 = 0 ∧ (128 + n) % 256 &&& 0x7F = n := by decide

theorem behindFront (front own rest : List U8) {i : Nat} (inside : i < own.length) :
    (front ++ (own ++ rest)).getD (front.length + i) 0#8 = own.getD i 0#8 := by
  rw [getD_append_right _ _ _ _ (by omega),Nat.add_sub_cancel_left,getD_append _ _ _ _ inside]

theorem parameterRead (front data rest : List U8) (name : List U8) (id : BitVec 6) :
    processParameterId (front ++ (data ++ rest)) name front.length id.toNat data.length = (if id = 0x0C#6 then data.drop 1 else name,
        front.length + if id.toNat ∈ [0x02,0x03,0x04,0x05,0x06,0x07,0x08,0x0A,0x0B,0x0F] then 0 else data.length) := by
  have isName : id.toNat = 0x0C ↔ id = 0x0C#6 := by rw [← BitVec.toNat_inj]; rfl
  unfold processParameterId
  by_cases content : id = 0x0C#6
  · rw [if_pos (isName.mpr content),if_pos content,content]
    have text : (range (data.length - 1)).map (fun i => (front ++ (data ++ rest)).getD (front.length + i + 1) 0#8) = data.drop 1 := by
      refine ext_getElem (by simp) fun i first second => ?_
      have inside : i + 1 < data.length := by simp at first; omega
      rw [getElem_map,getElem_range,Nat.add_assoc,behindFront front data rest inside,getElem_drop,getD_eq_getElem _ _ inside]
      simp only [Nat.add_comm]
    rw [text]
    rfl
  · rw [if_neg (isName.not.mpr content),if_neg content]
    split <;> rfl

theorem extensionRead (front rest name : List U8) (p : Parameter) :
    processHeaderExtension (front ++ (p.bytes ++ rest)) name front.length = (p.named name, front.length + p.step) := by
  obtain ⟨id,data⟩ := p
  have indicator := indicatedFirst id
  cases data with
  | none | one | four => simp [processHeaderExtension,Parameter.bytes,Parameter.indicated,Parameter.named,Parameter.step,Parameter.hasLength,indicator]
  | short data fits =>
    obtain ⟨clear,length⟩ := shortLength data.length fits
    have read := parameterRead (front ++ [(3#2 ++ id : U8),BitVec.ofNat 8 data.length]) data rest name id
    simp only [append_assoc,cons_append,nil_append,length_append,length_cons,length_nil,Nat.reduceAdd] at read
    simp [processHeaderExtension,Parameter.bytes,Parameter.indicated,indicator,clear,length,read,Parameter.named,Parameter.step,
      Parameter.hasLength,Parameter.isName,Parameter.isListed,Parameter.text,Parameter.content]
    split <;> omega
  | long data fits =>
    obtain ⟨set,high⟩ := longLength (data.length / 256) (by omega)
    have length : (data.length / 256) <<< 8 ||| data.length % 256 = data.length := by
      rw [← Nat.shiftLeft_add_eq_or_of_lt (Nat.mod_lt _ (by decide)),Nat.shiftLeft_eq]
      omega
    have read := parameterRead (front ++ [(3#2 ++ id : U8),BitVec.ofNat 8 (128 + data.length / 256),BitVec.ofNat 8 (data.length % 256)])
      data rest name id
    simp only [append_assoc,cons_append,nil_append,length_append,length_cons,length_nil,Nat.reduceAdd] at read
    simp [processHeaderExtension,Parameter.bytes,Parameter.indicated,indicator,set,high,length,read,Parameter.named,Parameter.step,
      Parameter.hasLength,Parameter.isName,Parameter.isListed,Parameter.text,Parameter.content]
    split <;> omega

theorem stepBounds (p : Parameter) : 1 ≤ p.step ∧ p.step ≤ p.bytes.length ∧
    (p.step = p.bytes.length ↔ (p.isListed && p.hasLength) = false ∨ p.content = []) := by
  have whole : 1 + p.content.length ≤ p.bytes.length := by
    obtain ⟨id,data⟩ := p
    cases data <;> simp [Parameter.bytes,Parameter.content] <;> omega
  have empty : p.content = [] ↔ p.content.length = 0 := length_eq_zero_iff.symm
  unfold Parameter.step
  rw [empty]
  cases p.isListed && p.hasLength with
  | true =>
    simp only [if_true,Bool.true_eq_false,false_or]
    omega
  | false => exact ⟨by simp; omega,le_refl _,iff_of_true rfl (.inl rfl)⟩

theorem walkPassed (rest : List Parameter) (passed : ∀ p ∈ rest, p.step = p.bytes.length) :
    ∀ (front behind name : List U8) (fuel : Nat), (rest.flatMap Parameter.bytes).length < fuel →
      headerExtensions (front ++ (rest.flatMap Parameter.bytes ++ behind)) (front.length + (rest.flatMap Parameter.bytes).length) fuel
        (name, front.length) = (rest.foldl Parameter.named name, front.length + (rest.flatMap Parameter.bytes).length) ∧
      parameterPositions (front ++ (rest.flatMap Parameter.bytes ++ behind)) (front.length + (rest.flatMap Parameter.bytes).length) fuel
        (name, front.length) = starts front.length rest := by
  induction rest with
  | nil =>
    intro front behind name fuel enough
    cases fuel with
    | zero => omega
    | succ fuel => simp [headerExtensions,parameterPositions,starts]
  | cons p rest ih =>
    intro front behind name fuel enough
    obtain ⟨moves,_,_⟩ := stepBounds p
    have whole := passed p mem_cons_self
    rw [flatMap_cons,length_append] at enough ⊢
    cases fuel with
    | zero => omega
    | succ fuel =>
      have read := extensionRead front (rest.flatMap Parameter.bytes ++ behind) name p
      obtain ⟨walked,visited⟩ := ih (fun q member => passed q (mem_cons_of_mem p member)) (front ++ p.bytes) behind (p.named name) fuel
        (by omega)
      simp only [length_append,append_assoc,Nat.add_assoc] at walked visited
      have inside : front.length < front.length + (p.bytes.length + (rest.flatMap Parameter.bytes).length) := by omega
      rw [whole] at read
      simp only [headerExtensions,parameterPositions,append_assoc,inside,if_true,read,starts,foldl_cons]
      exact ⟨walked,by rw [visited]⟩

theorem walkExact (rest : List Parameter) : ∀ (front behind name : List U8) (fuel : Nat), (rest.flatMap Parameter.bytes).length < fuel →
    parameterPositions (front ++ (rest.flatMap Parameter.bytes ++ behind)) (front.length + (rest.flatMap Parameter.bytes).length) fuel
      (name, front.length) = starts front.length rest → ∀ p ∈ rest, p.step = p.bytes.length := by
  induction rest with
  | nil => exact fun _ _ _ _ _ _ p member => nomatch member
  | cons p rest ih =>
    intro front behind name fuel enough visited
    obtain ⟨moves,most,_⟩ := stepBounds p
    rw [flatMap_cons,length_append] at enough visited
    cases fuel with
    | zero => omega
    | succ fuel =>
      have read := extensionRead front (rest.flatMap Parameter.bytes ++ behind) name p
      have inside : front.length < front.length + (p.bytes.length + (rest.flatMap Parameter.bytes).length) := by omega
      simp only [parameterPositions,append_assoc,inside,if_true,read,starts,List.cons.injEq,true_and] at visited
      have whole : p.step = p.bytes.length := by
        by_contra left
        have again : front.length + p.step < front.length + (p.bytes.length + (rest.flatMap Parameter.bytes).length) := by omega
        obtain ⟨fuel,rfl⟩ : ∃ k, fuel = k + 1 := ⟨fuel - 1,by omega⟩
        rw [parameterPositions,if_pos again] at visited
        cases rest with
        | nil => cases visited
        | cons q rest =>
          rw [starts,List.cons.injEq] at visited
          have same := visited.1
          dsimp only at same
          omega
      rw [whole] at visited
      have onwards := ih (front ++ p.bytes) behind (p.named name) fuel (by omega)
      simp only [length_append,append_assoc,Nat.add_assoc] at onwards
      have later := onwards visited
      intro q member
      rcases mem_cons.mp member with rfl | other
      · exact whole
      · exact later q other

theorem namedLast (parameters : List Parameter) (name : List U8) : parameters.foldl Parameter.named name =
    (((parameters.filter Parameter.hasLength).filter Parameter.isName).getLast?.map Parameter.text).getD name := by
  induction parameters generalizing name with
  | nil => rfl
  | cons p rest ih =>
    rw [foldl_cons,ih]
    by_cases length : p.hasLength = true
    · by_cases content : p.isName = true
      · simp only [Parameter.named,length,content,Bool.and_self,if_true,filter_cons,List.getLast?_cons]
        cases ((rest.filter Parameter.hasLength).filter Parameter.isName).getLast? <;> rfl
      · simp [Parameter.named,length,content]
    · simp [Parameter.named,length]

/- No parameter that is only listed has data behind a length field, and the last content
name is one that has a length field, or says the same. -/
structure Walkable (parameters : List Parameter) : Prop where
  stepped : ∀ p ∈ parameters, (p.isListed && p.hasLength) = false ∨ p.content = []
  named : lastName (parameters.filter Parameter.hasLength) = lastName parameters

instance (l : List Parameter) : Decidable (Walkable l) :=
  decidable_of_iff ((∀ p ∈ l, (p.isListed && p.hasLength) = false ∨ p.content = []) ∧ lastName (l.filter Parameter.hasLength) = lastName l)
    ⟨fun both => ⟨both.1,both.2⟩,fun walkable => ⟨walkable.1,walkable.2⟩⟩

structure HeaderRead (h : MotHeader) (segment : List U8) (object : MotObject) : Prop where
  visited : parameters segment = starts 7 h.parameters
  ends : (headerExtensions segment h.size h.size ([], 7)).2 = h.size
  named : object.mName = lastName h.parameters

theorem headerReadExact (h : MotHeader) (behind : List U8) (isDirElement isPadElement : Bool) (transportId : Int) :
    HeaderRead h (h.bytes ++ behind) ((newMotObject isDirElement isPadElement).setHeader (h.bytes ++ behind) transportId).1 ↔
      Walkable h.parameters := by
  have core : (coreBytes h.core).length = 7 := by simp [coreBytes]
  have size := headerSizeRead h behind
  have enough : (h.parameters.flatMap Parameter.bytes).length < h.size := by
    unfold MotHeader.size
    omega
  have segment : h.bytes ++ behind = coreBytes h.core ++ (h.parameters.flatMap Parameter.bytes ++ behind) := append_assoc _ _ _
  have name : ((newMotObject isDirElement isPadElement).setHeader (h.bytes ++ behind) transportId).1.mName = readName (h.bytes ++ behind) [] := by
    unfold setHeader newMotObject reset
    split <;> rfl
  have positions : parameters (h.bytes ++ behind) = parameterPositions (h.bytes ++ behind) h.size h.size ([], 7) := by rw [parameters,size]
  have exactly := walkExact h.parameters (coreBytes h.core) behind [] h.size enough
  have passed (stepped) := walkPassed h.parameters stepped (coreBytes h.core) behind [] h.size enough
  rw [← segment,core] at exactly passed
  constructor
  · intro read
    have stepped := exactly (positions.symm.trans read.visited)
    refine ⟨fun p member => (stepBounds p).2.2.mp (stepped p member),?_⟩
    have given := read.named
    rw [name,readName,size] at given
    rw [← given,lastName,← namedLast]
    exact congrArg Prod.fst (passed stepped).1.symm
  · intro walkable
    have stepped : ∀ p ∈ h.parameters, p.step = p.bytes.length := fun p member => (stepBounds p).2.2.mpr (walkable.stepped p member)
    obtain ⟨walked,visited⟩ := passed stepped
    refine ⟨positions.trans visited,congrArg Prod.snd walked,?_⟩
    rw [name,readName,size,← walkable.named,lastName,← namedLast]
    exact congrArg Prod.fst walked

def triggeredHeader : MotHeader :=
  ⟨0x0000000070401#56,[⟨0x05#6,.short [0x42#8] (by decide)⟩,⟨0x0C#6,.short [0x40#8,0x41#8] (by decide)⟩],by decide⟩

theorem triggeredHeaderMisread : parameters triggeredHeader.bytes = [7,9,11,12] ∧ starts 7 triggeredHeader.parameters = [7,10] ∧
    ((newMotObject false true).setHeader triggeredHeader.bytes 1).1.mName = [] ∧ lastName triggeredHeader.parameters = [0x41#8] := by decide

end DabStar.MotObject
