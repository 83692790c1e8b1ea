import DabStar.EpgTermination

/-! Texts of the EPG, with tokens for their strings. The token table takes the tags up to 16,
the expansion looks up the bytes below 16 and has its own path for a single byte. -/
namespace DabStar.EpgDecoder
open List

inductive LengthCode where
  | one
  | two
  | three
  deriving DecidableEq, Repr

def LengthCode.limit : LengthCode → Nat
  | one => 0xFE
  | two => 65536
  | three => 16777216

structure Coded where
  code : LengthCode
  tag : U8
  data : List U8
  fits : data.length < code.limit
  deriving DecidableEq, Repr

namespace Coded

def head (e : Coded) : List U8 :=
  match e.code with
  | .one => [e.tag,BitVec.ofNat 8 e.data.length]
  | .two => [e.tag,0xFE#8,BitVec.ofNat 8 (e.data.length / 256),BitVec.ofNat 8 e.data.length]
  | .three => [e.tag,0xFF#8,BitVec.ofNat 8 (e.data.length / 65536),BitVec.ofNat 8 (e.data.length / 256),BitVec.ofNat 8 e.data.length]

def bytes (e : Coded) : List U8 := e.head ++ e.data

theorem headLong (e : Coded) : 2 ≤ e.head.length := by
  obtain ⟨code,tag,data,fits⟩ := e
  cases code <;> simp [head]

def Single (e : Coded) : Prop := e.code = .one ∧ e.data.length = 1
  deriving Decidable

end Coded

structure ReadAs (v : List U8) (index : Nat) (e : Coded) : Prop where
  tag : byte v index = e.tag.toNat
  start : startOf v index = index + e.head.length
  length : lengthOf v index = e.data.length
  data : bytesFrom v (startOf v index) (lengthOf v index) = e.data
  first : byte v (index + 1) = 1 ↔ e.Single

theorem bytesBehind (front data rest : List U8) : bytesFrom (front ++ (data ++ rest)) front.length data.length = data := by
  refine ext_getElem (by simp [bytesFrom]) fun i first second => ?_
  simp [bytesFrom,List.getElem?_append_right,List.getElem?_append_left second,List.getElem?_eq_getElem second]

theorem codedRead (front rest : List U8) (e : Coded) : ReadAs (front ++ (e.bytes ++ rest)) front.length e := by
  obtain ⟨code,tag,data,fits⟩ := e
  have behind := bytesBehind (front ++ Coded.head ⟨code,tag,data,fits⟩) data rest
  rw [append_assoc,← append_assoc _ data rest,length_append] at behind
  suffices read : byte (front ++ (Coded.bytes ⟨code,tag,data,fits⟩ ++ rest)) front.length = tag.toNat ∧
      startOf (front ++ (Coded.bytes ⟨code,tag,data,fits⟩ ++ rest)) front.length = front.length + (Coded.head ⟨code,tag,data,fits⟩).length ∧
      lengthOf (front ++ (Coded.bytes ⟨code,tag,data,fits⟩ ++ rest)) front.length = data.length ∧
      (byte (front ++ (Coded.bytes ⟨code,tag,data,fits⟩ ++ rest)) (front.length + 1) = 1 ↔ Coded.Single ⟨code,tag,data,fits⟩) by
    obtain ⟨first,start,length,single⟩ := read
    exact ⟨first,start,length,by rw [start,length]; exact behind,single⟩
  cases code with
  | one =>
    have small : data.length % 256 = data.length := Nat.mod_eq_of_lt (Nat.lt_trans fits (by decide))
    have short : data.length < 254 := fits
    simp only [byte,startOf,lengthOf,Coded.bytes,Coded.head,Coded.Single]
    simp [small,short.ne,(short.trans (by decide : 254 < 255)).ne]
  | two =>
    have small : data.length < 65536 := fits
    have number : (data.length / 256 % 256) <<< 8 ||| data.length % 256 = data.length := by
      rw [← Nat.shiftLeft_add_eq_or_of_lt (Nat.mod_lt _ (by decide)),Nat.shiftLeft_eq]
      omega
    simp only [byte,startOf,lengthOf,Coded.bytes,Coded.head,Coded.Single]
    simp [number]
  | three =>
    have small : data.length < 16777216 := fits
    have number : (data.length / 65536 % 256) <<< 16 ||| (data.length / 256 % 256) <<< 8 ||| data.length % 256 = data.length := by
      have low : (data.length / 256 % 256) <<< 8 ||| data.length % 256 = data.length / 256 % 256 * 256 + data.length % 256 := by
        rw [← Nat.shiftLeft_add_eq_or_of_lt (Nat.mod_lt _ (by decide)),Nat.shiftLeft_eq]
      rw [Nat.lor_assoc,low,← Nat.shiftLeft_add_eq_or_of_lt (by omega),Nat.shiftLeft_eq]
      omega
    simp only [byte,startOf,lengthOf,Coded.bytes,Coded.head,Coded.Single]
    simp [number]

def define (table : List Text) (token : Coded) : List Text :=
  if token.tag.toNat ≤ 16 then table.set token.tag.toNat (fromUtf8 token.data) else table

def tableOf (tokens : List Coded) : List Text := tokens.foldl define (replicate 20 [0x20#8])

def definition (tokens : List Coded) (c : U8) : Option Text := (tokens.reverse.find? fun token => token.tag = c).map fun token => fromUtf8 token.data

theorem tokenDefined (front rest : List U8) (token : Coded) (s : EpgState) :
    s.processAttribute (front ++ (token.bytes ++ rest)) .token front.length = { s with stringTable := define s.stringTable token } := by
  have read := codedRead front rest token
  unfold EpgState.processAttribute define
  dsimp only
  rw [read.tag,read.data]
  split <;> rfl

section
variable (tokens : List Coded)

theorem tokensDefined : ∀ (front rest : List U8) (s : EpgState) (fuel : Nat), tokens.length < fuel →
    run (front ++ (tokens.flatMap Coded.bytes ++ rest)) fuel .tokenTable (front.length + (tokens.flatMap Coded.bytes).length) front.length s =
      some { s with stringTable := tokens.foldl define s.stringTable } := by
  induction tokens with
  | nil =>
    intro front rest s fuel enough
    obtain ⟨fuel,rfl⟩ : ∃ k, fuel = k + 1 := ⟨fuel - 1,by omega⟩
    have same : s.p.map (fun d => d.setText .tokenTable [0x65#8,0x72#8,0x72#8,0x6F#8,0x72#8]) = s.p := by
      cases s.p <;> rfl
    simp [run,EpgState.finish,EpgState.setText,same]
  | cons token tokens ih =>
    intro front rest s fuel enough
    obtain ⟨fuel,rfl⟩ : ∃ k, fuel = k + 1 := ⟨fuel - 1,by omega⟩
    have read := codedRead front (tokens.flatMap Coded.bytes ++ rest) token
    have defined := tokenDefined front (tokens.flatMap Coded.bytes ++ rest) token s
    have onwards := ih (front ++ token.bytes) rest { s with stringTable := define s.stringTable token } fuel (by simpa using enough)
    have size : token.bytes.length = token.head.length + token.data.length := length_append
    have inside : front.length < front.length + ((token :: tokens).flatMap Coded.bytes).length := by
      rw [flatMap_cons,length_append,size]
      have named := token.headLong
      omega
    have behind : endPoint (front ++ (token.bytes ++ (tokens.flatMap Coded.bytes ++ rest))) front.length = front.length + token.bytes.length := by
      rw [endPoint,read.start,read.length,size,Nat.add_assoc]
    rw [runAttribute inside (a := .token) rfl,flatMap_cons,append_assoc,behind,defined,length_append]
    simpa only [length_append,append_assoc,Nat.add_assoc,foldl_cons] using onwards

theorem tableAppend (token : Coded) : tableOf (tokens ++ [token]) = define (tableOf tokens) token := by
  rw [tableOf,foldl_append]
  rfl

theorem tableLength : (tableOf tokens).length = 20 := by
  induction tokens using List.reverseRecOn with
  | nil => rfl
  | append_singleton tokens token ih =>
    rw [tableAppend,define]
    split
    · rw [length_set,ih]
    · exact ih

theorem definitionAppend (token : Coded) (c : U8) :
    definition (tokens ++ [token]) c = if token.tag = c then some (fromUtf8 token.data) else definition tokens c := by
  rw [definition,reverse_append,reverse_singleton,singleton_append,List.find?_cons]
  by_cases same : token.tag = c
  · simp [same]
  · simp [same,definition]

theorem tableDefined {c : U8} (small : c.toNat ≤ 16) : (tableOf tokens).getD c.toNat [] = (definition tokens c).getD [0x20#8] := by
  induction tokens using List.reverseRecOn with
  | nil =>
    have slot : c.toNat < 20 := by omega
    rw [tableOf,foldl_nil,getD_eq_getElem?_getD,List.getElem?_replicate_of_lt slot]
    rfl
  | append_singleton tokens token ih =>
    have slot : c.toNat < (tableOf tokens).length := by rw [tableLength]; omega
    rw [tableAppend,definitionAppend,define]
    by_cases same : token.tag = c
    · rw [same,if_pos small,if_pos rfl,getD_eq_getElem?_getD,List.getElem?_set_self slot]
      rfl
    · have other : token.tag.toNat ≠ c.toNat := fun equal => same (BitVec.eq_of_toNat_eq equal)
      rw [if_neg same,← ih]
      split
      · rw [getD_eq_getElem?_getD,List.getElem?_set_ne other,← getD_eq_getElem?_getD]
      · rfl

end

section Texts
variable (tokens : List Coded) {c : U8}

def expanded (data : List U8) : Text := fromUtf8 (data.flatMap fun c => (definition tokens c).getD [c])

def Right (e : Coded) : Prop :=
  ∀ front rest : List U8, getCData (front ++ (e.bytes ++ rest)) (tableOf tokens) front.length = expanded tokens e.data

def Agrees (c : U8) : Prop :=
  if c.toNat < 16 then (definition tokens c).isSome = true else definition tokens c = none ∨ definition tokens c = some [c]
  deriving Decidable

def SingleAgrees (c : U8) : Prop :=
  if c.toNat < 16 then (definition tokens c).isSome = true else definition tokens c = some []
  deriving Decidable

def piece (c : U8) : Text := if c.toNat < 16 then (definition tokens c).getD [0x20#8] else [c]

variable {tokens}

theorem cDataRead {e : Coded} (tagged : e.tag = 0x01#8) (front rest : List U8) :
    getCData (front ++ (e.bytes ++ rest)) (tableOf tokens) front.length =
      if e.Single then e.data.flatMap fun c => if c.toNat < 16 then (definition tokens c).getD [0x20#8] else []
      else fromUtf8 (e.data.flatMap (piece tokens)) := by
  have read := codedRead front rest e
  have lookup : ∀ c : U8, c.toNat < 16 → (tableOf tokens).getD c.toNat [] = (definition tokens c).getD [0x20#8] :=
    fun c small => tableDefined tokens (by omega)
  unfold getCData
  rw [read.tag,tagged,if_neg (by decide)]
  by_cases single : e.Single
  · obtain ⟨c,only⟩ := length_eq_one_iff.mp single.2
    have data := read.data
    have short : e.head.length = 2 := by rw [Coded.head,single.1]; rfl
    rw [read.length,read.start,short,only] at data
    have there : byte (front ++ (e.bytes ++ rest)) (front.length + 2) = c.toNat := congrArg BitVec.toNat (List.cons.inj data).1
    rw [if_pos (read.first.mpr single),if_pos single,there,only,flatMap_singleton]
    split
    · rename_i small
      exact lookup c small
    · rfl
  · rw [if_neg (read.first.not.mpr single),if_neg single,read.data]
    congr 1
    refine flatMap_congr fun c _ => ?_
    unfold piece
    split
    · rename_i small
      exact lookup c small
    · rfl

theorem definitionClean {text : Text} (defined : definition tokens c = some text) : ∀ b ∈ text, b ≠ 0#8 := by
  obtain ⟨token,-,rfl⟩ := Option.map_eq_some_iff.mp defined
  intro b member
  unfold fromUtf8 at member
  have passed := mem_takeWhile_imp member
  exact of_decide_eq_true passed

theorem cleanText {text : List U8} (clean : ∀ b ∈ text, b ≠ 0#8) : fromUtf8 text = text :=
  takeWhile_eq_self_iff.mpr fun b member => decide_eq_true (clean b member)

theorem cleanAppend {front : List U8} (clean : ∀ b ∈ front, b ≠ 0#8) (text : List U8) : fromUtf8 (front ++ text) = front ++ fromUtf8 text :=
  takeWhile_append_of_pos fun b member => decide_eq_true (clean b member)

theorem plainByte (large : ¬ c.toNat < 16) : ∀ b ∈ [c], b ≠ 0#8 := by
  intro b member
  rw [mem_singleton.mp member]
  rintro rfl
  exact large (by decide)

theorem blankOther (small : c.toNat < 16) : [0x20#8] ≠ fromUtf8 [c] := by
  intro blank
  have member : 0x20#8 ∈ fromUtf8 [c] := blank ▸ mem_singleton.mpr rfl
  have here := mem_singleton.mp ((takeWhile_sublist _).subset member)
  rw [← here] at small
  exact absurd small (by decide)

theorem agreesPiece (agrees : Agrees tokens c) : piece tokens c = (definition tokens c).getD [c] ∧ ∀ b ∈ piece tokens c, b ≠ 0#8 := by
  unfold Agrees at agrees
  unfold piece
  split at agrees
  · rename_i small
    obtain ⟨text,defined⟩ := Option.isSome_iff_exists.mp agrees
    rw [if_pos small,defined]
    exact ⟨rfl,definitionClean defined⟩
  · rename_i large
    rw [if_neg large]
    rcases agrees with undefined | itself
    · rw [undefined]
      exact ⟨rfl,plainByte large⟩
    · rw [itself]
      exact ⟨rfl,plainByte large⟩

theorem pieceAgrees (same : fromUtf8 (piece tokens c) = fromUtf8 ((definition tokens c).getD [c])) : Agrees tokens c := by
  unfold piece at same
  unfold Agrees
  by_cases small : c.toNat < 16
  · rw [if_pos small] at same ⊢
    cases defined : definition tokens c with
    | some text => rfl
    | none =>
      rw [defined] at same
      exact absurd same (blankOther small)
  · rw [if_neg small] at same ⊢
    cases defined : definition tokens c with
    | none => exact .inl rfl
    | some text =>
      rw [defined,cleanText (plainByte small),Option.getD_some,cleanText (definitionClean defined)] at same
      exact .inr (congrArg some same.symm)

theorem singleRight {e : Coded} (tagged : e.tag = 0x01#8) (single : e.Single) (only : e.data = [c]) :
    Right tokens e ↔ SingleAgrees tokens c := by
  have text : Right tokens e ↔ (if c.toNat < 16 then (definition tokens c).getD [0x20#8] else []) = fromUtf8 ((definition tokens c).getD [c]) := by
    unfold Right expanded
    simp only [cDataRead tagged,if_pos single,only,flatMap_singleton]
    exact ⟨fun all => all [] [],fun one _ _ => one⟩
  rw [text]
  unfold SingleAgrees
  by_cases small : c.toNat < 16
  · rw [if_pos small,if_pos small]
    cases defined : definition tokens c with
    | some text => exact iff_of_true (cleanText (definitionClean defined)).symm rfl
    | none => exact iff_of_false (fun blank => blankOther small blank) Bool.false_ne_true
  · rw [if_neg small,if_neg small]
    cases defined : definition tokens c with
    | some text =>
      rw [Option.getD_some,cleanText (definitionClean defined),Option.some.injEq]
      exact eq_comm
    | none =>
      rw [Option.getD_none,cleanText (plainByte small)]
      exact iff_of_false (cons_ne_nil c []).symm (Option.some_ne_none []).symm

theorem agreesRight {data : List U8} (agrees : ∀ c ∈ data, Agrees tokens c) :
    data.flatMap (piece tokens) = (data.flatMap fun c => (definition tokens c).getD [c]) ∧ ∀ b ∈ data.flatMap (piece tokens), b ≠ 0#8 := by
  constructor
  · exact flatMap_congr fun c member => (agreesPiece (agrees c member)).1
  · intro b member
    obtain ⟨c,here,inside⟩ := mem_flatMap.mp member
    exact (agreesPiece (agrees c here)).2 b inside

theorem cDataExpanded (tokens : List Coded) :
    (∀ e : Coded, (∀ f : Coded, f.tag = 0x01#8 → ¬ f.Single → f.data <+: e.data → Right tokens f) ↔ ∀ c ∈ e.data, Agrees tokens c) ∧
    (∀ (e : Coded) (c : U8), e.tag = 0x01#8 → e.Single → e.data = [c] → (Right tokens e ↔ SingleAgrees tokens c)) := by
  refine ⟨fun e => ⟨fun right => ?_,fun agrees f tagged several inside front rest => ?_⟩,fun e c tagged single only => singleRight tagged single only⟩
  · have begins : ∀ data, data <+: e.data → ∀ c ∈ data, Agrees tokens c := by
      intro data
      induction data using List.reverseRecOn with
      | nil => exact fun _ c member => nomatch member
      | append_singleton data c ih =>
        intro inside
        have before := ih ((prefix_append data [c]).trans inside)
        obtain ⟨same,clean⟩ := agreesRight before
        have size : (data ++ [c]).length < LengthCode.three.limit := by
          have fits := e.fits
          have least := inside.length_le
          cases code : e.code <;> rw [code] at fits <;> unfold LengthCode.limit at fits ⊢ <;> dsimp only at fits ⊢ <;> omega
        have text := right ⟨.three,0x01#8,data ++ [c],size⟩ rfl (fun single => nomatch single.1) inside [] []
        rw [cDataRead rfl,if_neg (fun single => nomatch single.1),expanded,flatMap_append,flatMap_append,flatMap_singleton,
          flatMap_singleton,cleanAppend clean,← same,cleanAppend clean] at text
        intro b member
        rcases mem_append.mp member with old | new
        · exact before b old
        · rw [mem_singleton.mp new]
          exact pieceAgrees (append_cancel_left text)
    exact begins e.data (prefix_refl _)
  · obtain ⟨same,-⟩ := agreesRight fun c member => agrees c (inside.subset member)
    rw [cDataRead tagged,if_neg several,same]
    rfl

def theToken : Coded := ⟨.one,0x03#8,[0x54#8,0x68#8,0x65#8],by decide⟩
def theText : Coded := ⟨.one,0x01#8,[0x03#8,0x20#8,0x41#8],by decide⟩

theorem theTokenDefined : run (theToken.bytes ++ [0#8]) 2 .tokenTable 5 0 (newState 1 0 0) =
    some { newState 1 0 0 with stringTable := tableOf [theToken] } := tokensDefined [theToken] [] [0#8] (newState 1 0 0) 2 (by decide)

theorem theTextRight : Right [theToken] theText :=
  ((cDataExpanded [theToken]).1 theText).mpr (by decide) theText rfl (by decide) (prefix_refl _)

/- The letter A alone is lost, a byte without a token becomes a blank, the token 16 is
defined but not replaced. -/
theorem textsLost : getCData (Coded.bytes ⟨.one,0x01#8,[0x41#8],by decide⟩) (tableOf []) 0 = [] ∧ expanded [] [0x41#8] = [0x41#8] ∧
    getCData (Coded.bytes ⟨.one,0x01#8,[0x41#8,0x05#8],by decide⟩) (tableOf []) 0 = [0x41#8,0x20#8] ∧
      expanded [] [0x41#8,0x05#8] = [0x41#8,0x05#8] ∧
    getCData (Coded.bytes ⟨.one,0x01#8,[0x10#8,0x41#8],by decide⟩) (tableOf [⟨.one,0x10#8,[0x42#8],by decide⟩]) 0 = [0x10#8,0x41#8] ∧
      expanded [⟨.one,0x10#8,[0x42#8],by decide⟩] [0x10#8,0x41#8] = [0x42#8,0x41#8] := by decide

end Texts

end DabStar.EpgDecoder
