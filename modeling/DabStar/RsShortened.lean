import DabStar.RsCorrection

/-! The codec as the superframe code calls it, with 135 leading zeros that are not transmitted:
correction of up to five errors, and what a non-negative return value says about any received
word. -/
namespace DabStar.RsShortened
open GF256 ReedSolomon RsCode RsLocator RsCorrection Polynomial Finset
open List hiding range mem_range mem_filter forall_mem_map
open Galois (addPoly)
variable {i : ℕ}

section
variable (r : List U8)

theorem extendLength : (mRsDecoder.extend r 135).length = 255 := by
  rw [extend,length_append,length_replicate,length_map,length_range,codeLengthValue]

theorem extendShort {q : ℕ} (short : q < 135) : byteAt (mRsDecoder.extend r 135) q = 0 := by
  rw [byteAt,extend,getD_append _ _ _ _ (by simpa using short),getD_replicate _ short,ofByteZero]

theorem extendSent (sent : i < 120) : byteAt (mRsDecoder.extend r 135) (135 + i) = byteAt r i := by
  rw [byteAt,extend,getD_append_right _ _ _ _ (by simp),length_replicate,Nat.add_sub_cancel_left,
    codeLengthValue,getDMapRange _ _ _ (by omega),byteAt]

theorem dataPartLength (w : List U8) : (mRsDecoder.dataPart w 135).length = 110 := by
  rw [dataPart,length_map,length_range,codeLengthValue,nrootsValue]

theorem dataPartBytes (w : List U8) (small : i < 110) : byteAt (mRsDecoder.dataPart w 135) i = byteAt w (135 + i) := by
  rw [byteAt,dataPart,codeLengthValue,nrootsValue,getDMapRange _ _ _ (by omega),byteAt]

theorem decReturn : (mRsDecoder.dec r 135).1 = (mRsDecoder.decodeRs (mRsDecoder.extend r 135)).1 := by rw [dec]

theorem decBytes (small : i < 110) : byteAt (mRsDecoder.dec r 135).2 i =
    byteAt (mRsDecoder.decodeRs (mRsDecoder.extend r 135)).2 (135 + i) := by rw [dec,dataPartBytes _ small]

end

theorem encData (data : List U8) (small : i < 110) : byteAt (mRsDecoder.enc data 135) i = byteAt data i := by
  have inside : i < (mRsDecoder.dataPart (mRsDecoder.extend data 135) 135).length := by rwa [dataPartLength]
  rw [byteAt,enc,getD_append _ _ _ _ inside,← byteAt,dataPartBytes _ small,extendSent _ (by omega)]

theorem encCodeword (data : List U8) : Codeword (mRsDecoder.extend (mRsDecoder.enc data 135) 135) := by
  have length := extendLength data
  have code := encodeRsCodeword length
  have same : mRsDecoder.extend (mRsDecoder.enc data 135) 135 =
      (mRsDecoder.extend data 135).take 245 ++ mRsDecoder.encodeRs (mRsDecoder.extend data 135) := by
    refine wordEq (extendLength _) code.length fun q less => ?_
    by_cases parity : 245 ≤ q
    · obtain ⟨j,rfl⟩ : ∃ j, q = 135 + (110 + j) := ⟨q - 245,by omega⟩
      rw [extendSent _ (by omega),byteAt,enc,getD_append_right _ _ _ _ (by rw [dataPartLength]; omega),
        dataPartLength,byteAt,getD_append_right _ _ _ _ (by rw [length_take,length]; omega),
        length_take,length,show 110 + j - 110 = j by omega,show 135 + (110 + j) - min 245 255 = j by omega]
    · have head : byteAt ((mRsDecoder.extend data 135).take 245 ++ mRsDecoder.encodeRs (mRsDecoder.extend data 135)) q =
          byteAt (mRsDecoder.extend data 135) q := by
        rw [byteAt,getD_append _ _ _ _ (by rw [length_take,length]; omega),byteAt,
          getD_eq_getElem?_getD,getElem?_take,if_pos (by omega),← getD_eq_getElem?_getD]
      rw [head]
      by_cases short : q < 135
      · rw [extendShort _ short,extendShort _ short]
      · obtain ⟨i,rfl⟩ : ∃ i, q = 135 + i := ⟨q - 135,by omega⟩
        rw [extendSent _ (by omega),extendSent _ (by omega),encData _ (by omega)]
  rw [same]
  exact code

theorem wrongSymm (a b : List U8) (n : ℕ) : wrong a b n = wrong b a n := filter_congr fun _ _ => ne_comm

theorem wrongSelf (a : List U8) (n : ℕ) : wrong a a n = ∅ := filter_false_of_mem fun _ _ => not_not_intro rfl

theorem wrongSet (a b : List U8) (n i : ℕ) (x : U8) : (wrong a (b.set i x) n).card ≤ (wrong a b n).card + 1 := by
  refine (card_le_card (t := insert i (wrong a b n)) fun q member => ?_).trans (card_insert_le _ _)
  obtain ⟨less,different⟩ := memWrong.mp member
  rw [mem_insert]
  by_cases here : q = i
  · exact .inl here
  · rw [byteAt,byteAt,getDSetNe _ (Ne.symm here)] at different
    exact .inr (memWrong.mpr ⟨less,different⟩)

theorem wrongExtend (a b : List U8) {n : ℕ} (small : n ≤ 120) :
    (wrong (mRsDecoder.extend a 135) (mRsDecoder.extend b 135) (135 + n)).card = (wrong a b n).card := by
  have image : wrong (mRsDecoder.extend a 135) (mRsDecoder.extend b 135) (135 + n) = (wrong a b n).image (135 + ·) := by
    ext q
    rw [memWrong,mem_image]
    constructor
    · rintro ⟨less,different⟩
      have sent : 135 ≤ q := by
        by_contra short
        exact different (by rw [extendShort _ (by omega),extendShort _ (by omega)])
      obtain ⟨i,rfl⟩ : ∃ i, q = 135 + i := ⟨q - 135,by omega⟩
      rw [extendSent _ (by omega),extendSent _ (by omega)] at different
      exact ⟨i,memWrong.mpr ⟨by omega,different⟩,rfl⟩
    · rintro ⟨i,member,rfl⟩
      obtain ⟨less,different⟩ := memWrong.mp member
      rw [extendSent _ (by omega),extendSent _ (by omega)]
      exact ⟨by omega,different⟩
  rw [image,card_image_of_injective _ (add_right_injective 135)]

theorem correctedData {w c : List U8} {out : ℤ × List U8}
    (corrected : Corrected w (wrong w c 255) (fun q => byteAt w q - byteAt c q) out) {q : ℕ} (data : q < 245) :
    byteAt out.2 q = byteAt c q := by
  rw [corrected.bytes q (by omega)]
  split
  · rw [CharTwo.sub_eq_add,← add_assoc,CharTwo.add_self_eq_zero,zero_add]
  · rename_i outside
    rw [add_zero]
    by_contra different
    exact outside ⟨memWrong.mpr ⟨by omega,different⟩,data⟩

theorem correctedCount {w c : List U8} {out : ℤ × List U8}
    (corrected : Corrected w (wrong w c 255) (fun q => byteAt w q - byteAt c q) out) : out.1 = (wrong w c 245).card := by
  have parity : (wrong w c 255).filter (fun q => byteAt w q - byteAt c q ≠ 0 ∧ 245 ≤ q) = (wrong w c 255).filter (fun q => ¬ q < 245) := by
    refine filter_congr fun q member => ?_
    rw [not_lt,and_iff_right (sub_ne_zero.mpr (memWrong.mp member).2)]
  have data : (wrong w c 255).filter (fun q => q < 245) = wrong w c 245 := by
    ext q
    rw [mem_filter,memWrong,memWrong]
    exact ⟨fun h => ⟨h.2,h.1.2⟩,fun h => ⟨⟨by omega,h.2⟩,h.1⟩⟩
  have whole := card_filter_add_card_filter_not (s := wrong w c 255) (fun q => q < 245)
  rw [corrected.count,parity,← data,← whole]
  push_cast
  ring

theorem decCorrects {data r : List U8} (word : 110 ≤ data.length) (few : (wrong (mRsDecoder.enc data 135) r 120).card ≤ 5) :
    mRsDecoder.dec r 135 = (((wrong (mRsDecoder.enc data 135) r 110).card : ℤ), data.take 110) := by
  have corrected := nearCorrected (extendLength r) (encCodeword data)
    (by rw [wrongExtend _ _ (Nat.le_refl 120),wrongSymm]; exact few)
  refine Prod.ext ?_ ?_
  · have count := correctedCount corrected
    rw [decReturn,count,wrongSymm,← wrongExtend _ _ (by omega : 110 ≤ 120)]
  · refine ext_getElem ?_ fun i inside taken => ?_
    · rw [length_take,Nat.min_eq_left word]
      exact dataPartLength _
    · have small : i < 110 := by rw [length_take] at taken; omega
      have byte : byteAt (mRsDecoder.dec r 135).2 i = byteAt data i := by
        rw [decBytes r small,correctedData corrected (by omega),extendSent _ (by omega),encData _ small]
      have bytes : (mRsDecoder.dec r 135).2.getD i 0#8 = data.getD i 0#8 := byte
      rw [getD_eq_getElem _ _ inside,getD_eq_getElem _ _ (by omega)] at bytes
      rw [bytes,getElem_take]

def countingWord : List U8 := (List.range 110).map (BitVec.ofNat 8)

def brokenWord : List U8 := (((((mRsDecoder.enc countingWord 135).set 0 255#8).set 57 1#8).set 109 7#8).set 111 200#8).set 119 3#8

theorem brokenWordFew : (wrong (mRsDecoder.enc countingWord 135) brokenWord 120).card ≤ 5 := by
  rw [brokenWord]
  generalize mRsDecoder.enc countingWord 135 = c
  have none : (wrong c c 120).card = 0 := by rw [wrongSelf,card_empty]
  have h1 := wrongSet c c 120 0 255#8
  have h2 := wrongSet c (c.set 0 255#8) 120 57 1#8
  have h3 := wrongSet c ((c.set 0 255#8).set 57 1#8) 120 109 7#8
  have h4 := wrongSet c (((c.set 0 255#8).set 57 1#8).set 109 7#8) 120 111 200#8
  have h5 := wrongSet c ((((c.set 0 255#8).set 57 1#8).set 109 7#8).set 111 200#8) 120 119 3#8
  omega

theorem brokenWordCorrected : mRsDecoder.dec brokenWord 135 =
    (((wrong (mRsDecoder.enc countingWord 135) brokenWord 110).card : ℤ), countingWord.take 110) := decCorrects (by decide) brokenWordFew

/- The found locator accounts for the received syndromes: they vanish, or the
evaluator has smaller degree than the locator, which has at most five roots, none of
them at a shortened position. -/
def Located (r : List U8) : Prop :=
  let syndromes := mRsDecoder.computeSyndromes (mRsDecoder.extend r 135)
  let lambda := mRsDecoder.computeLambda syndromes.1
  let omega := mRsDecoder.computeOmega syndromes.1 lambda.2 lambda.1
  syndromes.2 = true ∨ (omega.1 < lambda.1 ∧ lambda.1 ≤ 5 ∧
    ∀ t ∈ (mRsDecoder.computeErrors lambda.2 lambda.1).getD [], 135 ≤ t.2)
  deriving Decidable

theorem locatedIff {r syn l : List U8} (received : syn = (mRsDecoder.computeSyndromes (mRsDecoder.extend r 135)).1)
    (computed : l = lambdaList syn) : Located r ↔ (mRsDecoder.computeSyndromes (mRsDecoder.extend r 135)).2 = true ∨
      (ReedSolomon.degree (omegaList syn l) 10 < ReedSolomon.degree l 10 ∧ ReedSolomon.degree l 10 ≤ 5 ∧
        ((errorLocs (cellPoly l)).card = ReedSolomon.degree l 10 → ∀ q ∈ errorLocs (cellPoly l), 135 ≤ q)) := by
  have search := computeErrorsRoots (computed ▸ lambdaListLength syn) (computed ▸ lambdaListOne syn)
  rw [rootsLength] at search
  have unfolded : Located r ↔ (mRsDecoder.computeSyndromes (mRsDecoder.extend r 135)).2 = true ∨
      (ReedSolomon.degree (omegaList syn l) 10 < ReedSolomon.degree l 10 ∧ ReedSolomon.degree l 10 ≤ 5 ∧
        ∀ t ∈ (mRsDecoder.computeErrors (l.map (fun a => gf256.poly2power a)) (ReedSolomon.degree l 10)).getD [], 135 ≤ t.2) := by
    have omega : (mRsDecoder.computeOmega syn (l.map (fun a => gf256.poly2power a)) (ReedSolomon.degree l 10)).1 =
        ReedSolomon.degree (omegaList syn l) 10 := by rw [computeOmega,nrootsValue,omegaList]
    simp only [Located,computeLambdaOf,← received,← computed,lambdaOf,omega]
  rw [unfolded,search]
  refine or_congr Iff.rfl (and_congr Iff.rfl (and_congr Iff.rfl ?_))
  by_cases full : (errorLocs (cellPoly l)).card = ReedSolomon.degree l 10
  · rw [if_neg (not_not_intro full),Option.getD_some,List.forall_mem_map]
    refine ⟨fun sent _ q member => ?_,fun sent i member => ?_⟩
    · simpa using sent (q + 1) (memErrorLocs.mp member)
    · have positive := (memRoots.mp member).1.1
      exact sent full (i - 1) (memErrorLocs.mpr (by rwa [Nat.sub_add_cancel positive]))
  · rw [if_pos full]
    simp [full]

theorem nearLocated {r data : List U8} (few : (wrong (mRsDecoder.enc data 135) r 120).card ≤ 5) : Located r := by
  have length := extendLength r
  have code := encCodeword data
  have few' : (wrong (mRsDecoder.extend r 135) (mRsDecoder.extend (mRsDecoder.enc data 135) 135) 255).card ≤ 5 := by
    rw [wrongExtend _ _ (Nat.le_refl 120),wrongSymm]
    exact few
  have inside := wrongInside (mRsDecoder.extend r 135) (mRsDecoder.extend (mRsDecoder.enc data 135) 135)
  have poly := nearLocator length code few'
  have size := locatorCells inside poly
  have locs := locatorLocs inside
  rw [← poly] at locs
  rw [locatedIff rfl rfl]
  by_cases clean : (mRsDecoder.computeSyndromes (mRsDecoder.extend r 135)).2 = true
  · exact .inl clean
  · refine .inr ⟨?_,by rw [size]; exact few',fun _ q member => ?_⟩
    · rw [size]
      exact nearOmegaDegree length code few' (fun code => clean ((noSyndromes length).mpr code))
    · rw [locs] at member
      by_contra short
      exact (memWrong.mp member).2 (by rw [extendShort _ (by omega),extendShort _ (by omega)])

section Found

variable {r syn l : List U8}

noncomputable def repaired (w : List U8) (R : Finset ℕ) (y : ℕ → GF256) : List U8 :=
  (List.range 255).map (fun q => toByte (byteAt w q + if q ∈ R then y q else 0))

theorem repairedBytes (w : List U8) (R : Finset ℕ) (y : ℕ → GF256) {q : ℕ} (less : q < 255) :
    byteAt (repaired w R y) q = byteAt w q + if q ∈ R then y q else 0 := by rw [byteAt,repaired,getDMapRange _ _ _ less,ofByteToByte]

theorem repairedCodeword {w : List U8} (length : w.length = 255) {R : Finset ℕ} (inside : R ⊆ range 255)
    {y : ℕ → GF256} (sums : ∀ k < 10, horner (alpha ^ k) w = ErrorLocator.powerSum R point y k) : Codeword (repaired w R y) := by
  have size : (repaired w R y).length = 255 := by rw [repaired,length_map,length_range]
  refine ⟨size,fun k small => ?_⟩
  have split : ErrorLocator.powerSum (range 255) point (byteAt (repaired w R y)) k =
      ErrorLocator.powerSum (range 255) point (byteAt w) k + ErrorLocator.powerSum R point y k := by
    have term : ∀ q ∈ range 255, byteAt (repaired w R y) q * point q ^ k =
        byteAt w q * point q ^ k + if q ∈ R then y q * point q ^ k else 0 := by
      intro q member
      rw [repairedBytes _ _ _ (mem_range.mp member),add_mul,ite_mul,zero_mul]
    simp only [ErrorLocator.powerSum]
    rw [sum_congr rfl term,sum_add_distrib,sum_ite_mem,inter_eq_right.mpr inside]
  rw [hornerPowerSum size,split,← hornerPowerSum length,sums k small,CharTwo.add_self_eq_zero]

theorem foundSums {w : List U8} (length : w.length = 255) (received : syn = (mRsDecoder.computeSyndromes w).1)
    (size : l.length = 10) (one : ofByte (l.getD 0 0#8) = 1) (full : (errorLocs (cellPoly l)).card = ReedSolomon.degree l 10)
    (proper : ReedSolomon.degree (omegaList syn l) 10 < ReedSolomon.degree l 10) :
    ∀ k < 10, horner (alpha ^ k) w = ErrorLocator.powerSum (errorLocs (cellPoly l)) point (forney syn l) k := by
  intro k small
  have poly := fullLocator one full
  have key := omegaKey syn size
  rw [poly] at key
  have explained := ErrorLocator.partialFractions (pointInjOn (errorLocsInside (cellPoly l)))
    (fun q _ => pointNeZero q) (by rw [full]; exact degreeLT_mono (by omega) (cellPolyDegree _)) key (forney syn l)
    (fun q _ => by rw [← poly]; rfl)
  have coefficient := X_pow_dvd_iff.mp explained k small
  rw [coeff_sub,syndromePolyCoeff _ small,ErrorLocator.syndromesCoeff,if_pos small,sub_eq_zero] at coefficient
  rw [← coefficient,received,syndromesValue length small]

theorem decWrong {d r : List U8} {c : List U8} (code : Codeword c) (short : ∀ q < 135, byteAt c q = 0)
    (data : ∀ i < 110, byteAt d i = byteAt c (135 + i)) :
    (wrong (mRsDecoder.enc d 135) r 120).card = (wrong c (mRsDecoder.extend r 135) 255).card := by
  have same : mRsDecoder.extend (mRsDecoder.enc d 135) 135 = c := by
    refine codewordUnique (encCodeword d) code fun q less => ?_
    by_cases low : q < 135
    · rw [extendShort _ low,short q low]
    · obtain ⟨i,rfl⟩ : ∃ i, q = 135 + i := ⟨q - 135,by omega⟩
      rw [extendSent _ (by omega),encData _ (by omega),data i (by omega)]
  rw [← wrongExtend _ _ (Nat.le_refl 120),same]

theorem locatedHonest (answered : 0 ≤ (mRsDecoder.dec r 135).1) (located : Located r) :
    (wrong (mRsDecoder.enc (mRsDecoder.dec r 135).2 135) r 120).card ≤ 5 := by
  have length := extendLength r
  by_cases clean : Codeword (mRsDecoder.extend r 135)
  · have decoded : mRsDecoder.decodeRs (mRsDecoder.extend r 135) = (0, mRsDecoder.extend r 135) := by
      rw [decodeRs,if_pos ((noSyndromes length).mpr clean)]
    rw [decWrong clean (fun q short => extendShort r short),wrongSelf,card_empty]
    · omega
    · intro i small
      rw [decBytes r small,decoded]
  · have faulty : ¬ (mRsDecoder.computeSyndromes (mRsDecoder.extend r 135)).2 = true := by rwa [noSyndromes length]
    obtain ⟨syn,received⟩ : ∃ syn, syn = (mRsDecoder.computeSyndromes (mRsDecoder.extend r 135)).1 := ⟨_,rfl⟩
    obtain ⟨l,computed⟩ : ∃ l, l = lambdaList syn := ⟨_,rfl⟩
    have size : l.length = 10 := computed ▸ lambdaListLength syn
    have one : ofByte (l.getD 0 0#8) = 1 := computed ▸ lambdaListOne syn
    obtain ⟨proper,five,sent⟩ := ((locatedIff received computed).mp located).resolve_left faulty
    have decoded := decodeRsFaulty (Bool.eq_false_iff.mpr faulty) received computed
    have full : (errorLocs (cellPoly l)).card = ReedSolomon.degree l 10 := by
      by_contra partly
      rw [if_pos partly] at decoded
      rw [decReturn,decoded] at answered
      omega
    rw [if_neg (not_not_intro full)] at decoded
    have corrected := foundCorrected syn length size one full
    rw [← decoded] at corrected
    have code := repairedCodeword length (errorLocsInside (cellPoly l))
      (foundSums length received size one full proper)
    have outside : ∀ q < 135, q ∉ errorLocs (cellPoly l) := fun q short member => by
      have := sent full q member
      omega
    rw [decWrong code]
    · refine (card_le_card fun q member => ?_).trans (full.trans_le five)
      obtain ⟨less,different⟩ := memWrong.mp member
      by_contra absent
      exact different (by rw [repairedBytes _ _ _ less,if_neg absent,add_zero])
    · intro q short
      rw [repairedBytes _ _ _ (by omega),extendShort r short,if_neg (outside q short),add_zero]
    · intro i small
      rw [decBytes r small,corrected.bytes _ (by omega),repairedBytes _ _ _ (by omega)]
      congr 1
      exact if_congr (and_iff_left (by omega)) rfl rfl

end Found

theorem nearAnswered {r data : List U8} (few : (wrong (mRsDecoder.enc data 135) r 120).card ≤ 5) : 0 ≤ (mRsDecoder.dec r 135).1 := by
  have corrected := nearCorrected (extendLength r) (encCodeword data)
    (by rw [wrongExtend _ _ (Nat.le_refl 120),wrongSymm]; exact few)
  rw [decReturn,correctedCount corrected]
  exact Int.natCast_nonneg _

theorem decRange (r : List U8) : (mRsDecoder.dec r 135).1 = -1 ∨ 0 ≤ (mRsDecoder.dec r 135).1 ∧ (mRsDecoder.dec r 135).1 ≤ 9 := by
  have length := extendLength r
  rw [decReturn]
  by_cases clean : (mRsDecoder.computeSyndromes (mRsDecoder.extend r 135)).2 = true
  · have decoded : mRsDecoder.decodeRs (mRsDecoder.extend r 135) = (0, mRsDecoder.extend r 135) := by rw [decodeRs,if_pos clean]
    rw [decoded]
    omega
  · obtain ⟨syn,received⟩ : ∃ syn, syn = (mRsDecoder.computeSyndromes (mRsDecoder.extend r 135)).1 := ⟨_,rfl⟩
    obtain ⟨l,computed⟩ : ∃ l, l = lambdaList syn := ⟨_,rfl⟩
    have decoded := decodeRsFaulty (Bool.eq_false_iff.mpr clean) received computed
    by_cases full : (errorLocs (cellPoly l)).card = ReedSolomon.degree l 10
    · rw [if_neg (not_not_intro full)] at decoded
      have corrected := foundCorrected syn length (computed ▸ lambdaListLength syn)
        (computed ▸ lambdaListOne syn) full
      rw [← decoded] at corrected
      have parity := card_filter_le (errorLocs (cellPoly l)) (fun q => forney syn l q ≠ 0 ∧ 245 ≤ q)
      have bound := degreeLtTen l
      rw [corrected.count]
      omega
    · rw [if_pos full] at decoded
      rw [decoded]
      omega

theorem decHonest (r : List U8) : ((mRsDecoder.dec r 135).1 = -1 ∨ 0 ≤ (mRsDecoder.dec r 135).1 ∧ (mRsDecoder.dec r 135).1 ≤ 9) ∧
      (∀ data, (wrong (mRsDecoder.enc data 135) r 120).card ≤ 5 → 0 ≤ (mRsDecoder.dec r 135).1 ∧
        (wrong (mRsDecoder.enc (mRsDecoder.dec r 135).2 135) r 120).card ≤ 5) ∧ (0 ≤ (mRsDecoder.dec r 135).1 →
        ((wrong (mRsDecoder.enc (mRsDecoder.dec r 135).2 135) r 120).card ≤ 5 ↔ Located r)) :=
  ⟨decRange r,fun _ few => ⟨nearAnswered few,locatedHonest (nearAnswered few) (nearLocated few)⟩,
    fun answered => ⟨nearLocated,locatedHonest answered⟩⟩

/- A word whose only non-zero syndrome is the first: the locator shrinks back to one,
the search looks for no position and finds none, and the word is reported clean. -/
def silentParity : List U8 := [1#8,217#8,27#8,132#8,235#8,44#8,114#8,45#8,92#8,193#8]

def silentWord : List U8 := replicate 110 0#8 ++ silentParity

theorem silentSyndromes : mRsDecoder.computeSyndromes (mRsDecoder.extend silentWord 135) =
    ([66#8,0#8,0#8,0#8,0#8,0#8,0#8,0#8,0#8,0#8], false) := by
  have word : mRsDecoder.extend silentWord 135 = replicate 245 0#8 ++ silentParity := by
    rw [extend,codeLengthValue,silentWord]
    decide +kernel
  have values : ∀ k < 10, silentParity.foldl (fun acc b => addPoly (gf256.multiplyPoly acc (gf256.power2poly k)) b) 0#8 =
      [66#8,0#8,0#8,0#8,0#8,0#8,0#8,0#8,0#8,0#8].getD k 0#8 := by
    simp only [Galois.multiplyPoly,power2polyRead,poly2powerRead,multiplyPowerMod]
    decide
  have syndrome : ∀ k < 10, mRsDecoder.getSyndrome (mRsDecoder.extend silentWord 135) k =
      [66#8,0#8,0#8,0#8,0#8,0#8,0#8,0#8,0#8,0#8].getD k 0#8 := by
    intro k small
    refine ofByteInjective ?_
    rw [getSyndromeHorner (extendLength _) small,word,hornerAppend,hornerZeros,zero_mul,zero_add,
      hornerByte (by omega),values k small]
  have list : (List.range 10).map (fun root => mRsDecoder.getSyndrome (mRsDecoder.extend silentWord 135) root) =
      [66#8,0#8,0#8,0#8,0#8,0#8,0#8,0#8,0#8,0#8] := by
    rw [map_congr_left fun k member => syndrome k (List.mem_range.mp member)]
    rfl
  rw [computeSyndromes,nrootsValue,list]
  decide

theorem silentLambda : mRsDecoder.computeLambda [66#8,0#8,0#8,0#8,0#8,0#8,0#8,0#8,0#8,0#8] =
    (0, [0,255,255,255,255,255,255,255,255,255]) := by
  simp only [computeLambda,massey,masseyStep,masseyStart,discrepancy,updateLambda,nrootsValue,myGaloisValue,
    Galois.multiplyPoly,Galois.dividePoly,Galois.dividePower,gf256DQ,gf256Modnn,power2polyRead,poly2powerRead,
    multiplyPowerMod]
  decide

theorem silentErrors : mRsDecoder.computeErrors [0,255,255,255,255,255,255,255,255,255] 0 = some [] := by
  rw [computeErrors,codeLengthValue,iprimValue]
  simp only [chienStep,iprimValue]
  decide

theorem decodeRsNoRoots {w syn : List U8} {lambda : ℕ × List ℕ}
    (syndromes : mRsDecoder.computeSyndromes w = (syn, false)) (locator : mRsDecoder.computeLambda syn = lambda)
    (none : mRsDecoder.computeErrors lambda.2 lambda.1 = some []) : mRsDecoder.decodeRs w = (0, w) := by
  rw [decodeRs,syndromes,if_neg (by simp)]
  dsimp only
  rw [locator,none]
  rfl

theorem silentWordAnswered : (mRsDecoder.dec silentWord 135).1 = 0 ∧
    ¬ (wrong (mRsDecoder.enc (mRsDecoder.dec silentWord 135).2 135) silentWord 120).card ≤ 5 := by
  refine ⟨?_,fun few => ?_⟩
  · rw [decReturn,decodeRsNoRoots silentSyndromes silentLambda silentErrors]
  · have located := nearLocated few
    rw [Located,silentSyndromes,silentLambda] at located
    simp at located

end DabStar.RsShortened
