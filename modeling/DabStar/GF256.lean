import DabStar.Galois

/-! The tables of Galois (8, 0435) describe the field with 256 elements: multiplication by a
power of alpha is an iterated register step, and the finite facts about that cycle are
evaluated once on packed words. -/
namespace DabStar
open List

def gf256 : Galois := Galois.new 8 0o435

namespace GF256

def alphaWord : Nat :=
  0xc06030180c06038fc9ea75b45a2d984c261387cde8743a1d8040201008040201 |||
  0xa1de6fb9d269ba5da05028140a058c46239fc1ee77b5d46a35944a259c4e279d <<< 256 |||
  0xe271b65ba3dfe1fe7fb1d66bbbd3e7fdf0783c1e0f89ca65bc5e2f99c261be5f <<< 512 |||
  0xcc663397c5ec763b93c7edf87c3e1f81ce67bdd068341a0d884422118643afd9 <<< 768 |||
  0x73b7d5e472399249aa55a452299a4da8542a158442219e4fa9da6db85c2e1785 <<< 1024 |||
  0x41ae57a5dc6e3795c46231964babdbe3fff1f67bb3d7e5fc7e3f91c663bfd1e6 <<< 1280 |||
  0x098a45ac562b9bc3eff9f279b259a251a653a7dde070381c0e078dc864321982 <<< 1536 |||
  0x008e47add86c361b83cfe9fa7db0582c160b8bcbebfbf3f7f5f47a3d90482412 <<< 1792

def indexWord : Nat :=
  0x714c08c8f869c11c81ef8d340ee064044bc7681bee33df03c61a3202190100ff |||
  0xa672e44d78099ac9b9f9276a7dc2b51d458212f0da8e9335210f24e12f658a05 <<< 256 |||
  0x404638835c13d2f1bddb968fce94d03688229110b32598e2fd30dd66628bbf06 <<< 512 |||
  0x57a7f373ace5d44e2b79150a9f9b5eca3dba85fa54283a6b6e7e48c3a3b6421e <<< 768 |||
  0x2e892023d99244117cb4b8267799a5e318fec531edde4a670d63808cf7c07007 <<< 1024 |||
  0xa2416d4753393c849e5d2a14abd356f261befcdcb2978790cdcfbc955bd13f37 <<< 1280 |||
  0x5a3eccbbb18660fbaa559d29523ba16cf66f0c7fec4917c476a47bb7d8432d1f <<< 1536 |||
  0xaf5850a8eaf4d674e8ade7e6e9d5ae4fd72c757aeb16f50b51a0a99cb05f59cb <<< 1792

def alphaByte (i : Nat) : Nat := (alphaWord >>> (8 * i)) % 256
def indexByte (a : Nat) : Nat := (indexWord >>> (8 * a)) % 256

theorem alphaIndex : ∀ i < 255, indexByte (alphaByte i) = i ∧ 0 < alphaByte i ∧ alphaByte i < 256 := by decide +kernel

theorem indexAlpha : ∀ a < 256, 0 < a → indexByte a < 255 ∧ alphaByte (indexByte a) = a := by decide +kernel

theorem alphaShift : ∀ i < 255, Galois.shiftStep 8 0o435 255 (alphaByte i) = alphaByte ((i + 1) % 255) := by decide +kernel

def xtime (a : U8) : U8 := (a <<< 1) ^^^ (if a.msb then 0x1D#8 else 0#8)

theorem alphaXtime : ∀ i < 255, xtime (BitVec.ofNat 8 (alphaByte i)) = BitVec.ofNat 8 (alphaByte ((i + 1) % 255)) := by decide +kernel

theorem xtimeXor (a b : U8) : xtime (a ^^^ b) = xtime a ^^^ xtime b := by
  have msb : (a ^^^ b).msb = (a.msb ^^ b.msb) := by simp
  have swap : ∀ x y z : U8, x ^^^ (y ^^^ z) = y ^^^ (x ^^^ z) := by
    intro x y z
    rw [← BitVec.xor_assoc,BitVec.xor_comm x y,BitVec.xor_assoc]
  simp only [xtime,BitVec.shiftLeft_xor_distrib,msb]
  cases a.msb <;> cases b.msb <;> simp [BitVec.xor_assoc,swap 29#8 (b <<< 1)]
  exact BitVec.xor_comm _ _

structure Filled (n : Nat) (t : Galois.Tables) : Prop where
  sr : t.sr = alphaByte (n % 255)
  alphaLength : t.alphaTo.length = 256
  indexLength : t.indexOf.length = 256
  alphaLog : t.alphaTo.getD 255 0 = 0
  indexZero : t.indexOf.getD 0 0 = 255
  alphaTo : ∀ i < n, t.alphaTo.getD i 0 = alphaByte i
  indexOf : ∀ i < n, t.indexOf.getD (alphaByte i) 0 = i

theorem blankFilled : Filled 0 (Galois.blank 255) where
  sr := by decide
  alphaLength := by simp only [Galois.blank,length_set,length_replicate]
  indexLength := by simp only [Galois.blank,length_set,length_replicate]
  alphaLog := by decide
  indexZero := by decide
  alphaTo := by intro i less; omega
  indexOf := by intro i less; omega

theorem stepFilled {n t} (small : n < 255) (filled : Filled n t) : Filled (n + 1) (Galois.tableStep 8 0o435 255 t n) := by
  have sr : t.sr = alphaByte n := by rw [filled.sr,Nat.mod_eq_of_lt small]
  obtain ⟨inverse,positive,byte⟩ := alphaIndex n small
  -- the register visits n different non-zero values, so no earlier entry is overwritten
  have fresh : ∀ i < n, alphaByte n ≠ alphaByte i := by
    intro i less same
    have other := (alphaIndex i (by omega)).1
    rw [← same,inverse] at other
    omega
  refine ⟨?_,?_,?_,?_,?_,?_,?_⟩
  · simp only [Galois.tableStep,sr]; exact alphaShift n small
  · simp [Galois.tableStep,filled.alphaLength]
  · simp [Galois.tableStep,filled.indexLength]
  · have h := filled.alphaLog
    simp only [Galois.tableStep,getD_eq_getElem?_getD] at h ⊢
    rw [List.getElem?_set_ne (by omega)]; exact h
  · have h := filled.indexZero
    simp only [Galois.tableStep,getD_eq_getElem?_getD,sr] at h ⊢
    rw [List.getElem?_set_ne (by omega)]; exact h
  · intro i less
    simp only [Galois.tableStep,getD_eq_getElem?_getD,sr]
    rcases Nat.lt_succ_iff_lt_or_eq.mp less with before | rfl
    · have h := filled.alphaTo i before
      rw [List.getElem?_set_ne (by omega),← getD_eq_getElem?_getD]; exact h
    · rw [List.getElem?_set_self (by rw [filled.alphaLength]; omega)]; rfl
  · intro i less
    simp only [Galois.tableStep,getD_eq_getElem?_getD,sr]
    rcases Nat.lt_succ_iff_lt_or_eq.mp less with before | rfl
    · have h := filled.indexOf i before
      rw [List.getElem?_set_ne (fresh i before),← getD_eq_getElem?_getD]; exact h
    · rw [List.getElem?_set_self (by rw [filled.indexLength]; omega)]; rfl

theorem fillFilled (n : Nat) (small : n ≤ 255) : Filled n (Galois.fill 8 0o435 255 n) := by
  induction n with
  | zero => exact blankFilled
  | succ n ih =>
    have step := stepFilled (by omega) (ih (by omega))
    rwa [Galois.fill,range_succ,foldl_append]

theorem tables : Filled 255 (Galois.fill 8 0o435 255 255) := fillFilled 255 (Nat.le_refl 255)

end GF256

open GF256

theorem gf256Fill : gf256 = ⟨8,0o435,255,256,(Galois.fill 8 0o435 255 255).alphaTo,(Galois.fill 8 0o435 255 255).indexOf⟩ := rfl

theorem gf256CodeLength : gf256.codeLength = 255 := by rw [gf256Fill]
theorem gf256DQ : gf256.dQ = 256 := by rw [gf256Fill]

theorem gf256Modnn (x : Nat) : gf256.modnn x = x % 255 := by
  have width : gf256.codeLength = 2 ^ gf256.mm - 1 := by rw [gf256Fill]; rfl
  rw [Galois.modnnMod width (by rw [gf256CodeLength]; omega),gf256CodeLength]

theorem power2polyByte {i : Nat} (small : i < 255) : gf256.power2poly i = BitVec.ofNat 8 (alphaByte i) := by
  rw [gf256Fill,Galois.power2poly,tables.alphaTo i small]

theorem power2polyLog : gf256.power2poly 255 = 0#8 := by rw [gf256Fill,Galois.power2poly,tables.alphaLog]

theorem power2polyZero : gf256.power2poly 0 = 1#8 := by
  rw [power2polyByte (by omega)]
  decide

theorem poly2powerZero : gf256.poly2power 0#8 = 255 := by rw [gf256Fill,Galois.poly2power,BitVec.toNat_zero,tables.indexZero]

theorem toNatPositive {a : U8} (nonzero : a ≠ 0#8) : 0 < a.toNat := Nat.pos_iff_ne_zero.mpr fun zero => nonzero (BitVec.eq_of_toNat_eq zero)

theorem poly2powerByte {a : U8} (nonzero : a ≠ 0#8) : gf256.poly2power a = indexByte a.toNat := by
  obtain ⟨small,inverse⟩ := indexAlpha a.toNat a.isLt (toNatPositive nonzero)
  have entry := tables.indexOf _ small
  rw [inverse] at entry
  rw [gf256Fill,Galois.poly2power,entry]

theorem poly2powerLt {a : U8} (nonzero : a ≠ 0#8) : gf256.poly2power a < 255 := by
  rw [poly2powerByte nonzero]
  exact (indexAlpha a.toNat a.isLt (toNatPositive nonzero)).1

theorem power2polyPoly2power {a : U8} (nonzero : a ≠ 0#8) : gf256.power2poly (gf256.poly2power a) = a := by
  rw [power2polyByte (poly2powerLt nonzero),poly2powerByte nonzero,
    (indexAlpha a.toNat a.isLt (toNatPositive nonzero)).2,BitVec.ofNat_toNat,BitVec.setWidth_eq]

theorem power2polyNeZero {i : Nat} (small : i < 255) : gf256.power2poly i ≠ 0#8 := by
  intro zero
  obtain ⟨_,positive,byte⟩ := alphaIndex i small
  have value := congrArg BitVec.toNat zero
  rw [power2polyByte small,BitVec.toNat_ofNat,BitVec.toNat_zero] at value
  omega

theorem poly2powerPower2poly {i : Nat} (small : i < 255) : gf256.poly2power (gf256.power2poly i) = i := by
  obtain ⟨inverse,_,byte⟩ := alphaIndex i small
  rw [poly2powerByte (power2polyNeZero small),power2polyByte small,BitVec.toNat_ofNat,Nat.mod_eq_of_lt byte,inverse]

theorem poly2powerEqLog {a : U8} : gf256.poly2power a = 255 ↔ a = 0#8 := by
  constructor
  · intro full
    by_contra nonzero
    have small := poly2powerLt nonzero
    omega
  · rintro rfl
    exact poly2powerZero

theorem xtimePower {i : Nat} (small : i < 255) : xtime (gf256.power2poly i) = gf256.power2poly ((i + 1) % 255) := by
  rw [power2polyByte small,power2polyByte (Nat.mod_lt _ (by omega)),alphaXtime i small]

theorem multiplyPowerMod (a b : Nat) : gf256.multiplyPower a b = (a + b) % 255 := gf256Modnn (a + b)

theorem power2polyRead (i : Nat) : gf256.power2poly i = if i < 255 then BitVec.ofNat 8 (alphaByte i) else 0#8 := by
  split
  · rename_i small; exact power2polyByte small
  · rename_i large
    by_cases last : i = 255
    · rw [last,power2polyLog]
    · rw [gf256Fill,Galois.power2poly,getD_eq_default _ _ (by rw [tables.alphaLength]; omega)]

theorem poly2powerRead (a : U8) : gf256.poly2power a = if a = 0#8 then 255 else indexByte a.toNat := by
  split
  · rename_i zero; rw [zero,poly2powerZero]
  · rename_i nonzero; exact poly2powerByte nonzero

/- The product with alpha to the i is i register steps; this is what makes the
table product distribute over xor. -/
theorem multiplyPolyPower {i : Nat} (small : i < 255) (b : U8) : gf256.multiplyPoly (gf256.power2poly i) b = xtime^[i] b := by
  by_cases zero : b = 0#8
  · subst zero
    have fixed : ∀ n, xtime^[n] 0#8 = 0#8 := Function.iterate_fixed (by decide)
    simp [Galois.multiplyPoly,fixed]
  · have run : ∀ n, xtime^[n] b = gf256.power2poly ((n + gf256.poly2power b) % 255) := by
      intro n
      induction n with
      | zero => simp [Nat.mod_eq_of_lt (poly2powerLt zero),power2polyPoly2power zero]
      | succ n ih =>
        have next : ((n + gf256.poly2power b) % 255 + 1) % 255 = (n + 1 + gf256.poly2power b) % 255 := by omega
        rw [Function.iterate_succ_apply',ih,xtimePower (Nat.mod_lt _ (by omega)),next]
    rw [run,Galois.multiplyPoly,if_neg (by simp [power2polyNeZero small,zero]),poly2powerPower2poly small,multiplyPowerMod]

def GF256 := BitVec 8

namespace GF256

instance : DecidableEq GF256 := inferInstanceAs (DecidableEq (BitVec 8))
instance : Zero GF256 := ⟨0#8⟩
instance : One GF256 := ⟨1#8⟩
instance : Add GF256 := ⟨Galois.addPoly⟩
instance : Mul GF256 := ⟨gf256.multiplyPoly⟩
instance : Neg GF256 := ⟨fun a => a⟩
instance : Inv GF256 := ⟨fun a => if a = 0 then 0 else gf256.dividePoly 1#8 a⟩

def ofByte (a : U8) : GF256 := a

def toByte (a : GF256) : U8 := a

section
variable (a : GF256)

@[simp] theorem ofByteToByte : ofByte (toByte a) = a := rfl

theorem ofByteInjective : Function.Injective ofByte := fun _ _ h => h

@[simp] theorem ofByteZero : ofByte 0#8 = 0 := rfl
@[simp] theorem ofByteOne : ofByte 1#8 = 1 := rfl

@[simp] theorem ofByteEqZero {a : U8} : ofByte a = 0 ↔ a = 0#8 := Iff.rfl

@[simp] theorem ofByteAdd (a b : U8) : ofByte (Galois.addPoly a b) = ofByte a + ofByte b := rfl

@[simp] theorem ofByteMul (a b : U8) : ofByte (gf256.multiplyPoly a b) = ofByte a * ofByte b := rfl

theorem zeroOrPower : a = 0 ∨ ∃ i < 255, a = ofByte (gf256.power2poly i) := by
  by_cases zero : a = 0
  · exact .inl zero
  · exact .inr ⟨gf256.poly2power a,poly2powerLt zero,(power2polyPoly2power zero).symm⟩

theorem powerMulPower {i j : Nat} (hi : i < 255) (hj : j < 255) :
    ofByte (gf256.power2poly i) * ofByte (gf256.power2poly j) = ofByte (gf256.power2poly ((i + j) % 255)) := by
  rw [← ofByteMul,Galois.multiplyPoly,if_neg (by simp [power2polyNeZero hi,power2polyNeZero hj]),
    poly2powerPower2poly hi,poly2powerPower2poly hj,multiplyPowerMod]

theorem zeroMul : 0 * a = 0 := by
  change gf256.multiplyPoly 0#8 a = 0#8
  simp [Galois.multiplyPoly]

theorem mulZero : a * 0 = 0 := by
  change gf256.multiplyPoly a 0#8 = 0#8
  simp [Galois.multiplyPoly]

theorem mulComm (a b : GF256) : a * b = b * a := by
  obtain rfl | ⟨i,hi,rfl⟩ := zeroOrPower a
  · rw [zeroMul,mulZero]
  · obtain rfl | ⟨j,hj,rfl⟩ := zeroOrPower b
    · rw [zeroMul,mulZero]
    · rw [powerMulPower hi hj,powerMulPower hj hi,Nat.add_comm]

theorem mulAssoc (a b c : GF256) : a * b * c = a * (b * c) := by
  obtain rfl | ⟨i,hi,rfl⟩ := zeroOrPower a
  · simp only [zeroMul]
  · obtain rfl | ⟨j,hj,rfl⟩ := zeroOrPower b
    · simp only [zeroMul,mulZero]
    · obtain rfl | ⟨k,hk,rfl⟩ := zeroOrPower c
      · simp only [mulZero]
      · rw [powerMulPower hi hj,powerMulPower hj hk,powerMulPower (Nat.mod_lt _ (by omega)) hk,
          powerMulPower hi (Nat.mod_lt _ (by omega))]
        have sum : ((i + j) % 255 + k) % 255 = (i + (j + k) % 255) % 255 := by omega
        rw [sum]

theorem oneMul : 1 * a = a := by
  have one : (1 : GF256) = ofByte (gf256.power2poly 0) := power2polyZero.symm
  rw [one]
  exact multiplyPolyPower (i := 0) (by omega) a

end

theorem mulAdd (a b c : GF256) : a * (b + c) = a * b + a * c := by
  obtain rfl | ⟨i,hi,rfl⟩ := zeroOrPower a
  · simp only [zeroMul]; rfl
  · have linear : ∀ n, ∀ x y : U8, xtime^[n] (x ^^^ y) = xtime^[n] x ^^^ xtime^[n] y := by
      intro n
      induction n with
      | zero => intro x y; rfl
      | succ n ih => intro x y; simp only [Function.iterate_succ_apply,xtimeXor,ih]
    have product : ∀ x : GF256, ofByte (gf256.power2poly i) * x = ofByte (xtime^[i] x) := multiplyPolyPower hi
    rw [product,product,product]
    exact linear i b c

theorem mulInv {a : GF256} (nonzero : a ≠ 0) : a * a⁻¹ = 1 := by
  obtain rfl | ⟨i,hi,rfl⟩ := zeroOrPower a
  · exact absurd rfl nonzero
  · have oneLog : gf256.poly2power 1#8 = 0 := by rw [← power2polyZero,poly2powerPower2poly (by omega)]
    have inverse : (ofByte (gf256.power2poly i))⁻¹ = ofByte (gf256.power2poly ((255 - i) % 255)) := by
      have unfolded : (ofByte (gf256.power2poly i))⁻¹ = ofByte (gf256.dividePoly 1#8 (gf256.power2poly i)) := if_neg nonzero
      rw [unfolded,Galois.dividePoly,if_neg (by decide),Galois.dividePower,oneLog,poly2powerPower2poly hi,gf256DQ,gf256Modnn]
    rw [inverse,powerMulPower hi (Nat.mod_lt _ (by omega))]
    have sum : (i + (255 - i) % 255) % 255 = 0 := by omega
    rw [sum,power2polyZero]
    rfl

instance : Field GF256 where
  add_assoc := BitVec.xor_assoc
  zero_add := fun a => BitVec.zero_xor
  add_zero := fun a => BitVec.xor_zero
  add_comm := BitVec.xor_comm
  neg_add_cancel := fun a => BitVec.xor_self
  mul_assoc := mulAssoc
  one_mul := oneMul
  mul_one := fun a => by rw [mulComm,oneMul]
  zero_mul := zeroMul
  mul_zero := mulZero
  left_distrib := mulAdd
  right_distrib := fun a b c => by rw [mulComm,mulAdd,mulComm c a,mulComm c b]
  mul_comm := mulComm
  exists_pair_ne := ⟨0,1,by decide⟩
  mul_inv_cancel := fun _ => mulInv
  inv_zero := if_pos rfl
  nsmul := nsmulRec
  zsmul := zsmulRec
  nnqsmul := _
  nnqsmul_def := fun _ _ => rfl
  qsmul := _
  qsmul_def := fun _ _ => rfl

theorem addSelf (a : GF256) : a + a = 0 := BitVec.xor_self

instance : CharP GF256 2 := CharTwo.of_one_ne_zero_of_two_eq_zero one_ne_zero
  (by rw [← one_add_one_eq_two]; exact addSelf 1)

def alpha : GF256 := ofByte (gf256.power2poly 1)

theorem ofBytePower {i : Nat} (small : i < 255) : ofByte (gf256.power2poly i) = alpha ^ i := by
  induction i with
  | zero => rw [power2polyZero,pow_zero,ofByteOne]
  | succ i ih =>
    rw [pow_succ,← ih (by omega),alpha,powerMulPower (by omega) (by omega),Nat.mod_eq_of_lt small]

theorem alphaOrder : alpha ^ 255 = 1 := by
  have last := powerMulPower (i := 254) (j := 1) (by omega) (by omega)
  rw [pow_succ,← ofBytePower (by omega),alpha,last,power2polyZero]
  rfl

theorem alphaNeZero : alpha ≠ 0 := power2polyNeZero (by omega)

theorem alphaPowMod (i : Nat) : alpha ^ (i % 255) = alpha ^ i := by
  conv_rhs => rw [← Nat.div_add_mod i 255,pow_add,pow_mul,alphaOrder,one_pow,one_mul]

theorem alphaPowInjective {i j : Nat} (hi : i < 255) (hj : j < 255) (same : alpha ^ i = alpha ^ j) : i = j := by
  rw [← ofBytePower hi,← ofBytePower hj] at same
  rw [← poly2powerPower2poly hi,← poly2powerPower2poly hj,ofByteInjective same]

theorem alphaPowLog {a : U8} (nonzero : a ≠ 0#8) : alpha ^ gf256.poly2power a = ofByte a := by
  rw [← ofBytePower (poly2powerLt nonzero),power2polyPoly2power nonzero]

theorem ofBytePowerMod (i : Nat) : ofByte (gf256.power2poly (i % 255)) = alpha ^ i := by
  rw [ofBytePower (Nat.mod_lt _ (by omega)),alphaPowMod]

theorem ofByteMultiplyPower (a b : Nat) : ofByte (gf256.power2poly (gf256.multiplyPower a b)) = alpha ^ (a + b) := by
  rw [multiplyPowerMod,ofBytePowerMod]

theorem ofByteDivide (a : U8) {b : U8} (nonzero : b ≠ 0#8) : ofByte (gf256.dividePoly a b) = ofByte a / ofByte b := by
  have divisor : ofByte b ≠ 0 := nonzero
  rw [eq_div_iff divisor]
  by_cases zero : a = 0#8
  · rw [zero,Galois.dividePoly,if_pos rfl,ofByteZero,zero_mul]
  · have small := poly2powerLt nonzero
    rw [Galois.dividePoly,if_neg zero,Galois.dividePower,gf256Modnn,ofBytePowerMod,← alphaPowLog nonzero,
      ← pow_add,← alphaPowLog zero,gf256DQ]
    have sum : 256 - 1 + gf256.poly2power a - gf256.poly2power b + gf256.poly2power b = 255 + gf256.poly2power a := by omega
    rw [sum,pow_add,alphaOrder,one_mul]

/- The product by the polynomial itself, one bit of the factor at a time. -/
def shiftAdd (a b : U8) : U8 := (range 8).foldl (fun acc i => acc ^^^ if a.getLsbD i then xtime^[i] b else 0#8) 0#8

theorem bitsSummed : ∀ a : U8, (range 8).foldl (fun acc i => acc ^^^ if a.getLsbD i then BitVec.ofNat 8 (alphaByte i) else 0#8) 0#8 = a := by
  decide +kernel

theorem foldProduct (chosen : Nat → Bool) (b acc : U8) (l : List Nat) (small : ∀ i ∈ l, i < 255) :
    gf256.multiplyPoly (l.foldl (fun acc i => acc ^^^ if chosen i then BitVec.ofNat 8 (alphaByte i) else 0#8) acc) b =
      l.foldl (fun acc i => acc ^^^ if chosen i then xtime^[i] b else 0#8) (gf256.multiplyPoly acc b) := by
  induction l generalizing acc with
  | nil => rfl
  | cons i l ih =>
    obtain ⟨first,rest⟩ := forall_mem_cons.mp small
    have step : gf256.multiplyPoly (acc ^^^ if chosen i then BitVec.ofNat 8 (alphaByte i) else 0#8) b =
        gf256.multiplyPoly acc b ^^^ if chosen i then xtime^[i] b else 0#8 := by
      rw [← multiplyPolyPower first b,power2polyByte first]
      refine (add_mul (ofByte acc) (ofByte _) (ofByte b)).trans (congrArg (ofByte acc * ofByte b + ·) ?_)
      cases chosen i with
      | false => exact zero_mul (ofByte b)
      | true => rfl
    rw [foldl_cons,foldl_cons,ih _ rest,step]

theorem multiplyShiftAdd (a b : U8) : gf256.multiplyPoly a b = shiftAdd a b ∧ (b ≠ 0#8 → shiftAdd (gf256.dividePoly a b) b = a) := by
  have product : ∀ a, gf256.multiplyPoly a b = shiftAdd a b := by
    intro a
    have folded := foldProduct a.getLsbD b 0#8 (range 8) (by decide)
    rwa [bitsSummed,show gf256.multiplyPoly 0#8 b = 0#8 from zeroMul b] at folded
  refine ⟨product a,fun nonzero => ?_⟩
  rw [← product]
  apply ofByteInjective
  rw [ofByteMul,ofByteDivide a nonzero]
  exact div_mul_cancel₀ _ nonzero

end GF256
end DabStar
