import DabStar.GF256

/-! The Reed-Solomon codec (backend/reed_solomon.cpp), loop by loop. Of lambda only the first
nroots cells are ever used, so the model keeps these; rootTable and locTable are the filled
prefixes. -/
namespace DabStar
open List

structure ReedSolomon where
  myGalois : Galois
  symsize : Nat
  codeLength : Nat
  generator : List Nat
  nroots : Nat
  fcr : Nat
  prim : Nat
  iprim : Nat
  deriving DecidableEq, Repr

namespace ReedSolomon
open Galois (addPoly)

def iprimLoop (prim codeLength : Nat) : Nat → Nat → Nat
  | 0, iprim => iprim
  | fuel + 1, iprim =>
    if iprim % prim ≠ 0 then iprimLoop prim codeLength fuel (iprim + codeLength) else iprim

def generatorInner (g : Galois) (root : Nat) (generator : List U8) (j : Nat) : List U8 :=
  if generator.getD j 0#8 ≠ 0#8 then
    let p1 := g.multiplyPower (g.poly2power (generator.getD j 0#8)) root
    generator.set j (addPoly (generator.getD (j - 1) 0#8) (g.power2poly p1))
  else generator.set j (generator.getD (j - 1) 0#8)

def generatorStep (g : Galois) (first : Nat) (generator : List U8) (i : Nat) : List U8 :=
  let root := first + i
  let inner := ((range i).map (fun k => i - k)).foldl
    (fun gen j => generatorInner g root gen j) (generator.set (i + 1) 1#8)
  inner.set 0 (g.power2poly (g.multiplyPower root (g.poly2power (inner.getD 0 0#8))))

def generatorPoly (g : Galois) (first nroots : Nat) : List U8 :=
  (range nroots).foldl (fun gen i => generatorStep g first gen i) (1#8 :: replicate nroots 0#8)

def new (symsize gfpoly fcr prim nroots : Nat) : ReedSolomon :=
  let g := Galois.new symsize gfpoly
  let codeLength := (1 <<< symsize) - 1
  ⟨g,symsize,codeLength,(generatorPoly g (fcr * prim) nroots).map g.poly2power,nroots,fcr,prim,
    iprimLoop prim codeLength prim 1 / prim⟩

variable (rs : ReedSolomon)

def encodeStep (data : List U8) (bb : List U8) (i : Nat) : List U8 :=
  let g := rs.myGalois
  let feedback := g.poly2power (addPoly (data.getD i 0#8) (bb.getD 0 0#8))
  if feedback ≠ rs.codeLength then
    let fed := (range' 1 (rs.nroots - 1)).foldl (fun bb j => bb.set j
      (addPoly (bb.getD j 0#8) (g.power2poly (g.multiplyPower feedback (rs.generator.getD (rs.nroots - j) 0))))) bb
    fed.tail ++ [g.power2poly (g.multiplyPower feedback (rs.generator.getD 0 0))]
  else bb.tail ++ [0#8]

def encodeRs (data : List U8) : List U8 :=
  (range (rs.codeLength - rs.nroots)).foldl (fun bb i => rs.encodeStep data bb i) (replicate rs.nroots 0#8)

def extend (r : List U8) (cutlen : Nat) : List U8 := replicate cutlen 0#8 ++ (range (rs.codeLength - cutlen)).map (fun i => r.getD i 0#8)

def dataPart (rf : List U8) (cutlen : Nat) : List U8 := (range (rs.codeLength - rs.nroots - cutlen)).map (fun i => rf.getD (cutlen + i) 0#8)

def enc (r : List U8) (cutlen : Nat) : List U8 := rs.dataPart (rs.extend r cutlen) cutlen ++ rs.encodeRs (rs.extend r cutlen)

def syndromeStep (data : List U8) (root : Nat) (syn : U8) (j : Nat) : U8 :=
  let g := rs.myGalois
  if syn = 0#8 then data.getD j 0#8
  else
    let uu1 := g.powPower (g.multiplyPower rs.fcr root) rs.prim
    addPoly (data.getD j 0#8) (g.power2poly (g.multiplyPower (g.poly2power syn) uu1))

def getSyndrome (data : List U8) (root : Nat) : U8 :=
  (range' 1 (rs.codeLength - 1)).foldl (fun syn j => rs.syndromeStep data root syn j) (data.getD 0 0#8)

def computeSyndromes (data : List U8) : List U8 × Bool :=
  let syndromes := (range rs.nroots).map (fun root => rs.getSyndrome data root)
  (syndromes, syndromes.foldl (· ||| ·) 0#8 = 0#8)

structure Massey where
  L : Nat
  lambda : List U8
  corrector : List U8
  error : U8
  deriving DecidableEq, Repr

def updateLambda (s : Massey) : List U8 :=
  (range rs.nroots).map (fun i =>
    addPoly (s.lambda.getD i 0#8) (rs.myGalois.multiplyPoly s.error (s.corrector.getD i 0#8)))

def discrepancy (syndromes lambda : List U8) (K : Nat) : U8 :=
  (range' 1 K).foldl (fun error i =>
    addPoly error (rs.myGalois.multiplyPoly (syndromes.getD (K - i) 0#8) (lambda.getD i 0#8)))
    (syndromes.getD K 0#8)

def masseyStep (syndromes : List U8) (s : Massey) (K : Nat) : Massey :=
  let lambda := rs.updateLambda s
  let grown := 2 * s.L < K ∧ s.error ≠ 0#8
  let L := if grown then K - s.L else s.L
  let corrector := if grown then
    (range rs.nroots).map (fun i => rs.myGalois.dividePoly (s.lambda.getD i 0#8) s.error) else s.corrector
  ⟨L,lambda,0#8 :: corrector.take (rs.nroots - 1),rs.discrepancy syndromes lambda K⟩

def masseyStart (syndromes : List U8) : Massey :=
  ⟨0,(replicate rs.nroots 0#8).set 0 1#8,(replicate rs.nroots 0#8).set 1 1#8,syndromes.getD 0 0#8⟩

def massey (syndromes : List U8) : Massey :=
  (range' 1 (rs.nroots - 1)).foldl (fun s K => rs.masseyStep syndromes s K) (rs.masseyStart syndromes)

def degree (l : List U8) (n : Nat) : Nat := (range n).foldl (fun deg i => if l.getD i 0#8 ≠ 0#8 then i else deg) 0

def computeLambda (syndromes : List U8) : Nat × List Nat :=
  let lambda := rs.updateLambda (rs.massey syndromes)
  (degree lambda rs.nroots, lambda.map (fun a => rs.myGalois.poly2power a))

structure Chien where
  workRegister : List Nat
  k : Nat
  rootTable : List Nat
  locTable : List Nat
  deriving DecidableEq, Repr

def chienInner (acc : List Nat × U8) (j : Nat) : List Nat × U8 :=
  if acc.1.getD j 0 ≠ rs.codeLength then
    let power := rs.myGalois.multiplyPower (acc.1.getD j 0) j
    (acc.1.set j power, addPoly acc.2 (rs.myGalois.power2poly power))
  else acc

def chienStep (degLambda : Nat) (s : Chien) (i : Nat) : Chien :=
  let evaluated := ((range degLambda).map (fun k => degLambda - k)).foldl
    (fun acc j => rs.chienInner acc j) (s.workRegister, 1#8)
  if evaluated.2 ≠ 0#8 then ⟨evaluated.1,s.k + rs.iprim,s.rootTable,s.locTable⟩
  else ⟨evaluated.1,s.k + rs.iprim,s.rootTable ++ [i],s.locTable ++ [s.k]⟩

def computeErrors (lambda : List Nat) (degLambda : Nat) : Option (List (Nat × Nat)) :=
  let found := (range' 1 rs.codeLength).foldl (fun s i => rs.chienStep degLambda s i) ⟨lambda,rs.iprim - 1,[],[]⟩
  if found.rootTable.length ≠ degLambda then none else some (found.rootTable.zip found.locTable)

def omegaCell (syndromes : List U8) (lambda : List Nat) (degLambda i : Nat) : U8 :=
  let g := rs.myGalois
  let top := if degLambda < i then degLambda else i
  ((range (top + 1)).map (fun k => top - k)).foldl (fun tmp j =>
    if g.poly2power (syndromes.getD (i - j) 0#8) ≠ rs.codeLength ∧ lambda.getD j 0 ≠ rs.codeLength then
      addPoly tmp (g.power2poly (g.multiplyPower (g.poly2power (syndromes.getD (i - j) 0#8)) (lambda.getD j 0)))
    else tmp) 0#8

def computeOmega (syndromes : List U8) (lambda : List Nat) (degLambda : Nat) : Nat × List Nat :=
  let omega := (range rs.nroots).map (fun i => rs.omegaCell syndromes lambda degLambda i)
  (degree omega rs.nroots, omega.map (fun a => rs.myGalois.poly2power a) ++ [rs.codeLength])

def powerSum (cells : List Nat) (root : Nat) (terms : List (Nat × Nat)) : U8 :=
  let g := rs.myGalois
  terms.foldl (fun sum t =>
    if cells.getD t.1 0 ≠ rs.codeLength then
      addPoly sum (g.power2poly (g.multiplyPower (cells.getD t.1 0) (g.powPower t.2 root)))
    else sum) 0#8

def num1 (omega : Nat × List Nat) (root : Nat) : U8 :=
  rs.powerSum omega.2 root ((range (omega.1 + 1)).map (fun k => (omega.1 - k, omega.1 - k)))

def num2 (root : Nat) : U8 :=
  let g := rs.myGalois
  g.power2poly (g.multiplyPower (g.powPower root (g.dividePower rs.fcr 1)) rs.codeLength)

def den (lambda : Nat × List Nat) (root : Nat) : U8 :=
  let half := min lambda.1 (rs.nroots - 1) / 2
  rs.powerSum lambda.2 root ((range (half + 1)).map (fun k => (2 * (half - k) + 1, 2 * (half - k))))

def correction (num1 num2 den : U8) : U8 :=
  let g := rs.myGalois
  let tmp1 := rs.codeLength - g.poly2power den
  let tmp2 := g.multiplyPower (g.poly2power num1) (g.poly2power num2)
  g.power2poly (g.multiplyPower tmp2 tmp1)

def applyErrors (lambda omega : Nat × List Nat) : List (Nat × Nat) → Int → List U8 → Int × List U8
  | [], rootCount, data => (rootCount, data)
  | (root, loc) :: rest, rootCount, data =>
    let num1 := rs.num1 omega root
    let den := rs.den lambda root
    if den = 0#8 then (-1, data)
    else if num1 = 0#8 then applyErrors lambda omega rest rootCount data
    else if loc ≥ rs.codeLength - rs.nroots then applyErrors lambda omega rest (rootCount - 1) data
    else applyErrors lambda omega rest rootCount
      (data.set loc (addPoly (data.getD loc 0#8) (rs.correction num1 (rs.num2 root) den)))

def decodeRs (data : List U8) : Int × List U8 :=
  let syndromes := rs.computeSyndromes data
  if syndromes.2 then (0, data)
  else
    let lambda := rs.computeLambda syndromes.1
    match rs.computeErrors lambda.2 lambda.1 with
    | none => (-1, data)
    | some roots =>
      let omega := rs.computeOmega syndromes.1 lambda.2 lambda.1
      rs.applyErrors lambda omega roots.reverse roots.length data

def dec (r : List U8) (cutlen : Nat) : Int × List U8 :=
  let decoded := rs.decodeRs (rs.extend r cutlen)
  (decoded.1, rs.dataPart decoded.2 cutlen)

end ReedSolomon

def mRsDecoder : ReedSolomon := ReedSolomon.new 8 0o435 0 1 10

end DabStar
