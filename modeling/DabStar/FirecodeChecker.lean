import DabStar.Galois

/-! The fire code of a DAB+ superframe header (backend/firecode_checker.cpp): eleven bytes,
the two parity bytes first. The syndrome table is a list of the cells filled so far; every
other cell is 0. -/
namespace DabStar.FirecodeChecker
open List

def polynom : Nat := 0x782f

def fillCrcTable (poly : Nat) : List Nat :=
  (range 256).map (fun i => (range 8).foldl (fun crc _ =>
    if crc &&& 0x8000 ≠ 0 then ((crc <<< 1) % 65536) ^^^ poly else (crc <<< 1) % 65536) (i <<< 8))

def crcTable : List Nat := fillCrcTable polynom

def crc16 (x : List U8) : Nat :=
  (range' 2 9 ++ range 2).foldl (fun crc i =>
    ((crc <<< 8) % 65536) ^^^ crcTable.getD ((crc >>> 8) ^^^ (x.getD i 0#8).toNat) 0) 0

def check (x : List U8) : Bool := crc16 x == 0

def pattern : List Nat :=
  [17,18,19,20,21,22,23,24,25,26,27,28,30,31,34,
   36,38,40,42,44,46,50,52,54,56,60,62,68,72,76,
   84,88,92,100,104,108,120,124,136,152,168,184,200,216,248,
   33,35,37,39,41,43,45,49,51,53,55,57,59,61,63,
   66,70,74,78,82,86,90,98,102,106,110,114,118,122,126,
   132,140,148,156,164,172,180,196,204,212,220,228,236,244,252,
   1,2,3,4,5,6,7,8,9,10,11,12,13,14,15,
   16,29,32,48,58,64,80,96,112,116,128,144,160,176,192,
   208,224,232,240]

def errorAt (i shift p : Nat) : List U8 :=
  ((replicate 11 0#8).set i (BitVec.ofNat 8 p >>> shift)).set (i + 1) (BitVec.ofNat 8 p <<< (8 - shift))

def cell (table : List (Nat × Nat)) (syndrome : Nat) : Nat := (table.lookup syndrome).getD 0

/- Patterns first .. last - 1 in each of the rows. A cell that is taken stays as it is. -/
def fillShift (shift rows first last : Nat) (table : List (Nat × Nat)) : List (Nat × Nat) :=
  (range rows).foldl (fun table i => (range' first (last - first)).foldl (fun table j =>
    let p := pattern.getD j 0
    let syndrome := crc16 (errorAt i shift p)
    if cell table syndrome = 0 then (syndrome, ((i * 8 + shift) <<< 8) + p) :: table else table) table) table

def syndromeTable : List (Nat × Nat) := fillShift 6 10 60 90 (fillShift 2 10 45 75 (fillShift 4 10 0 45 (fillShift 0 11 0 124 [])))

def checkAndCorrect6bits (x : List U8) : Bool × List U8 :=
  let syndrome := crc16 x
  if syndrome = 0 then (true, x)
  else
    let value := cell syndromeTable syndrome
    let error := BitVec.ofNat 8 (value &&& 0xff)
    if error ≠ 0#8 then
      let bit := value >>> 8
      let x := x.set (bit / 8) (x.getD (bit / 8) 0#8 ^^^ (error >>> (bit % 8)))
      (true, x.set (bit / 8 + 1) (x.getD (bit / 8 + 1) 0#8 ^^^ (error <<< (8 - bit % 8))))
    else (false, x)

theorem correctLength (x : List U8) : (checkAndCorrect6bits x).2.length = x.length := by
  unfold checkAndCorrect6bits
  dsimp only
  split
  · rfl
  · split
    · rw [length_set,length_set]
    · rfl

end DabStar.FirecodeChecker
