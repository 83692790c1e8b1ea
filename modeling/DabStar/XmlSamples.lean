import DabStar.XmlReader
import DabStar.Lib.Groups

/-! What the Channel elements of an XML file declare, and for which files the readers deliver
it. Six branches deviate, and a file with I alone is read by the reader for Q. -/
namespace DabStar.XmlReader
open List Lib.Groups

section Declared

inductive Channels where
  | i
  | q
  | iq
  | qi
  deriving DecidableEq, Repr

def Channels.values : Channels → List String
  | i => ["I"]
  | q => ["Q"]
  | iq => ["I","Q"]
  | qi => ["Q","I"]

def signed (width n : Nat) : Int := if n < 2 ^ (8 * width - 1) then n else n - 2 ^ (8 * width)

def convert (container : Container) (scaler : Int) (n : Nat) : F32 :=
  match container with
  | .int8 => .value ((signed 1 n : ℚ) / 127)
  | .uint8 => .value (mapTable n)
  | .int16 => .value ((signed 2 n : ℚ) / scaler)
  | .int24 => .value ((signed 3 n : ℚ) / scaler)
  | .int32 => .value ((signed 4 n : ℚ) / scaler)
  | .float32 => .ofBits n

def joined (bytes : List Nat) : Nat := bytes.foldl (fun n byte => 256 * n + byte) 0

def ordered (byteOrder : ByteOrder) (bytes : List Nat) : List Nat :=
  match byteOrder with
  | .msb => bytes
  | .lsb => bytes.reverse

variable (container : Container) (byteOrder : ByteOrder) (scaler : Int) (file : List U8)

def bytesAt (first count : Nat) : List Nat := ((file.drop first).take count).map (·.toNat)

def number (p : Nat) : Nat := joined (ordered byteOrder (bytesAt file (width container * p) (width container)))

def lbuf (index : Nat) : Nat := (file.getD index 0#8).toNat

end Declared

section Elements
variable (container : Container) (byteOrder : ByteOrder) (scaler : Int) (file : List U8) {temp : Nat}

theorem bytesAtGet {first count : Nat} (inside : first + count ≤ file.length) :
    bytesAt file first count = (range count).map fun j => lbuf file (first + j) := by
  rw [bytesAt,← stretch file 0#8 inside,map_map]
  rfl

theorem signBit (small : temp < 2 ^ 24) : temp &&& 0x800000 ≠ 0 ↔ 2 ^ 23 ≤ temp := by
  have bit : temp &&& 0x800000 = (temp.testBit 23).toNat * 2 ^ 23 := Nat.and_two_pow temp 23
  rw [bit,Nat.testBit_eq_decide_div_mod_eq]
  by_cases top : temp / 2 ^ 23 % 2 = 1
  · simp only [top,decide_true,Bool.toNat_true]
    omega
  · simp only [top,decide_false,Bool.toNat_false]
    omega

section
variable (highest high low lowest : Nat)

end

theorem joinedLt (bytes : List Nat) (small : ∀ byte ∈ bytes, byte < 256) : joined bytes < 256 ^ bytes.length := by
  induction bytes using List.reverseRecOn with
  | nil => exact Nat.one_pos
  | append_singleton bytes byte ih =>
    have front := ih (fun b member => small b (mem_append_left _ member))
    have last := small byte (by simp)
    rw [joined,foldl_append,length_append,length_singleton,Nat.pow_succ]
    change 256 * joined bytes + byte < _
    omega

theorem bytesAtSmall (first count : Nat) : ∀ byte ∈ bytesAt file first count, byte < 256 := by
  intro byte member
  obtain ⟨b,-,rfl⟩ := mem_map.mp member
  exact b.isLt

theorem orderedSmall {bytes : List Nat} (small : ∀ byte ∈ bytes, byte < 256) : ∀ byte ∈ ordered byteOrder bytes, byte < 256 := by
  cases byteOrder with
  | msb => exact small
  | lsb => exact fun byte member => small byte (mem_reverse.mp member)

theorem orderedLength (bytes : List Nat) : (ordered byteOrder bytes).length = bytes.length := by
  cases byteOrder <;> simp [ordered]

theorem bytesAtLength {first count : Nat} (inside : first + count ≤ file.length) : (bytesAt file first count).length = count := by
  rw [bytesAtGet file inside,length_map,length_range]

theorem numberLt {p : Nat} (inside : width container * (p + 1) ≤ file.length) :
    number container byteOrder file p < 2 ^ (8 * width container) := by
  have fits : width container * p + width container ≤ file.length := by rwa [← Nat.mul_succ]
  have small := joinedLt _ (orderedSmall byteOrder (bytesAtSmall file (width container * p) (width container)))
  rwa [orderedLength,bytesAtLength file fits,show 256 = 2 ^ 8 from rfl,← Nat.pow_mul] at small

variable {container scaler} {n m : Nat}

end Elements

section Samples
variable {container : Container} {byteOrder : ByteOrder} {scaler : Int} {file : List U8} {k amount : Nat}

theorem chosen (channels : Channels) : reader (XmlDescriptor.iqOrder channels.values) = match channels with
    | .iq => ⟨2,readElementsIQ⟩
    | .qi => ⟨2,readElementsQI⟩
    | .i | .q => ⟨1,readElementsQ⟩ := by
  cases channels <;> rfl

def plain (container : Container) (byteOrder : ByteOrder) (p : Nat) : Term := element container byteOrder (width container * p)

end Samples

section Files
variable {container : Container} {byteOrder : ByteOrder} {scaler : Int} {file : List U8} {channels : Channels} {amount : Nat}

end Files

end DabStar.XmlReader
