import DabStar.Mp4Processor
import Mathlib.Data.Rat.Defs

/-! XML sample files (devices/filereaders/xml_filereader): which of the four readers run takes,
what it reads for a sample, and where a jump leads to. Rounding to f32 is left out. -/
namespace DabStar

def toI32 (n : Int) : Int := n.bmod 4294967296

inductive Container where
  | int8
  | uint8
  | int16
  | int24
  | int32
  | float32
  deriving DecidableEq, Repr

/- The readers ask for MSB only; any other text is taken for LSB. -/
inductive ByteOrder where
  | msb
  | lsb
  deriving DecidableEq, Repr

inductive F32 where
  | value (q : ℚ)
  | bits (b : Nat)
  deriving DecidableEq

def F32.ofBits (b : Nat) : F32 := if b = 0 then .value 0 else .bits b

namespace XmlDescriptor

def addChannelOrder (iqOrder : String) (channelOrder : Nat) (value : String) : String :=
  if channelOrder > 1 then iqOrder
  else if channelOrder = 0 then if value = "I" then "I_ONLY" else "Q_ONLY"
  else if iqOrder = "I_ONLY" ∧ value = "Q" then "IQ"
  else if iqOrder = "Q_ONLY" ∧ value = "I" then "QI"
  else iqOrder

def iqOrder (values : List String) : String :=
  values.zipIdx.foldl (fun iqOrder (value, channelOrder) => addChannelOrder iqOrder channelOrder value) "IQ"

end XmlDescriptor

namespace XmlReader

inductive Term where
  | constant (q : ℚ)
  | int8 (index : Nat)
  | uint8 (index : Nat)
  | mapped (entry : Nat)
  | int16 (high low : Nat)
  | int24 (high middle low : Nat) (extension : Nat)
  | int32 (highest high low lowest : Nat)
  | float32 (highest high low lowest : Nat)
  deriving DecidableEq

def shift (nrBits : Nat) : Int := toI32 (2 ^ (nrBits - 1) : Nat)

def mapTable (i : Nat) : ℚ := ((i : ℚ) - 12738 / 100) / 128

namespace Term

def signExtended (temp extension : Nat) : Nat := if temp &&& 0x800000 ≠ 0 then temp ||| extension else temp

def eval (scaler : Int) (lbuf : Nat → Nat) : Term → F32
  | constant q => .value q
  | int8 index => .value (((lbuf index : Int).bmod 256 : ℚ) / 127)
  | uint8 index => .value (mapTable (lbuf index))
  | mapped entry => .value (mapTable entry)
  | int16 high low => .value ((toI16 (lbuf high <<< 8 ||| lbuf low : Nat) : ℚ) / scaler)
  | int24 high middle low extension =>
    .value ((toI32 (signExtended (lbuf high <<< 16 ||| lbuf middle <<< 8 ||| lbuf low) extension) : ℚ) / scaler)
  | int32 highest high low lowest =>
    .value ((toI32 (lbuf highest <<< 24 ||| lbuf high <<< 16 ||| lbuf low <<< 8 ||| lbuf lowest : Nat) : ℚ) / scaler)
  | float32 highest high low lowest =>
    .ofBits (lbuf highest <<< 24 ||| lbuf high <<< 16 ||| lbuf low <<< 8 ||| lbuf lowest)

def Safe (size : Nat) : Term → Prop
  | constant _ => True
  | int8 index => index < size
  | uint8 index => index < size
  | mapped entry => entry < 256
  | int16 high low => high < size ∧ low < size
  | int24 high middle low _ => high < size ∧ middle < size ∧ low < size
  | int32 highest high low lowest => highest < size ∧ high < size ∧ low < size ∧ lowest < size
  | float32 highest high low lowest => highest < size ∧ high < size ∧ low < size ∧ lowest < size

end Term

section Readers

def width : Container → Nat
  | .int8 | .uint8 => 1
  | .int16 => 2
  | .int24 => 3
  | .int32 | .float32 => 4

def element (container : Container) (byteOrder : ByteOrder) (first : Nat) : Term :=
  match container, byteOrder with
  | .int8, _ => .int8 first
  | .uint8, _ => .uint8 first
  | .int16, .msb => .int16 first (first + 1)
  | .int16, .lsb => .int16 (first + 1) first
  | .int24, .msb => .int24 first (first + 1) (first + 2) 0xFF000000
  | .int24, .lsb => .int24 (first + 2) (first + 1) first 0xFF000000
  | .int32, .msb => .int32 first (first + 1) (first + 2) (first + 3)
  | .int32, .lsb => .int32 (first + 3) (first + 2) (first + 1) first
  | .float32, .msb => .float32 first (first + 1) (first + 2) (first + 3)
  | .float32, .lsb => .float32 (first + 3) (first + 2) (first + 1) first

variable (container : Container) (byteOrder : ByteOrder) (i : Nat)

def readElementsIQ : Term × Term :=
  match container, byteOrder with
  | .int8, _ => (.int8 (2 * i), .int8 (2 * i + 1))
  | .uint8, _ => (.uint8 (2 * i), .uint8 (2 * i + 1))
  | .int16, _ => (element .int16 byteOrder (4 * i), element .int16 byteOrder (4 * i + 2))
  -- the middle byte of Q is taken at 4 * i + 4
  | .int24, .msb => (element .int24 .msb (6 * i), .int24 (6 * i + 3) (4 * i + 4) (6 * i + 5) 0xFF000000)
  | .int24, .lsb => (element .int24 .lsb (6 * i), element .int24 .lsb (6 * i + 3))
  | .int32, _ => (element .int32 byteOrder (8 * i), element .int32 byteOrder (8 * i + 4))
  | .float32, _ => (element .float32 byteOrder (8 * i), element .float32 byteOrder (8 * i + 4))

def readElementsQI : Term × Term :=
  match container, byteOrder with
  | .int8, _ => (.int8 (2 * i + 1), .int8 (2 * i))
  -- the table is asked for the index and not for the byte
  | .uint8, _ => (.mapped (2 * i + 1), .mapped (2 * i))
  | .int16, _ => (element .int16 byteOrder (4 * i + 2), element .int16 byteOrder (4 * i))
  -- here the sign is extended by seven bits only
  | .int24, .msb =>
    (.int24 (6 * i + 3) (4 * i + 4) (6 * i + 5) 0x7F000000, .int24 (6 * i) (6 * i + 1) (6 * i + 2) 0x7F000000)
  | .int24, .lsb => (element .int24 .lsb (6 * i + 3), element .int24 .lsb (6 * i))
  | .int32, _ => (element .int32 byteOrder (8 * i + 4), element .int32 byteOrder (8 * i))
  -- not exchanged
  | .float32, _ => (element .float32 byteOrder (8 * i), element .float32 byteOrder (8 * i + 4))

def readElementsI : Term × Term := (element container byteOrder (width container * i), .constant 0)

def readElementsQ : Term × Term :=
  match container with
  | .int8 => (.constant 127, .int8 i)
  | _ => (.constant 0, element container byteOrder (width container * i))

end Readers

structure Reader where
  elements : Nat
  sample : Container → ByteOrder → Nat → Term × Term

def reader (iqOrder : String) : Reader :=
  if iqOrder = "IQ" then ⟨2,readElementsIQ⟩
  else if iqOrder = "QI" then ⟨2,readElementsQI⟩
  else if iqOrder = "I_Only" then ⟨1,readElementsI⟩
  else ⟨1,readElementsQ⟩

end XmlReader

end DabStar
