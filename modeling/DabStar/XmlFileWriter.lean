import DabStar.WavWriter

/-! Recordings as XML files (common/xml_filewriter.cpp). The block buffers are static: what a
recording has left in them is the begin of the next one. Of the XML text only the element count
is looked at. -/
namespace DabStar
open List Lib.Files

inductive ElementType where
  | int16
  | uint8
  | int8
  deriving DecidableEq, Repr

def Element : ElementType → Type
  | .int16 => BitVec 16
  | .uint8 | .int8 => BitVec 8

def elementBytes : {t : ElementType} → Element t → List U8
  | .int16, v => littleEndian 2 (BitVec.toNat v)
  | .uint8, v => [v]
  | .int8, v => [v]

def zeroElement : (t : ElementType) → Element t
  | .int16 => (0#16 : BitVec 16)
  | .uint8 => (0#8 : BitVec 8)
  | .int8 => (0#8 : BitVec 8)

structure StaticBuffer (α : Type) where
  buffer : List α
  bufferP : Nat

abbrev StaticBuffers : Type := (t : ElementType) → StaticBuffer (Element t)

structure XmlFileWriter where
  xmlFile : SeekFile
  nrElements : Nat

namespace XmlFileWriter

def blockSize : Nat := 8192

def initial : StaticBuffers := fun t => ⟨replicate blockSize (zeroElement t),0⟩

def new : XmlFileWriter := ⟨(range 2048).foldl (fun f _ => f.write [0#8]) empty,0⟩

section Code
variable {t : ElementType}

def addSample (s : XmlFileWriter × StaticBuffer (Element t)) (sample : Element t × Element t) :
    XmlFileWriter × StaticBuffer (Element t) :=
  let (w, b) := s
  let buffer := (b.buffer.set b.bufferP sample.1).set (b.bufferP + 1) sample.2
  if b.bufferP + 2 ≥ blockSize then
    (⟨w.xmlFile.write (buffer.flatMap elementBytes),w.nrElements + blockSize⟩, ⟨buffer,0⟩)
  else (w, ⟨buffer,b.bufferP + 2⟩)

def add (w : XmlFileWriter) (statics : StaticBuffers) (t : ElementType) (data : List (Element t × Element t)) :
    XmlFileWriter × StaticBuffers :=
  let (w, b) := data.foldl addSample (w, statics t)
  (w, Function.update statics t b)

def topLine : List U8 := "<?xml version=\"1.0\" encoding=\"utf-8\"?>\n".toList.map fun c => BitVec.ofNat 8 c.toNat

def computeHeader (w : XmlFileWriter) (createXmltree : Nat → List U8) : XmlFileWriter :=
  { w with xmlFile := ((w.xmlFile.seekSet 0).write topLine).write (createXmltree w.nrElements) }

end Code

structure Recording where
  element : ElementType
  calls : List (List (Element element × Element element))
  createXmltree : Nat → List U8

def record (statics : StaticBuffers) (r : Recording) : XmlFileWriter × StaticBuffers :=
  let (w, statics) := r.calls.foldl (fun (w, statics) data => add w statics r.element data) (new, statics)
  (w.computeHeader r.createXmltree, statics)

def elements {α : Type} (data : List (α × α)) : List α := data.flatMap fun (re, im) => [re,im]

def Recording.elements (r : Recording) : List (Element r.element) := XmlFileWriter.elements r.calls.flatten

def left (t : ElementType) (before : List Recording) : Nat := ((before.filter (·.element = t)).map (·.elements.length)).sum % blockSize

/- The buffer is empty at the start, or what is in it is not written in this recording; and the
text fits in front of the data. -/
def Fresh (before : List Recording) (r : Recording) : Prop :=
  (left r.element before = 0 ∨ left r.element before + r.elements.length < blockSize) ∧
    ∀ count, (topLine ++ r.createXmltree count).length ≤ 2048

section Blocks
variable {t : ElementType} {front : List U8} {all : List (Element t)} {s : XmlFileWriter × StaticBuffer (Element t)}

structure Holds (front : List U8) (all : List (Element t)) (s : XmlFileWriter × StaticBuffer (Element t)) : Prop where
  size : s.2.buffer.length = 8192
  fill : s.2.bufferP = all.length % 8192
  even : all.length % 2 = 0
  pending : s.2.buffer.take (all.length % 8192) = all.drop (8192 * (all.length / 8192))
  bytes : s.1.xmlFile.bytes = front ++ (all.take (8192 * (all.length / 8192))).flatMap elementBytes
  atEnd : s.1.xmlFile.position = s.1.xmlFile.bytes.length
  count : s.1.nrElements = 8192 * (all.length / 8192)

structure Pending (b : StaticBuffer (Element t)) (p : List (Element t)) : Prop where
  size : b.buffer.length = 8192
  fill : b.bufferP = p.length
  short : p.length < 8192
  even : p.length % 2 = 0
  content : b.buffer.take p.length = p

end Blocks

def Steady (statics : StaticBuffers) (past : List Recording) : Prop := ∀ t, ∃ p, Pending (statics t) p ∧ p.length = left t past

end XmlFileWriter

end DabStar
