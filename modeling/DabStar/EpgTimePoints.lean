import DabStar.EpgDecoder
import DabStar.Lib.BitFields

/-! Time points of the EPG. The date has 17 bits, but 16 are collected; a negative offset of
the local time is subtracted from 32. -/
namespace DabStar.EpgDecoder
open Lib.BitFields

structure LocalTimeOffset where
  rfa : BitVec 2
  negative : Bool
  halfHours : BitVec 5
  deriving DecidableEq, Repr

structure TimePointField where
  rfa : BitVec 1
  date : BitVec 17
  rfu : BitVec 1
  hours : BitVec 5
  minutes : BitVec 6
  seconds : Option (BitVec 16)
  lto : Option LocalTimeOffset
  deriving DecidableEq, Repr

namespace LocalTimeOffset

def bits (o : LocalTimeOffset) : List Bool := field o.rfa ++ field (BitVec.ofBool o.negative) ++ field o.halfHours

def signed (o : LocalTimeOffset) : Int := if o.negative then -(o.halfHours.toNat : Int) else o.halfHours.toNat

def added (o : LocalTimeOffset) : Nat := if o.negative then (32 - o.halfHours.toNat) % 32 else o.halfHours.toNat

end LocalTimeOffset

namespace TimePointField

def bits (t : TimePointField) : List Bool :=
  field t.rfa ++ field t.date ++ field t.rfu ++ field (BitVec.ofBool t.lto.isSome) ++ field (BitVec.ofBool t.seconds.isSome) ++
    field t.hours ++ field t.minutes ++ t.seconds.elim [] field ++ t.lto.elim [] LocalTimeOffset.bits

def minutesOfDay (t : TimePointField) : Int := 60 * t.hours.toNat + t.minutes.toNat + 30 * t.lto.elim 0 LocalTimeOffset.signed

end TimePointField

section Reading
variable {v : List U8}

theorem bitMask : ∀ (b : U8), ∀ k < 8, (if b.toNat &&& (0x80 >>> k) ≠ 0 then 1 else 0) = (b.getMsbD k).toNat := by decide +kernel

theorem getBitNumber (v : List U8) (bitnr : Nat) : getBit v bitnr = (byteBits v bitnr).toNat :=
  bitMask (v.getD (bitnr / 8) 0#8) (bitnr % 8) (Nat.mod_lt _ (by decide))

theorem getBitsNumber (v : List U8) (bitnr length : Nat) : getBits v bitnr length = number (byteBits v) bitnr length % 65536 := by
  induction length with
  | zero => rfl
  | succ length ih =>
    have bit := Bool.toNat_le (byteBits v (bitnr + length))
    have step : getBits v bitnr (length + 1) = ((getBits v bitnr length <<< 1) ||| getBit v (bitnr + length)) % 65536 := by
      unfold getBits
      rw [List.range_succ,List.foldl_append]
      rfl
    rw [step,ih,getBitNumber,← Nat.shiftLeft_add_eq_or_of_lt (by omega),Nat.shiftLeft_eq,number]
    omega

theorem readBits {w offset : Nat} {b : BitVec w} (written : Written (byteBits v) offset (field b)) (narrow : w ≤ 16) :
    getBits v offset w = b.toNat := by
  have small : b.toNat < 65536 := Nat.lt_of_lt_of_le b.isLt (Nat.pow_le_pow_right (by decide) narrow)
  rw [getBitsNumber,fieldNumber written,Nat.mod_eq_of_lt small]

theorem readFlag {offset : Nat} {b : Bool} (written : Written (byteBits v) offset (field (BitVec.ofBool b))) : getBit v offset = b.toNat := by
  have value := fieldNumber written
  rw [BitVec.toNat_ofBool] at value
  rw [getBitNumber,← value]
  simp [number]

theorem readOffset {offset : Nat} {o : LocalTimeOffset} (written : Written (byteBits v) offset o.bits) :
    getBits v offset 8 = 64 * o.rfa.toNat + 32 * o.negative.toNat + o.halfHours.toNat := by
  simp only [LocalTimeOffset.bits,writtenAppend,fieldLength,List.length_append] at written
  obtain ⟨⟨rfa,sign⟩,half⟩ := written
  have high := fieldNumber rfa
  have middle := fieldNumber sign
  have low := fieldNumber half
  have whole : number (byteBits v) offset 8 = 64 * o.rfa.toNat + 32 * o.negative.toNat + o.halfHours.toNat := by
    rw [show 8 = 2 + 1 + 5 from rfl,numberAppend,numberAppend,high,middle,low,BitVec.toNat_ofBool]
    ring
  have small := numberLt (byteBits v) offset 8
  rw [getBitsNumber,Nat.mod_eq_of_lt (by omega),whole]

theorem offsetAdded : ∀ (rfa : BitVec 2) (negative : Bool) (halfHours : BitVec 5),
    (if (64 * rfa.toNat + 32 * negative.toNat + halfHours.toNat) &&& 0x20 ≠ 0 then
        (65536 - (64 * rfa.toNat + 32 * negative.toNat + halfHours.toNat)) % 65536 &&& 0x1F
      else (64 * rfa.toNat + 32 * negative.toNat + halfHours.toNat) &&& 0x1F) = LocalTimeOffset.added ⟨rfa,negative,halfHours⟩ := by
  decide +kernel

end Reading

section TimePoints
variable {v : List U8} {index : Nat} {t : TimePointField}

theorem timePointRead (written : Written (byteBits v) (8 * index) t.bits) (julianDate : Nat) : process474 v julianDate index =
    if julianDate ≠ t.date.toNat % 65536 then -1
    else ((t.hours.toNat * 60 + (t.minutes.toNat + t.lto.elim 0 LocalTimeOffset.added * 30) : Nat) : Int) := by
  obtain ⟨rfa,date,rfu,hours,minutes,seconds,lto⟩ := t
  simp only [TimePointField.bits,writtenAppend,fieldLength,List.length_append,Nat.reduceAdd] at written
  obtain ⟨⟨⟨⟨⟨⟨⟨⟨_,day⟩,_⟩,ltoFlag⟩,utcFlag⟩,hour⟩,minute⟩,_⟩,offset⟩ := written
  have day : getBits v (8 * index + 1) 17 = date.toNat % 65536 := by rw [getBitsNumber,fieldNumber day]
  have hour := readBits hour (by decide)
  have minute := readBits minute (by decide)
  have ltoFlag := readFlag ltoFlag
  have utcFlag := readFlag utcFlag
  unfold process474
  rw [day]
  split
  · rfl
  · simp only [ltoFlag,utcFlag,hour,minute]
    cases lto with
    | none => simp
    | some o =>
      have place : (if seconds.isSome.toNat = 1 then 48 else 32) = 32 + (seconds.elim [] field).length := by
        cases seconds <;> simp
      have there : getBits v (8 * index + (if seconds.isSome.toNat = 1 then 48 else 32)) 8 =
          64 * o.rfa.toNat + 32 * o.negative.toNat + o.halfHours.toNat := by
        rw [place]
        exact readOffset offset
      have shift := offsetAdded o.rfa o.negative o.halfHours
      simp only [there,Option.isSome_some,Bool.toNat_true,one_ne_zero,if_false,Option.elim_some]
      rw [shift]
      rfl

/- The sixteen bits of the date say the same as all of them, and on its day the offset is
not negative. -/
structure TimePointField.Plain (t : TimePointField) (julianDate : Nat) : Prop where
  date : julianDate = t.date.toNat % 65536 ↔ julianDate = t.date.toNat
  offset : julianDate = t.date.toNat → 0 ≤ t.lto.elim 0 LocalTimeOffset.signed

theorem offsetExact (o : LocalTimeOffset) : (o.added : Int) = o.signed ↔ 0 ≤ o.signed := by
  obtain ⟨rfa,negative,halfHours⟩ := o
  have small := halfHours.isLt
  unfold LocalTimeOffset.added LocalTimeOffset.signed
  cases negative with
  | false => simp
  | true =>
    simp only [if_true]
    omega

theorem timePointExact (written : Written (byteBits v) (8 * index) t.bits) (julianDate : Nat) :
    ((process474 v julianDate index = -1 ↔ julianDate ≠ t.date.toNat) ∧
      (julianDate = t.date.toNat → process474 v julianDate index = t.minutesOfDay)) ↔ t.Plain julianDate := by
  have offset : ((t.lto.elim 0 LocalTimeOffset.added : Nat) : Int) = t.lto.elim 0 LocalTimeOffset.signed ↔
      0 ≤ t.lto.elim 0 LocalTimeOffset.signed := by
    cases t.lto with
    | none => simp
    | some o => exact offsetExact o
  have plain : t.Plain julianDate ↔ (julianDate = t.date.toNat % 65536 ↔ julianDate = t.date.toNat) ∧
      (julianDate = t.date.toNat → 0 ≤ t.lto.elim 0 LocalTimeOffset.signed) :=
    ⟨fun both => ⟨both.date,both.offset⟩,fun both => ⟨both.1,both.2⟩⟩
  rw [timePointRead written,plain,TimePointField.minutesOfDay]
  split <;> omega

def noon (date : BitVec 17) (lto : Option LocalTimeOffset) : TimePointField := ⟨0#1,date,0#1,12#5,0#6,none,lto⟩

theorem timePointNoon : process474 [0x39#8,0xD5#8,0xC3#8,0x00#8] 59223 0 = 720 := by
  have written : Written (byteBits [0x39#8,0xD5#8,0xC3#8,0x00#8]) (8 * 0) (noon 59223#17 none).bits := by decide
  exact ((timePointExact written 59223).mpr ⟨by decide,by decide⟩).2 rfl

theorem timePointsMisread : Written (byteBits [0x39#8,0xD5#8,0xD3#8,0x00#8,0x22#8]) 0 (noon 59223#17 (some ⟨0#2,true,2#5⟩)).bits ∧
    process474 [0x39#8,0xD5#8,0xD3#8,0x00#8,0x22#8] 59223 0 = 1620 ∧ (noon 59223#17 (some ⟨0#2,true,2#5⟩)).minutesOfDay = 660 ∧
    Written (byteBits [0x40#8,0x00#8,0x03#8,0x00#8]) 0 (noon 65536#17 none).bits ∧
    process474 [0x40#8,0x00#8,0x03#8,0x00#8] 65536 0 = -1 := by decide

end TimePoints

end DabStar.EpgDecoder
