import DabStar.FirecodeBursts

/-! What check_and_correct_6bits does to a header. A true result is a header that passes the
check, at most six bits away. A burst is taken back if the loops have it and no round before
has its syndrome. -/
namespace DabStar.FirecodeChecker
open List Lib
variable {v : Visit} {x e : List U8}

def masked : List (Nat × Nat) :=
  [(15, 0b101),(15, 0b1101),(14, 0b101),(14, 0b111),(14, 0b1111),(12, 0b10111),(47, 0b11001),
   (46, 0b11001),(45, 0b11001),(70, 0b10101),(69, 0b10101),(12, 0b110001),(11, 0b110001),(15, 0b100011),
   (15, 0b110101),(15, 0b111001),(14, 0b100011),(14, 0b110001),(23, 0b100011),(22, 0b101011),(78, 0b100101)]

def maskedBy : List (Visit × Visit) :=
  [(⟨1,4,20⟩, ⟨0,0,10⟩),(⟨1,4,26⟩, ⟨10,0,104⟩),(⟨1,4,40⟩, ⟨0,0,20⟩),(⟨1,4,56⟩, ⟨7,0,56⟩),
   (⟨1,4,60⟩, ⟨0,0,30⟩),(⟨1,4,184⟩, ⟨8,0,23⟩),(⟨5,4,25⟩, ⟨1,4,50⟩),(⟨5,4,50⟩, ⟨1,4,100⟩),
   (⟨5,4,100⟩, ⟨1,4,200⟩),(⟨8,4,42⟩, ⟨1,4,21⟩),(⟨8,4,84⟩, ⟨1,4,42⟩),(⟨1,2,49⟩, ⟨4,0,49⟩),
   (⟨1,2,98⟩, ⟨4,0,98⟩),(⟨1,6,70⟩, ⟨3,0,35⟩),(⟨1,6,106⟩, ⟨7,2,106⟩),(⟨1,6,114⟩, ⟨6,0,228⟩),
   (⟨1,6,140⟩, ⟨3,0,70⟩),(⟨1,6,196⟩, ⟨4,2,49⟩),(⟨2,6,70⟩, ⟨1,2,35⟩),(⟨2,6,172⟩, ⟨1,2,86⟩),
   (⟨9,6,148⟩, ⟨1,2,37⟩)]

def Located (e : List U8) : Prop := ∀ start r, LiesAt e start r → BitRuns.Trimmed r →
  ¬(r.length = 6 ∧ start % 8 = 5) ∧ ¬(r = run 0b11101 ∧ 4 ≤ start % 8) ∧ ∀ m ∈ masked, ¬(start = m.1 ∧ r = run m.2)

theorem syndromeSelect (fits : v.Fits) : v.syndrome = Crc.select (Crc.byteBits v.shape) (bitSyndromes.drop (v.row * 8 + v.shift)) := by
  rw [Visit.syndrome,crc16Select,(visitWhole fits).same,Crc.selectBehind,Crc.selectFront]

theorem clashesMasked : FirstCome.clashes (fun v : Visit => Crc.select (Crc.byteBits v.shape) (bitSyndromes.drop (v.row * 8 + v.shift))) 1
      visits = maskedBy.map Prod.fst := by decide +kernel

theorem maskedRounds : maskedBy.map (fun m => (m.1.start, odd m.1.shape)) = masked := by decide

theorem memShift {shift rows first last : Nat} :
    v ∈ visitShift shift rows first last ↔ v.row < rows ∧ v.shift = shift ∧ v.shape ∈ slice first last := by
  simp only [visitShift,mem_flatMap,mem_map,mem_range]
  constructor
  · rintro ⟨row,small,p,listed,rfl⟩
    exact ⟨small,rfl,listed⟩
  · rintro ⟨small,rfl,listed⟩
    exact ⟨v.row,small,v.shape,listed,rfl⟩

theorem memVisits : v ∈ visits ↔ ((v.row < 11 ∧ v.shift = 0 ∧ v.shape ∈ slice 0 124 ∨ v.row < 10 ∧ v.shift = 4 ∧ v.shape ∈ slice 0 45) ∨
      v.row < 10 ∧ v.shift = 2 ∧ v.shape ∈ slice 45 75) ∨ v.row < 10 ∧ v.shift = 6 ∧ v.shape ∈ slice 60 90 := by
  simp only [visits,mem_append,memShift]

theorem firstVisit (visited : v ∈ visits) (free : (v.start, odd v.shape) ∉ masked) :
    v.syndrome ≠ 0 ∧ visits.find? (fun u => u.syndrome = v.syndrome) = some v := by
  have keys : ∀ u ∈ visits, u.syndrome = Crc.select (Crc.byteBits u.shape) (bitSyndromes.drop (u.row * 8 + u.shift)) := fun u member =>
    syndromeSelect (visitFits member)
  have early : v ∉ FirstCome.clashes Visit.syndrome 1 visits := by
    rw [FirstCome.clashesCongr keys,clashesMasked]
    intro late
    obtain ⟨m,member,same⟩ := mem_map.mp late
    rw [← maskedRounds,← same] at free
    exact free (mem_map.mpr ⟨m,member,rfl⟩)
  obtain ⟨unseen,found⟩ := FirstCome.firstUnlessClash visited early
  refine ⟨fun zero => ?_,found⟩
  rw [zero] at unseen
  cases unseen

theorem flipLength (eleven : x.length = 11) (eleven' : e.length = 11) : (flip x e).length = 11 := by simp [flip,eleven,eleven']

theorem flipInj {x a b : List U8} (eleven : x.length = 11) (left : a.length = 11) (right : b.length = 11)
    (same : flip x a = flip x b) : a = b := by
  refine ext_getElem (left.trans right.symm) fun i inside inside' => ?_
  have there : i < x.length := by omega
  have byte := congrArg (fun l => l.getD i 0#8) same
  simpa [flip,getD_eq_getElem?_getD,inside,inside',there] using byte

theorem flipTwice (eleven : x.length = 11) (eleven' : e.length = 11) : flip (flip x e) e = x := by
  refine ext_getElem (by simp [flip,eleven,eleven']) fun i inside inside' => ?_
  simp [flip]

theorem flipZero {x : List U8} (eleven : x.length = 11) : flip x (replicate 11 0#8) = x := by
  refine ext_getElem (by simp [flip,eleven]) fun i inside inside' => ?_
  simp only [flip,getElem_zipWith,getElem_replicate,BitVec.xor_zero]

theorem burstFlips {c e : List U8} (eleven : c.length = 11) (eleven' : e.length = 11) (burst : Burst e) : flip c e ≠ c := by
  intro unchanged
  have zero : e = replicate 11 0#8 := flipInj eleven eleven' rfl (unchanged.trans (flipZero eleven).symm)
  have none : bits (replicate 11 0#8) = replicate 88 false := by decide
  obtain ⟨start,run,_,one,lies⟩ := burst
  have member : true ∈ bits e := by
    rw [lies.same]
    simp [one]
  rw [zero,none] at member
  simp at member

theorem restoredFirst {c e : List U8} (eleven : c.length = 11) (eleven' : e.length = 11) (valid : check c = true) (burst : Burst e) :
    checkAndCorrect6bits (flip c e) = (true, c) ↔
      ∃ v, v.error = e ∧ v.syndrome ≠ 0 ∧ visits.find? (fun u => u.syndrome = v.syndrome) = some v := by
  have clean : crc16 c = 0 := by simpa [check] using valid
  have syndrome : crc16 (flip c e) = crc16 e := by rw [crc16Flip (eleven.trans eleven'.symm),clean,Nat.zero_xor]
  have length := flipLength eleven eleven'
  by_cases zero : crc16 e = 0
  · have passed := correctClean length [] (syndrome.trans zero)
    rw [append_nil] at passed
    constructor
    · intro restored
      rw [passed] at restored
      exact absurd (congrArg Prod.snd restored) (burstFlips eleven eleven' burst)
    · rintro ⟨v,rfl,nonzero,_⟩
      exact absurd zero nonzero
  · have fault : crc16 (flip c e) ≠ 0 := by rwa [syndrome]
    cases found : visits.find? (fun u => u.syndrome = crc16 (flip c e)) with
    | none =>
      have missed := correctMissed length [] fault found
      rw [append_nil] at missed
      constructor
      · intro restored
        rw [missed] at restored
        cases congrArg Prod.fst restored
      · rintro ⟨v,rfl,_,first⟩
        rw [syndrome] at found
        exact absurd (found.symm.trans first) nofun
    | some v =>
      have corrected := correctFound length [] fault found
      rw [append_nil,append_nil] at corrected
      rw [syndrome] at found
      have own : v.syndrome = crc16 e := by simpa using List.find?_some found
      constructor
      · intro restored
        rw [corrected] at restored
        have back := (congrArg Prod.snd restored).trans (flipTwice eleven eleven').symm
        have same := flipInj length (errorLength v) eleven' back
        exact ⟨v,same,by rwa [own],by rwa [own]⟩
      · rintro ⟨w,rfl,_,first⟩
        have same : v = w := Option.some.inj (found.symm.trans first)
        rw [corrected,same,flipTwice eleven eleven']

theorem maskedLate {v w : Visit} (pair : (v, w) ∈ maskedBy) :
    v ∈ visits ∧ w ∈ visits ∧ (w.start, odd w.shape) ∉ masked ∧ w.syndrome = v.syndrome ∧ w.start ≠ v.start := by
  have data : ∀ m ∈ maskedBy, (m.1 ∈ visits ∧ m.2 ∈ visits) ∧ (m.2.start, odd m.2.shape) ∉ masked ∧
      Crc.select (Crc.byteBits m.2.shape) (bitSyndromes.drop (m.2.row * 8 + m.2.shift)) =
        Crc.select (Crc.byteBits m.1.shape) (bitSyndromes.drop (m.1.row * 8 + m.1.shift)) ∧ m.2.start ≠ m.1.start := by
    simp only [memVisits]
    decide
  obtain ⟨⟨first,second⟩,free,same,other⟩ := data _ pair
  rw [← syndromeSelect (visitFits first),← syndromeSelect (visitFits second)] at same
  exact ⟨first,second,free,same,other⟩

theorem burstRestored {c e : List U8} (eleven : c.length = 11) (eleven' : e.length = 11) (valid : check c = true)
    (burst : Burst e) (factor : ∀ start, ¬LiesAt e start (run 0b101111)) : checkAndCorrect6bits (flip c e) = (true, c) ↔ Located e := by
  rw [restoredFirst eleven eleven' valid burst]
  obtain ⟨start,r,trimmed,short,lies⟩ := burstTrimmed burst
  have visited := visitedIff eleven' lies trimmed short fun same => factor start (same ▸ lies)
  constructor
  · rintro ⟨v,rfl,_,first⟩ s q there trimmed'
    obtain ⟨rfl,rfl⟩ := liesUnique there lies trimmed' trimmed
    have member := mem_of_find?_eq_some first
    obtain ⟨long,short⟩ := visited.mp ⟨v,member,rfl⟩
    refine ⟨long,short,?_⟩
    rintro m listed ⟨place,shape⟩
    rw [← maskedRounds] at listed
    obtain ⟨⟨late,w⟩,pair,rfl⟩ := mem_map.mp listed
    obtain ⟨lateVisited,taken,free,same,other⟩ := maskedLate pair
    have lateFits := visitFits lateVisited
    have lateLies := visitLies lateFits
    dsimp only at place shape
    rw [← (patternRun _ lateFits.listed).2.2.2.1,← shape,← place] at lateLies
    have error : late.error = v.error := bitsInj (errorLength late) (errorLength v) (lateLies.same.trans lies.same.symm)
    have own : late.syndrome = v.syndrome := congrArg crc16 error
    have holder := (firstVisit taken free).2
    rw [same,own] at holder
    have equal : v = w := Option.some.inj (first.symm.trans holder)
    have fits := visitFits member
    obtain ⟨begin',_⟩ := liesUnique lies (visitLies fits) trimmed (patternRun _ fits.listed).1
    exact other (by rw [← equal,← begin',place])
  · intro located
    obtain ⟨long,short,free⟩ := located start r lies trimmed
    obtain ⟨v,member,rfl⟩ := visited.mpr ⟨long,short⟩
    have fits := visitFits member
    obtain ⟨trim,_,_,same,_⟩ := patternRun _ fits.listed
    obtain ⟨place,shape⟩ := liesUnique lies (visitLies fits) trimmed trim
    have free' : (v.start, odd v.shape) ∉ masked := fun listed => free _ listed ⟨place,by rw [shape,same]⟩
    exact ⟨v,rfl,firstVisit member free'⟩

theorem burstRestoredFirstBit : check (replicate 11 0#8) = true ∧
    (checkAndCorrect6bits (flip (replicate 11 0#8) (0x80#8 :: replicate 10 0#8)) =
      (true, replicate 11 0#8) ↔ Located (0x80#8 :: replicate 10 0#8)) := by
  have valid : check (replicate 11 0#8) = true := by decide
  have lies : LiesAt (0x80#8 :: replicate 10 0#8) 0 [true] := ⟨by decide,by decide⟩
  refine ⟨valid,burstRestored rfl rfl valid ⟨0,[true],by decide,by decide,lies⟩ fun start there => ?_⟩
  have same := (liesUnique there lies (by decide) (by decide)).2
  exact absurd same (by decide)

def gapError : List U8 := 0x04#8 :: 0x20#8 :: replicate 9 0#8

theorem gapUnrestored : check (replicate 11 0#8) = true ∧ Burst gapError ∧ (∀ start, ¬LiesAt gapError start (run 0b101111)) ∧
    checkAndCorrect6bits (flip (replicate 11 0#8) gapError) ≠ (true, replicate 11 0#8) := by
  have valid : check (replicate 11 0#8) = true := by decide
  have lies : LiesAt gapError 5 (run 0b100001) := ⟨by decide,by decide⟩
  have burst : Burst gapError := ⟨5,run 0b100001,by decide,by decide,lies⟩
  have trimmed : BitRuns.Trimmed (run 0b100001) := by decide
  have factor : run 0b100001 ≠ run 0b101111 := by decide
  refine ⟨valid,burst,fun start there => ?_,fun restored => ?_⟩
  · exact factor (liesUnique there lies (by decide) trimmed).2.symm
  · obtain ⟨v,error,_,first⟩ := (restoredFirst rfl rfl valid burst).mp restored
    have visited := (visitedIff rfl lies trimmed (by decide) factor).mp
      ⟨v,mem_of_find?_eq_some first,error⟩
    exact visited.1 ⟨by decide,by decide⟩

end DabStar.FirecodeChecker
