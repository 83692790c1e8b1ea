import DabStar.Galois
import Mathlib.Data.List.Sort

/-! The table of TII transmitters: the lines of a coded text file, the first of each key and
channel. The end of the file is asked for right behind reading a line, so the last line is
never looked at. -/
namespace DabStar.TiiCodes
open List

structure Qt (Q F : Type) where
  fromUtf8 : List U8 → Q
  trimmed : Q → Q
  length : Q → Nat
  leadingZero : Q → Q
  containsTunnel : Q → Bool
  toInt : Q → Option Int
  toIntHex : Q → Option Int
  toFloat : Q → Option F
  zero : F

structure TiiDataEntry (Q F : Type) where
  id : Int
  country : Q
  channel : Q
  ensemble : Q
  eid : BitVec 16
  mainId : U8
  subId : U8
  transmitterName : Q
  latitude : F
  longitude : F
  power : F
  altitude : Int
  height : Int
  polarization : Q
  frequency : F
  direction : Q

def separator : U8 := 0x3B#8

def newline : U8 := 0x0A#8

def nrColumns : Nat := 15

def lineBytes : Nat := 1024

variable {Q F : Type} (qt : Qt Q F)

section Code

def getFlt (s : Q) : F := (qt.toFloat (qt.trimmed s)).getD qt.zero

def getInt (s : Q) : Int := (qt.toInt (qt.trimmed s)).getD 0

def getEId (s : Q) : BitVec 16 := BitVec.ofInt 16 ((qt.toIntHex (qt.trimmed s)).getD 0)

def getMainId (s : Q) : U8 := ((BitVec.ofInt 16 (getInt qt s)) / 100#16).setWidth 8

def getSubId (s : Q) : U8 := ((BitVec.ofInt 16 (getInt qt s)) % 100#16).setWidth 8

def patchChannelName (channel : Q) : Q := if qt.length channel < 3 then qt.leadingZero channel else channel

def makeKeyBase (e : TiiDataEntry Q F) : BitVec 32 := (e.eid.setWidth 32 <<< 16) ||| (e.mainId.setWidth 32 <<< 8) ||| e.subId.setWidth 32

def entryOf (columns : List (List U8)) : TiiDataEntry Q F :=
  let column i := qt.fromUtf8 (columns.getD i [])
  { id := getInt qt (column 0)
    country := qt.trimmed (column 1)
    channel := patchChannelName qt (qt.trimmed (column 2))
    ensemble := qt.trimmed (column 3)
    eid := getEId qt (column 4)
    mainId := getMainId qt (column 5)
    subId := getSubId qt (column 5)
    transmitterName := column 6
    latitude := getFlt qt (column 7)
    longitude := getFlt qt (column 8)
    altitude := getInt qt (column 9)
    height := getInt qt (column 10)
    polarization := qt.trimmed (column 11)
    frequency := getFlt qt (column 12)
    power := getFlt qt (column 13)
    direction := qt.trimmed (column 14) }

def readLine (file : List U8) : Option (List U8 × List U8) :=
  let size := min (lineBytes - 1) (file.idxOf newline + 1)
  if file = [] then none else some (file.take size, file.drop size)

def decode (shift b : U8) : U8 := if shift = 0xAA#8 then b ^^^ 0xAA#8 else b - shift

/- The text ends at a zero byte, both before and after decoding. -/
def eread (shift : U8) (line : List U8) : List U8 := (line.takeWhile (· ≠ 0#8)).map (decode shift)

def readColumns (N : Nat) (tb : List U8) : List U8 → List (List U8)
  | [] => []
  | b :: rest =>
    if b = 0#8 ∨ b = newline then []
    else if b = separator then tb :: if N ≤ 1 then [] else readColumns (N - 1) [] rest
    else readColumns N (tb ++ [b]) rest

abbrev Cache (Q F : Type) := List (BitVec 32 × TiiDataEntry Q F)

variable [DecidableEq Q]

def isAlreadyCached (cache : Cache Q F) (key : BitVec 32) (channel : Q) : Bool := (cache.filter (·.1 = key)).any (·.2.channel = channel)

def insertEntry (cache : Cache Q F) (ed : TiiDataEntry Q F) : Cache Q F :=
  if isAlreadyCached cache (makeKeyBase ed) ed.channel then cache
  else if qt.containsTunnel ed.transmitterName then cache
  else cache.orderedInsert (fun a b => a.1 < b.1) (makeKeyBase ed, ed)

def takeLine (shift : U8) (cache : Cache Q F) (line : List U8) : Cache Q F :=
  let columns := readColumns nrColumns [] (eread shift line)
  if columns.length < nrColumns then cache else insertEntry qt cache (entryOf qt columns)

theorem readLineShorter {file line rest : List U8} (read : readLine file = some (line, rest)) : rest.length < file.length := by
  unfold readLine lineBytes at read
  dsimp only at read
  split at read
  · exact nomatch read
  · next some =>
    cases read
    have := length_pos_iff.mpr some
    rw [length_drop]
    omega

/- The end of the file is asked for between the reading of a line and its use. -/
def readLines (shift : U8) (cache : Cache Q F) (file : List U8) : Cache Q F :=
  match _read : readLine file with
  | none => cache
  | some (line, rest) => if rest = [] then cache else readLines shift (takeLine qt shift cache line) rest
termination_by file.length
decreasing_by exact readLineShorter _read

def readFile : List U8 → Cache Q F
  | [] => []
  | shift :: file => readLines qt shift [] file

def fillCacheFromTiiFile (cache : Cache Q F) : Option (Option (List U8)) → Bool × Cache Q F
  | none => (false, cache)
  | some none => (false, [])
  | some (some file) => (true, readFile qt file)

end Code

/- A line of a file with a given shift, as it is meant: at least fifteen columns of fewer than
256 bytes, each with a separator behind it. -/
structure Line (shift : U8) where
  bytes : List U8
  columns : List (List U8)
  tail : List U8
  text : (bytes.takeWhile (· ≠ 0#8)).map (decode shift) = columns.flatMap (· ++ [separator]) ++ tail
  short : bytes.length + 1 < lineBytes
  whole : newline ∉ bytes
  count : columns.length = nrColumns
  plain : ∀ c ∈ columns, c.length < 256 ∧ ∀ b ∈ c, b ≠ 0#8 ∧ b ≠ newline ∧ b ≠ separator

def fileOf {shift : U8} (lines : List (Line shift)) : List U8 := shift :: lines.flatMap fun l => l.bytes ++ [newline]

def entriesOf {shift : U8} (lines : List (Line shift)) : List (TiiDataEntry Q F) := lines.map fun l => entryOf qt l.columns

section Reading

theorem columnRead (rest : List U8) {c : List U8} (plain : ∀ b ∈ c, b ≠ 0#8 ∧ b ≠ newline ∧ b ≠ separator) (N : Nat) (tb : List U8) :
    readColumns N tb (c ++ separator :: rest) = (tb ++ c) :: if N ≤ 1 then [] else readColumns (N - 1) [] rest := by
  induction c generalizing tb with
  | nil =>
    rw [nil_append,readColumns,if_neg (by decide),if_pos rfl,append_nil]
  | cons b c ih =>
    obtain ⟨zero,inner,other⟩ := plain b mem_cons_self
    rw [cons_append,readColumns,if_neg (by simp [zero,inner]),if_neg other,ih fun b member => plain b (mem_cons_of_mem _ member)]
    simp

theorem columnsRead {columns : List (List U8)} (some : columns ≠ [])
    (plain : ∀ c ∈ columns, c.length < 256 ∧ ∀ b ∈ c, b ≠ 0#8 ∧ b ≠ newline ∧ b ≠ separator) (tail : List U8) :
    readColumns columns.length [] (columns.flatMap (· ++ [separator]) ++ tail) = columns := by
  induction columns with
  | nil => exact absurd rfl some
  | cons c columns ih =>
    have first := columnRead (columns.flatMap (· ++ [separator]) ++ tail) (plain c mem_cons_self).2 (columns.length + 1) []
    rw [flatMap_cons,append_assoc,append_assoc,singleton_append,length_cons,first,nil_append,Nat.add_sub_cancel]
    by_cases last : columns = []
    · simp [last]
    · have more := length_pos_iff.mpr last
      rw [if_neg (by omega),ih last fun c member => plain c (mem_cons_of_mem _ member)]

variable {shift : U8} (l : Line shift)

theorem lineColumns : readColumns nrColumns [] (eread shift (l.bytes ++ [newline])) = l.columns := by
  have some : l.columns ≠ [] := fun none => absurd l.count (by simp [none,nrColumns])
  have more : ∃ more, eread shift (l.bytes ++ [newline]) = l.columns.flatMap (· ++ [separator]) ++ more := by
    unfold eread
    rw [takeWhile_append]
    split
    · next all =>
      have same : l.bytes.takeWhile (· ≠ 0#8) = l.bytes := IsPrefix.eq_of_length ( takeWhile_prefix _) all
      have text := l.text
      rw [same] at text
      exact ⟨_,by rw [map_append,text,append_assoc]⟩
    · exact ⟨_,l.text⟩
  obtain ⟨more,text⟩ := more
  rw [text,← l.count]
  exact columnsRead some l.plain more

theorem lineRead (rest : List U8) : readLine (l.bytes ++ [newline] ++ rest) = some (l.bytes ++ [newline], rest) := by
  have place : (l.bytes ++ [newline] ++ rest).idxOf newline = l.bytes.length := by
    rw [append_assoc,idxOf_append_of_notMem l.whole,singleton_append,idxOf_cons_self,Nat.add_zero]
  have size : min (lineBytes - 1) (l.bytes.length + 1) = (l.bytes ++ [newline]).length := by
    have := l.short
    rw [length_append,length_singleton]
    omega
  rw [readLine,if_neg (by simp),place,size,take_left,drop_left]

variable [DecidableEq Q]

theorem readLinesStep {file line rest : List U8} (read : readLine file = some (line, rest)) (cache : Cache Q F) :
    readLines qt shift cache file = if rest = [] then cache else readLines qt shift (takeLine qt shift cache line) rest := by
  rw [readLines]
  split
  · next none => exact nomatch none.symm.trans read
  · next same =>
    cases same.symm.trans read
    rfl

theorem linesRead (lines : List (Line shift)) (cache : Cache Q F) :
    readLines qt shift cache (lines.flatMap fun l => l.bytes ++ [newline]) = (entriesOf qt lines.dropLast).foldl (insertEntry qt) cache := by
  induction lines generalizing cache with
  | nil =>
    rw [readLines]
    rfl
  | cons l more ih =>
    rw [flatMap_cons,readLinesStep qt (lineRead l _)]
    cases more with
    | nil => rfl
    | cons next more =>
      rw [if_neg (by simp),ih,takeLine,lineColumns,if_neg (by rw [l.count]; exact Nat.lt_irrefl _)]
      rfl

end Reading

section Completeness
variable [DecidableEq Q]

def wanted (key : BitVec 32) (channel : Q) (e : TiiDataEntry Q F) : Bool :=
  makeKeyBase e = key ∧ e.channel = channel ∧ qt.containsTunnel e.transmitterName = false

def Complete (entries : List (TiiDataEntry Q F)) (cache : Cache Q F) : Prop :=
  ∀ key channel, cache.filter (fun x => x.1 = key ∧ x.2.channel = channel) =
    ((entries.find? (wanted qt key channel)).map (key, ·)).toList

variable {entries : List (TiiDataEntry Q F)} {cache : Cache Q F} {e : TiiDataEntry Q F}

theorem cachedIff (complete : Complete qt entries cache) (key : BitVec 32) (channel : Q) :
    isAlreadyCached cache key channel = true ↔ ∃ e ∈ entries, wanted qt key channel e = true := by
  have found : isAlreadyCached cache key channel = true ↔ cache.filter (fun x => x.1 = key ∧ x.2.channel = channel) ≠ [] := by
    unfold isAlreadyCached
    simp only [any_filter,any_eq_true,ne_eq,filter_eq_nil_iff,not_forall,decide_eq_true_eq,Bool.and_eq_true,not_not,exists_prop]
  rw [found,complete key channel]
  cases first : entries.find? (wanted qt key channel) with
  | none =>
    simpa using fun e member => find?_eq_none.mp first e member
  | some e => simpa using ⟨e,mem_of_find?_eq_some first,find?_some first⟩

theorem insertOther {key : BitVec 32} {channel : Q} (other : ¬ (makeKeyBase e = key ∧ e.channel = channel)) :
    (insertEntry qt cache e).filter (fun x => x.1 = key ∧ x.2.channel = channel) =
      cache.filter (fun x => x.1 = key ∧ x.2.channel = channel) := by
  unfold insertEntry
  split
  · rfl
  · split
    · rfl
    · rw [orderedInsert_eq_take_drop,filter_append,filter_cons_of_neg (by simpa using other),← filter_append,takeWhile_append_dropWhile]

theorem insertUnchanged (needless : qt.containsTunnel e.transmitterName = true ∨ isAlreadyCached cache (makeKeyBase e) e.channel = true) :
    insertEntry qt cache e = cache := by
  unfold insertEntry
  rcases needless with tunnel | known
  · rw [if_pos tunnel,ite_self]
  · rw [if_pos known]

theorem insertComplete (complete : Complete qt entries cache) (e : TiiDataEntry Q F) :
    Complete qt (entries ++ [e]) (insertEntry qt cache e) := by
  intro key channel
  rw [find?_append]
  by_cases here : makeKeyBase e = key ∧ e.channel = channel
  · obtain ⟨rfl,rfl⟩ := here
    have pair := complete (makeKeyBase e) e.channel
    have known := cachedIff qt complete (makeKeyBase e) e.channel
    cases first : entries.find? (wanted qt (makeKeyBase e) e.channel) with
    | some earlier =>
      have cached := known.mpr ⟨earlier,mem_of_find?_eq_some first,find?_some first⟩
      rw [insertUnchanged qt (.inr cached),pair,first,Option.some_or]
    | none =>
      have absent : isAlreadyCached cache (makeKeyBase e) e.channel = false := by
        rw [← Bool.not_eq_true,known]
        rintro ⟨earlier,member,fits⟩
        exact find?_eq_none.mp first earlier member fits
      rw [first] at pair
      rw [Option.none_or]
      by_cases tunnel : qt.containsTunnel e.transmitterName = true
      · rw [insertUnchanged qt (.inl tunnel),pair]
        simp [wanted,tunnel]
      · rw [insertEntry,absent,if_neg Bool.false_ne_true,if_neg tunnel,orderedInsert_eq_take_drop,filter_append,
          filter_cons_of_pos (by simp)]
        rw [← takeWhile_append_dropWhile (p := fun b => decide (¬ (makeKeyBase e < b.1))) (l := cache),filter_append] at pair
        obtain ⟨front,behind⟩ := append_eq_nil_iff.mp pair
        rw [front,behind]
        simp [wanted,tunnel]
  · rw [insertOther qt here,complete key channel]
    have skipped : wanted qt key channel e = false := by
      simp only [wanted,decide_eq_false_iff_not]
      exact fun fits => here ⟨fits.1,fits.2.1⟩
    rw [find?_singleton,skipped,if_neg Bool.false_ne_true,Option.or_none]

theorem insertsComplete (entries : List (TiiDataEntry Q F)) : Complete qt entries (entries.foldl (insertEntry qt) []) := by
  induction entries using List.reverseRecOn with
  | nil => exact fun _ _ => rfl
  | append_singleton entries e ih =>
    rw [foldl_append]
    exact insertComplete qt ih e

theorem lastNeedless (complete : Complete qt entries cache) : Complete qt (entries ++ [e]) cache ↔
    qt.containsTunnel e.transmitterName = true ∨ ∃ earlier ∈ entries, wanted qt (makeKeyBase e) e.channel earlier = true := by
  have known := cachedIff qt complete (makeKeyBase e) e.channel
  constructor
  · intro whole
    by_contra needed
    obtain ⟨tunnel,fresh⟩ := not_or.mp needed
    refine fresh (known.mp ((cachedIff qt whole _ _).mpr ⟨e,by simp,?_⟩))
    simpa [wanted] using tunnel
  · intro needless
    rw [← known] at needless
    rw [← insertUnchanged qt needless]
    exact insertComplete qt (insertUnchanged qt needless ▸ complete) e

theorem fileRead {shift : U8} (lines : List (Line shift)) (cache : Cache Q F) :
    (fillCacheFromTiiFile qt cache (some (some (fileOf lines)))).2 = (entriesOf qt lines.dropLast).foldl (insertEntry qt) [] :=
  linesRead qt lines []

theorem tableComplete {shift : U8} (lines : List (Line shift)) (cache : Cache Q F) :
    Complete qt (entriesOf qt lines) (fillCacheFromTiiFile qt cache (some (some (fileOf lines)))).2 ↔
      ∀ last ∈ (entriesOf qt lines).getLast?, qt.containsTunnel last.transmitterName = true ∨
        ∃ earlier ∈ (entriesOf qt lines).dropLast, wanted qt (makeKeyBase last) last.channel earlier = true := by
  rw [fileRead]
  rcases eq_nil_or_concat lines with rfl | ⟨front,last,rfl⟩
  · exact iff_of_true (insertsComplete qt []) nofun
  · rw [concat_eq_append,dropLast_concat]
    unfold entriesOf
    rw [map_append,map_singleton,getLast?_concat,dropLast_concat,lastNeedless qt (insertsComplete qt _)]
    simp only [Option.mem_def,Option.some.injEq,forall_eq']

def bytesOnly : Qt (List U8) Unit :=
  { fromUtf8 := id, trimmed := id, length := List.length, leadingZero := (0x30#8 :: ·), containsTunnel := fun _ => false,
    toInt := fun _ => none, toIntHex := fun _ => none, toFloat := fun _ => none, zero := () }

def onlyLine : Line 0#8 := ⟨replicate 15 separator,replicate 15 [],[],by decide,by decide,by decide,by decide,by decide⟩

theorem onlyLineMissing : ¬ Complete bytesOnly (entriesOf bytesOnly [onlyLine]) (fillCacheFromTiiFile bytesOnly [] (some (some (fileOf [onlyLine])))).2 := by
  rw [fileRead]
  exact fun complete => absurd (congrArg List.length (complete 0#32 [0x30#8])) (by decide)

end Completeness
end DabStar.TiiCodes
