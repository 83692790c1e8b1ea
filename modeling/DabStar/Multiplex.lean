import DabStar.FigEntries

/-! The multiplex configuration over whole runs of the decoder. Only FIG 0/1 adds a
sub-channel, only FIG 0/0 swaps the configurations; so the checks made when a sub-channel is
added carry over to every state reached. -/
namespace DabStar.Fib.Multiplex
open List FibDecoder
variable {l : List Fig0s1}

def cuRange (e : Fig0s1) : Set Int := Set.Ico e.startAddr (e.startAddr + e.subChannelSize)

/- An entry without any capacity unit can only come from a zero size field. -/
structure Consistent (l : List Fig0s1) : Prop where
  distinct : (l.map Fig0s1.subChId).Nodup
  inside : ∀ e ∈ l, 0 ≤ e.startAddr ∧ e.startAddr + e.subChannelSize ≤ cNumCuPerCif
  sized : ∀ e ∈ l, 0 < e.subChannelSize ∨ (e.shortForm = false ∧ e.subChannelSize = 0)
  disjoint : l.Pairwise (fun a b => Disjoint (cuRange a) (cuRange b))

def Both (P : List Fig0s1 → Prop) (s : FibDecoder) : Prop := P s.fig0Curr.fig0s1Vec ∧ P s.fig0Next.fig0s1Vec

structure Accepted (l : List Fig0s1) (cand : Fig0s1) : Prop where
  fresh : ∀ e ∈ l, e.subChId ≠ cand.subChId
  fits : cand.startAddr + cand.subChannelSize ≤ cNumCuPerCif
  free : ∀ e ∈ l, ¬ Collides e cand

structure Kept (P : List Fig0s1 → Prop) : Prop where
  empty : P []
  stored : ∀ {l d bitOffset}, P l → Accepted l (readFig0s1 d bitOffset) → P (l ++ [readFig0s1 d bitOffset])

theorem consistentNil : Consistent [] := ⟨nodup_nil,by simp,by simp,List.Pairwise.nil⟩

theorem consistentSnoc {cand : Fig0s1} (consistent : Consistent l) (fresh : ∀ e ∈ l, e.subChId ≠ cand.subChId)
    (fits : 0 ≤ cand.startAddr ∧ cand.startAddr + cand.subChannelSize ≤ cNumCuPerCif)
    (sized : 0 < cand.subChannelSize ∨ (cand.shortForm = false ∧ cand.subChannelSize = 0))
    (apart : ∀ e ∈ l, Disjoint (cuRange e) (cuRange cand)) : Consistent (l ++ [cand]) where
  distinct := by
    rw [map_append,nodup_append]
    refine ⟨consistent.distinct,nodup_singleton _,?_⟩
    intro id known other isCand same
    obtain ⟨e,stored,rfl⟩ := mem_map.mp known
    rw [map_singleton,mem_singleton] at isCand
    exact fresh e stored (same.trans isCand)
  inside := by
    intro e stored
    rcases mem_append.mp stored with old | new
    · exact consistent.inside e old
    · rw [mem_singleton.mp new]
      exact fits
  sized := by
    intro e stored
    rcases mem_append.mp stored with old | new
    · exact consistent.sized e old
    · rw [mem_singleton.mp new]
      exact sized
  disjoint := by
    rw [pairwise_append]
    refine ⟨consistent.disjoint,pairwise_singleton _ _,?_⟩
    intro e stored other isCand
    rw [mem_singleton.mp isCand]
    exact apart e stored

theorem notCollidesApart {e cand : Fig0s1} (placed : 0 ≤ e.startAddr) (free : ¬ Collides e cand) : Disjoint (cuRange e) (cuRange cand) := by
  rw [Set.disjoint_left]
  rintro cu ⟨fromE,toE⟩ ⟨fromCand,toCand⟩
  apply free
  unfold Collides
  omega

theorem protLevelSized : ∀ index < 64, 0 < (cProtLevelTable.getD index ⟨0,0,0⟩).cuSize := by decide

theorem readPlaced (d : Bits) (bitOffset : Nat) : 0 ≤ (readFig0s1 d bitOffset).startAddr := by
  unfold readFig0s1
  dsimp only
  split
  · exact Int.natCast_nonneg _
  · split
    · exact Int.natCast_nonneg _
    · split <;> exact Int.natCast_nonneg _

theorem readSized (d : Bits) (bitOffset : Nat) : 0 < (readFig0s1 d bitOffset).subChannelSize ∨
    ((readFig0s1 d bitOffset).shortForm = false ∧ (readFig0s1 d bitOffset).subChannelSize = 0) := by
  have long : ∀ size : Nat, (0 : Int) < size ∨ (false = false ∧ (size : Int) = 0) := by
    intro size
    rcases Nat.eq_zero_or_pos size with zero | positive
    · exact Or.inr ⟨rfl,by rw [zero]; rfl⟩
    · exact Or.inl (by exact_mod_cast positive)
  unfold readFig0s1
  dsimp only
  split
  · have positive := protLevelSized (getBits6 d (bitOffset + 18)) (getBitsLt d (bitOffset + 18) 6)
    exact Or.inl (Int.natCast_pos.mpr positive)
  · split
    · exact long _
    · split <;> exact long _

theorem unknownFresh {c : FibConfigFig0} {id : Int} (stored : c.fig0s1Vec = l)
    (unknown : c.getFig0s1OfSubChId id = none) : ∀ e ∈ l, e.subChId ≠ id := by
  intro e inside same
  unfold FibConfigFig0.getFig0s1OfSubChId at unknown
  rw [stored,List.find?_eq_none] at unknown
  exact unknown e inside (by simpa using same)

theorem noCollision {cand : Fig0s1} (none : findCollidingFig0s1 l cand = none) : ∀ e ∈ l, ¬ Collides e cand := by
  intro e inside
  have checked := List.find?_eq_none.mp none e inside
  simpa using checked

theorem acceptedFree {c : FibConfigFig0} {d : Bits} {bitOffset : Nat} (unknown : c.getFig0s1OfSubChId (getBits6 d bitOffset) = none)
    (fits : (readFig0s1 d bitOffset).startAddr + (readFig0s1 d bitOffset).subChannelSize ≤ cNumCuPerCif)
    (free : findCollidingFig0s1 c.fig0s1Vec (readFig0s1 d bitOffset) = none) : Accepted c.fig0s1Vec (readFig0s1 d bitOffset) := by
  refine ⟨?_,fits,noCollision free⟩
  rw [readSubChId]
  exact unknownFresh rfl unknown

theorem consistentKept : Kept Consistent where
  empty := consistentNil
  stored := by
    intro l d bitOffset consistent accepted
    refine consistentSnoc consistent accepted.fresh ⟨readPlaced d _,accepted.fits⟩ (readSized d _) ?_
    intro e stored
    exact notCollidesApart (consistent.inside e stored).1 (accepted.free e stored)

def Described (l : List Fig0s1) : Prop := ∀ e ∈ l, ∃ d bitOffset, e = readFig0s1 d bitOffset

theorem describedKept : Kept Described where
  empty := by
    intro e stored
    cases stored
  stored := by
    intro l d bitOffset described _ e stored
    rcases mem_append.mp stored with old | new
    · exact described e old
    · exact ⟨d,bitOffset,mem_singleton.mp new⟩

section Runs
variable {s : FibDecoder}

variable {P : List Fig0s1 → Prop} (kept : Kept P) (toQString : Nat → List Nat → List Nat)
include kept

theorem keptInvariant : Invariant (fun _ => True) (fun c => P c.fig0s1Vec) where
  initial := kept.empty
  cleared _ := kept.empty
  clusters _ before := before
  stored := by
    intro d s cnFlag c _ stored before
    cases stored with
    | fig0s1 bitOffset unknown fits free => exact kept.stored before (acceptedFree unknown fits free)
    | _ => exact before

theorem fig0s1Kept (both : Both P s) (d : Bits) (offset : Nat) (fh : FigHeader) : Both P (subprocessFig0s1 s d offset fh).1 :=
  passedKeeps (keptInvariant kept) (fun _ _ => trivial) (fig0s1Passed (mem_singleton_self d) s offset fh) both

theorem figKept (both : Both P s) (d : Bits) : Both P (processFig toQString s d) :=
  passedKeeps (keptInvariant kept) (fun _ _ => trivial) (figPassed (mem_singleton_self d) toQString s) both

theorem stepKept (both : Both P s) (event : Event) : Both P (step toQString s event) :=
  stepKeeps (keptInvariant kept) toQString (fun _ _ _ _ => trivial) both

theorem runFromStart (events : List Event) : Both P (run toQString {} events) :=
  startKeeps (keptInvariant kept) toQString (fun _ _ _ _ => trivial)

end Runs

section Breaking
variable {s t : FibDecoder} {d : Bits} {used : Nat} {fib : Bits}

variable (toQString : Nat → List Nat → List Nat)

inductive FigReached (fib : Bits) (s : FibDecoder) : FibDecoder → Nat → Prop
  | first : FigReached fib s { s with restartFibDecoding := false } 0
  | next {t : FibDecoder} {processedBytes : Nat} (before : FigReached fib s t processedBytes)
      (room : processedBytes < 30) (fig : isEndMarker (figAt fib processedBytes) = false)
      (going : (processFig toQString t (figAt fib processedBytes)).restartFibDecoding = false) :
      FigReached fib s (processFig toQString t (figAt fib processedBytes))
        (processedBytes + getBits5 (figAt fib processedBytes) 3 + 1)

inductive EntryReached (d : Bits) (s : FibDecoder) : FibDecoder → Nat → Prop
  | first : EntryReached d s s 2
  | next {t : FibDecoder} {used : Nat} (before : EntryReached d s t used)
      (room : used ≤ (getFigHeader d).length)
      (going : (subprocessFig0s1 t d used (getFigHeader d)).1.restartFibDecoding = false) :
      EntryReached d s (subprocessFig0s1 t d used (getFigHeader d)).1 (subprocessFig0s1 t d used (getFigHeader d)).2

structure BreaksAt (d : Bits) (s : FibDecoder) (used : Nat) : Prop where
  room : used ≤ (getFigHeader d).length
  unknown : (s.getConfig (getFigHeader d).cnFlag).getFig0s1OfSubChId (getBits6 d (used * 8)) = none
  inconsistent : ¬ Consistent ((s.getConfig (getFigHeader d).cnFlag).fig0s1Vec ++ [readFig0s1 d (used * 8)])

def Breaks (s : FibDecoder) (fib : Bits) : Prop :=
  ∃ t processedBytes u used, FigReached toQString fib s t processedBytes ∧ processedBytes < 30 ∧
    getBits3 (figAt fib processedBytes) 0 = 0 ∧ getBits5 (figAt fib processedBytes) 11 = 1 ∧
    EntryReached (figAt fib processedBytes) t u used ∧ BreaksAt (figAt fib processedBytes) u used

def Emptied (s : FibDecoder) : Prop :=
  s.fig0Curr = s.fig0Curr.reset ∧ s.fig0Next = s.fig0Next.reset ∧ s.fig1 = {} ∧ s.fibLoadingState = .s0Init

theorem restartEmptied (s : FibDecoder) : Emptied s.restart := ⟨rfl,rfl,rfl,rfl⟩

theorem entryBytesPositive (e : Fig0s1) : 0 < entryBytes e := by
  unfold entryBytes
  split <;> omega

theorem entryAdvances (s : FibDecoder) (d : Bits) (used : Nat) (fh : FigHeader) : used < (subprocessFig0s1 s d used fh).2 := by
  have entry := fig0s1Entry s d used fh
  generalize subprocessFig0s1 s d used fh = outcome at entry
  cases entry with
  | known | stored | restarts => exact Nat.lt_add_of_pos_right (entryBytesPositive _)

theorem entryRounds (reached : EntryReached d s t used) : ∃ fuel, 34 ≤ fuel + used ∧
      processFig0Loop subprocessFig0s1 s d = fig0Rounds subprocessFig0s1 d (getFigHeader d) fuel t used := by
  induction reached with
  | first => exact ⟨32,le_refl _,rfl⟩
  | @next t used before room going ih =>
    obtain ⟨fuel,enough,same⟩ := ih
    have short : (getFigHeader d).length < 32 := getBitsLt d 3 5
    obtain ⟨rest,rfl⟩ : ∃ rest, fuel = rest + 1 := ⟨fuel - 1,by omega⟩
    have advances := entryAdvances t d used (getFigHeader d)
    refine ⟨rest,by omega,same.trans ?_⟩
    rw [fig0Rounds,if_pos room]
    simp only [going,Bool.false_eq_true,if_false]

theorem figRounds {processedBytes : Nat} (reached : FigReached toQString fib s t processedBytes) : ∃ fuel, 30 ≤ fuel + processedBytes ∧
      processFib toQString s fib = fibRounds toQString fib fuel t processedBytes := by
  induction reached with
  | first => exact ⟨30,le_refl _,rfl⟩
  | @next t processedBytes before room fig going ih =>
    obtain ⟨fuel,enough,same⟩ := ih
    obtain ⟨rest,rfl⟩ : ∃ rest, fuel = rest + 1 := ⟨fuel - 1,by omega⟩
    refine ⟨rest,by omega,same.trans ?_⟩
    rw [fibRounds,if_pos room]
    simp only [fig,going,Bool.false_eq_true,if_false]

theorem entryReachedSound (sound : Both Consistent s) (reached : EntryReached d s t used) : Both Consistent t := by
  induction reached with
  | first => exact sound
  | next _ _ _ ih => exact fig0s1Kept consistentKept ih d _ _

theorem figReachedSound {processedBytes : Nat} (sound : Both Consistent s)
    (reached : FigReached toQString fib s t processedBytes) : Both Consistent t := by
  induction reached with
  | first => exact sound
  | next _ _ _ _ ih => exact figKept consistentKept toQString ih _

theorem breaksAtRestarts {s : FibDecoder} (sound : Both Consistent s) (breaks : BreaksAt d s used) :
    (subprocessFig0s1 s d used (getFigHeader d)).1 = s.restart := by
  have entry := fig0s1Entry s d used (getFigHeader d)
  generalize subprocessFig0s1 s d used (getFigHeader d) = outcome at entry
  cases entry with
  | known found =>
    rw [breaks.unknown] at found
    cases found
  | stored unknown taken =>
    have fits := not_lt.mp (fun outside => taken (.inl outside))
    have free := Option.not_isSome_iff_eq_none.mp (fun colliding => taken (.inr colliding))
    have consistent := bothConfigsGet (P := fun c => Consistent c.fig0s1Vec) sound (getFigHeader d).cnFlag
    exact absurd (consistentKept.stored consistent (acceptedFree unknown fits free)) breaks.inconsistent
  | restarts => rfl

theorem breakingLoop (sound : Both Consistent s) (reached : EntryReached d s t used) (breaks : BreaksAt d t used) :
    processFig0Loop subprocessFig0s1 s d = t.restart := by
  obtain ⟨fuel,enough,same⟩ := entryRounds reached
  have short : (getFigHeader d).length < 32 := getBitsLt d 3 5
  have room := breaks.room
  obtain ⟨rest,rfl⟩ : ∃ rest, fuel = rest + 1 := ⟨fuel - 1,by omega⟩
  have restarted := breaksAtRestarts (entryReachedSound sound reached) breaks
  rw [same,fig0Rounds,if_pos room]
  simp only [restarted]
  exact if_pos rfl

theorem breaksEmpties {s : FibDecoder} (sound : Both Consistent s) (breaks : Breaks toQString s fib) :
    Emptied (processFib toQString s fib) := by
  obtain ⟨t,processedBytes,u,used,figReached,room,fig0,extension,entryReached,breaksAt⟩ := breaks
  obtain ⟨fuel,enough,same⟩ := figRounds toQString figReached
  obtain ⟨rest,rfl⟩ : ∃ rest, fuel = rest + 1 := ⟨fuel - 1,by omega⟩
  have loop := breakingLoop (figReachedSound toQString sound figReached) entryReached breaksAt
  have processed : processFig toQString t (figAt fib processedBytes) = u.restart := by
    unfold processFig processFig0
    simp only [fig0,extension]
    unfold processFig0Extension
    rw [loop]
    exact if_neg (fun fast => fast.1 rfl)
  have noMarker : isEndMarker (figAt fib processedBytes) = false := by
    unfold isEndMarker
    simp [fig0]
  rw [same,fibRounds,if_pos room]
  have restarted : u.restart.restartFibDecoding = true := rfl
  simp only [noMarker,processed,restarted,Bool.false_eq_true,if_false,if_true]
  exact restartEmptied u

end Breaking

def InsideCif (e : Fig0s1) : Prop := 0 ≤ e.startAddr * 64 ∧ e.startAddr * 64 + e.subChannelSize * 64 ≤ 55296

theorem consistentInsideCif {l : List Fig0s1} (consistent : Consistent l) : ∀ e ∈ l, InsideCif e := by
  intro e stored
  have inside := consistent.inside e stored
  unfold cNumCuPerCif at inside
  unfold InsideCif
  omega

theorem multiplexConsistent (toQString : Nat → List Nat → List Nat) (events : List Event) : Both Consistent (run toQString {} events) ∧
    (∀ e ∈ (run toQString {} events).fig0Curr.fig0s1Vec, InsideCif e) ∧
    ∀ fib, Breaks toQString (run toQString {} events) fib → Emptied (processFib toQString (run toQString {} events) fib) := by
  have sound := runFromStart consistentKept toQString events
  refine ⟨sound,consistentInsideCif sound.1,?_⟩
  intro fib breaks
  exact breaksEmpties toQString sound breaks

def fibOf (bytes : List Nat) : Bits := fun i => (bytes.getD (i / 8) 0).testBit (7 - i % 8)

def overlappingFib : Bits := fibOf [0x07,0x01,0x04,0x00,0x00,0x08,0x05,0x00,0xFF]

def plainText (_ : Nat) (text : List Nat) : List Nat := text

theorem overlappingEntries : ¬ Consistent [readFig0s1 overlappingFib 16,readFig0s1 overlappingFib 40] := by
  intro consistent
  have apart := rel_of_pairwise_cons consistent.disjoint (mem_singleton_self _)
  have first : (5 : Int) ∈ cuRange (readFig0s1 overlappingFib 16) := by
    unfold cuRange
    exact ⟨by decide,by decide⟩
  have second : (5 : Int) ∈ cuRange (readFig0s1 overlappingFib 40) := by
    unfold cuRange
    exact ⟨by decide,by decide⟩
  exact Set.disjoint_left.mp apart first second

theorem overlappingBreaks : Breaks plainText {} overlappingFib := by
  refine ⟨_,0,_,_,FigReached.first,by decide,by decide,by decide,
    EntryReached.next EntryReached.first (by decide) (by decide),⟨by decide,by decide,?_⟩⟩
  exact overlappingEntries

theorem overlappingEmpties : Breaks plainText (run plainText {} []) overlappingFib ∧
    Emptied (processFib plainText (run plainText {} []) overlappingFib) :=
  ⟨overlappingBreaks,(multiplexConsistent plainText []).2.2 overlappingFib overlappingBreaks⟩

def sizelessFib : Bits := fibOf [0x05,0x01,0x0C,0x0A,0x80,0x00,0xFF]

theorem sizelessStored : ∃ e ∈ (run plainText {} [.fib sizelessFib]).fig0Curr.fig0s1Vec, cuRange e = ∅ := by
  refine ⟨{ subChId := 3, startAddr := 10, option := 0, protectionLevel := 0, subChannelSize := 0, bitRate := 0 },
    by decide,?_⟩
  unfold cuRange
  simp

end DabStar.Fib.Multiplex
