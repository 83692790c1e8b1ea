import DabStar.StoreKeys
import DabStar.Multiplex
import DabStar.Lib.Framing

/-! Where the entry loop splits a FIG into entries. For a sub-channel, a packet mode component
and user applications that are known already, the length is that of the stored entry. -/
namespace DabStar.Fib.FibDecoder
open List Lib.Framing

inductive EntryFig where
  | fig0s1
  | fig0s2
  | fig0s3
  | fig0s5
  | fig0s8
  | fig0s13
  | fig0s14
  deriving DecidableEq, Repr

inductive EntryKey where
  | subChannel (subChId : Nat)
  | component (scId : Nat)
  | userApps (sId scIdS : Nat)
  | none
  deriving DecidableEq, Repr

def storedBytes (s : FibDecoder) (cnFlag : Nat) : EntryKey → Option Nat
  | .subChannel subChId => ((s.getConfig cnFlag).getFig0s1OfSubChId subChId).map entryBytes
  | .component scId => ((s.getConfig cnFlag).getFig0s3OfSCId scId).map fig0s3Bytes
  | .userApps sId scIdS => (s.fig0Curr.getFig0s13OfSIdSCIdS sId scIdS).map fig0s13Bytes
  | .none => Option.none

namespace EntryFig

def extension : EntryFig → Nat
  | fig0s1 => 1
  | fig0s2 => 2
  | fig0s3 => 3
  | fig0s5 => 5
  | fig0s8 => 8
  | fig0s13 => 13
  | fig0s14 => 14

def subprocess : EntryFig → FibProc
  | fig0s1 => subprocessFig0s1
  | fig0s2 => subprocessFig0s2
  | fig0s3 => subprocessFig0s3
  | fig0s5 => subprocessFig0s5
  | fig0s8 => subprocessFig0s8
  | fig0s13 => subprocessFig0s13
  | fig0s14 => subprocessFig0s14

variable (f : EntryFig) (d : Bits) (fh : FigHeader)

def ownBytes (used : Nat) : Nat :=
  match f with
  | fig0s1 => entryBytes (readFig0s1 d (used * 8))
  | fig0s2 => sIdWidth fh.pdFlag / 8 + 1 + 2 * getBits4 d (8 * used + sIdWidth fh.pdFlag + 4)
  | fig0s3 => fig0s3Bytes (readFig0s3 d (used * 8))
  | fig0s5 => fig0s5Bytes (readFig0s5 d (used * 8))
  | fig0s8 => fig0s8Bytes fh.pdFlag (readFig0s8 d fh.pdFlag (used * 8))
  | fig0s13 => fig0s13Bytes (readFig0s13 d fh.pdFlag (used * 8))
  | fig0s14 => 1

def key (used : Nat) : EntryKey :=
  match f with
  | fig0s1 => .subChannel (getBits6 d (used * 8))
  | fig0s3 => .component (getBits d (used * 8) 12)
  | fig0s13 => .userApps (getLBits d (used * 8) (sIdWidth fh.pdFlag)) (getBits4 d (used * 8 + sIdWidth fh.pdFlag))
  | _ => .none

def remembers : Bool :=
  match f with
  | fig0s1 | fig0s3 => true
  | fig0s13 => fh.cnFlag = 0
  | _ => false

end EntryFig

def figPositions (fn : FibProc) (d : Bits) (fh : FigHeader) : Nat → FibDecoder → Nat → List Nat
  | 0, _, used => [used]
  | fuel + 1, s, used => used :: if used ≤ fh.length then
      let next := fn s d used fh
      if next.1.restartFibDecoding then [] else figPositions fn d fh fuel next.1 next.2
    else []

def positions (f : EntryFig) (s : FibDecoder) (d : Bits) : List Nat := figPositions f.subprocess d (getFigHeader d) 32 s 2

def ownFigPositions (f : EntryFig) (d : Bits) : List Nat := ownPositions (f.ownBytes d (getFigHeader d)) (getFigHeader d).length 32 2

def entryStarts (f : EntryFig) (d : Bits) : List Nat := starts (f.ownBytes d (getFigHeader d)) (getFigHeader d).length 32 2

/- The stored entries, and those that the FIG itself stores, are as long as the own bits of
each entry of the same key say. -/
def FramedAsStored (f : EntryFig) (s : FibDecoder) (d : Bits) : Prop :=
  Consistent (f.key d (getFigHeader d)) (f.ownBytes d (getFigHeader d)) (f.remembers (getFigHeader d)) (s.storedBytes (getFigHeader d).cnFlag)
    (entryStarts f d)
  deriving Decidable

section Entries
variable {s t : FibDecoder} {d : Bits} {fh : FigHeader} {used : Nat}

structure FollowsStore (f : EntryFig) (s : FibDecoder) (d : Bits) (fh : FigHeader) (used : Nat) : Prop where
  behind : (f.subprocess s d used fh).2 = used + taken (f.key d fh) (f.ownBytes d fh) (s.storedBytes fh.cnFlag) used
  stored : (f.subprocess s d used fh).1.storedBytes fh.cnFlag =
    storedAfter (f.key d fh) (f.ownBytes d fh) (f.remembers fh) (s.storedBytes fh.cnFlag) used

theorem entryFollows {f : EntryFig} {σ : Type} {lookup : Option σ} {own : σ} {store : σ → FibDecoder} {bytes : σ → Nat} {refused : Prop}
    (found : s.storedBytes fh.cnFlag (f.key d fh used) = lookup.map bytes) (length : f.ownBytes d fh used = bytes own)
    (entry : Entry lookup own store bytes refused s used (f.subprocess s d used fh))
    (going : (f.subprocess s d used fh).1.restartFibDecoding = false)
    (stores : lookup = none → (store own).retriggerTimerDataLoaded.storedBytes fh.cnFlag = if f.remembers fh then
      Function.update (s.storedBytes fh.cnFlag) (f.key d fh used) (some (bytes own)) else s.storedBytes fh.cnFlag) :
    FollowsStore f s d fh used := by
  generalize outcome : f.subprocess s d used fh = next at entry going
  have takes : taken (f.key d fh) (f.ownBytes d fh) (s.storedBytes fh.cnFlag) used = (lookup.map bytes).getD (bytes own) := by
    unfold taken
    rw [found,length]
  cases entry with
  | @known e here =>
    rw [here] at found takes
    refine ⟨by rw [outcome,takes]; rfl,?_⟩
    rw [outcome]
    unfold storedAfter
    rw [takes]
    split
    · exact (Function.update_eq_self_iff.mpr found.symm).symm
    · rfl
  | stored unknown taken =>
    rw [unknown] at takes
    refine ⟨by rw [outcome,takes]; rfl,?_⟩
    rw [outcome]
    unfold storedAfter
    rw [takes]
    exact stores unknown
  | restarts => cases going

def bytesIn (channels : List Fig0s1) (components : List Fig0s3) (apps : List Fig0s13) : EntryKey → Option Nat
  | .subChannel subChId => (channels.find? fun e => e.subChId = (subChId : Int)).map entryBytes
  | .component scId => (components.find? fun e => e.scId = (scId : Int)).map fig0s3Bytes
  | .userApps sId scIdS => (apps.find? fun e => e.sId = sId ∧ e.scIdS = (scIdS : Int)).map fig0s13Bytes
  | .none => Option.none

theorem storedIn (s : FibDecoder) (cnFlag : Nat) :
    s.storedBytes cnFlag = bytesIn (s.getConfig cnFlag).fig0s1Vec (s.getConfig cnFlag).fig0s3Vec s.fig0Curr.fig0s13Vec := by
  funext key
  cases key <;> rfl

theorem storedCongr {cnFlag : Nat} (channels : (t.getConfig cnFlag).fig0s1Vec = (s.getConfig cnFlag).fig0s1Vec)
    (components : (t.getConfig cnFlag).fig0s3Vec = (s.getConfig cnFlag).fig0s3Vec) (apps : t.fig0Curr.fig0s13Vec = s.fig0Curr.fig0s13Vec) :
    t.storedBytes cnFlag = s.storedBytes cnFlag := by rw [storedIn,channels,components,apps,← storedIn]

theorem retriggerStored (s : FibDecoder) (cnFlag : Nat) : s.retriggerTimerDataLoaded.storedBytes cnFlag = s.storedBytes cnFlag := by
  obtain ⟨curr,-,-⟩ := retriggerStores s
  have same := retriggerConfig s cnFlag
  exact storedCongr (by rw [same]) (by rw [same]) (by rw [curr])

theorem storedNew {cnFlag value : Nat} {key : EntryKey} {channels : List Fig0s1} {components : List Fig0s3} {apps : List Fig0s13}
    (fig0s1 : (t.getConfig cnFlag).fig0s1Vec = (s.getConfig cnFlag).fig0s1Vec ++ channels)
    (fig0s3 : (t.getConfig cnFlag).fig0s3Vec = (s.getConfig cnFlag).fig0s3Vec ++ components)
    (fig0s13 : t.fig0Curr.fig0s13Vec = s.fig0Curr.fig0s13Vec ++ apps) (unknown : s.storedBytes cnFlag key = none)
    (new : bytesIn channels components apps = Function.update (fun _ => none) key (some value)) :
    t.storedBytes cnFlag = Function.update (s.storedBytes cnFlag) key (some value) := by
  have both : ∀ other, t.storedBytes cnFlag other = (s.storedBytes cnFlag other).or (bytesIn channels components apps other) := by
    intro other
    rw [storedIn,storedIn,fig0s1,fig0s3,fig0s13]
    cases other <;> simp [bytesIn,find?_append,Option.map_or]
  funext other
  rw [both,new]
  by_cases same : other = key
  · rw [same,unknown,Function.update_self,Function.update_self,Option.none_or]
  · rw [Function.update_of_ne same,Function.update_of_ne same,Option.or_none]

theorem setApps (s : FibDecoder) (cnFlag : Nat) {c : FibConfigFig0} (same : c.fig0s13Vec = (s.getConfig cnFlag).fig0s13Vec) :
    (s.setConfig cnFlag c).fig0Curr.fig0s13Vec = s.fig0Curr.fig0s13Vec := by
  unfold setConfig
  unfold getConfig at same
  split
  · rename_i current
    rwa [if_pos current] at same
  · rfl

theorem entryBehind {σ : Type} {lookup : Option σ} {own : σ} {store : σ → FibDecoder} {size : Nat} {refused : Prop} {next : FibDecoder × Nat}
    (entry : Entry lookup own store (fun _ => size) refused s used next) : next.2 = used + size := by
  cases entry <;> rfl

theorem fig0s1Follows (going : (subprocessFig0s1 s d used fh).1.restartFibDecoding = false) : FollowsStore .fig0s1 s d fh used := by
  refine entryFollows rfl rfl (fig0s1Entry s d used fh) going fun unknown => ?_
  have config := getSet s fh.cnFlag { s.getConfig fh.cnFlag with fig0s1Vec := (s.getConfig fh.cnFlag).fig0s1Vec ++ [readFig0s1 d (used * 8)] }
  rw [retriggerStored]
  refine storedNew (by rw [config]) (by rw [config,append_nil]) (by rw [append_nil]; exact setApps s fh.cnFlag rfl)
    (congrArg (Option.map entryBytes) unknown) ?_
  funext other
  cases other <;> simp [bytesIn,EntryFig.key,Function.update_apply,readSubChId,eq_comm]

theorem fig0s3Follows (going : (subprocessFig0s3 s d used fh).1.restartFibDecoding = false) : FollowsStore .fig0s3 s d fh used := by
  refine entryFollows rfl rfl (fig0s3Entry s d used fh) going fun unknown => ?_
  have config := getSet s fh.cnFlag { s.getConfig fh.cnFlag with fig0s3Vec := (s.getConfig fh.cnFlag).fig0s3Vec ++ [readFig0s3 d (used * 8)] }
  rw [retriggerStored]
  refine storedNew (by rw [config,append_nil]) (by rw [config]) (by rw [append_nil]; exact setApps s fh.cnFlag rfl)
    (congrArg (Option.map fig0s3Bytes) unknown) ?_
  funext other
  cases other <;> simp [bytesIn,EntryFig.key,readFig0s3,Function.update_apply,eq_comm]

theorem appsAlone {e : Fig0s13} {scIdS : Nat} (named : e.scIdS = scIdS) :
    bytesIn [] [] [e] = Function.update (fun _ => none) (.userApps e.sId scIdS) (some (fig0s13Bytes e)) := by
  funext other
  cases other with
  | userApps sId id => simp [bytesIn,named,Function.update_apply,@eq_comm _ e.sId sId,@eq_comm _ scIdS id]
  | _ => rfl

theorem fig0s13Follows (going : (subprocessFig0s13 s d used fh).1.restartFibDecoding = false) : FollowsStore .fig0s13 s d fh used := by
  refine entryFollows rfl rfl (fig0s13Entry s d used fh) going fun unknown => ?_
  have config := getSet s fh.cnFlag { s.getConfig fh.cnFlag with
    fig0s13Vec := (s.getConfig fh.cnFlag).fig0s13Vec ++ [readFig0s13 d fh.pdFlag (used * 8)] }
  rw [retriggerStored]
  by_cases current : fh.cnFlag = 0
  · rw [show EntryFig.fig0s13.remembers fh = true from decide_eq_true current,if_pos rfl]
    have apps : (s.setConfig fh.cnFlag { s.getConfig fh.cnFlag with
        fig0s13Vec := (s.getConfig fh.cnFlag).fig0s13Vec ++ [readFig0s13 d fh.pdFlag (used * 8)] }).fig0Curr.fig0s13Vec =
        s.fig0Curr.fig0s13Vec ++ [readFig0s13 d fh.pdFlag (used * 8)] := by
      unfold setConfig getConfig
      rw [if_pos current,if_pos current]
    exact storedNew (by rw [config,append_nil]) (by rw [config,append_nil]) apps
      (congrArg (Option.map fig0s13Bytes) unknown) (appsAlone rfl)
  · rw [show EntryFig.fig0s13.remembers fh = false from decide_eq_false current,if_neg Bool.false_ne_true]
    refine storedCongr (by rw [config]) (by rw [config]) ?_
    unfold setConfig
    rw [if_neg current]

theorem ownBehind {f : EntryFig} (keyless : f.key d fh used = .none) (s : FibDecoder) :
    (f.subprocess s d used fh).2 = used + f.ownBytes d fh used := by
  cases f with
  | fig0s1 | fig0s3 | fig0s13 => exact nomatch keyless
  | fig0s2 =>
    have bytes := sIdWidthBytes fh.pdFlag
    show (8 * used + sIdWidth fh.pdFlag + 8 + 16 * getBits4 d (8 * used + sIdWidth fh.pdFlag + 4)) / 8 =
      used + (sIdWidth fh.pdFlag / 8 + 1 + 2 * getBits4 d (8 * used + sIdWidth fh.pdFlag + 4))
    omega
  | fig0s5 => exact entryBehind (fig0s5Entry s d used fh)
  | fig0s8 => exact entryBehind (fig0s8Entry s d used fh)
  | fig0s14 => exact entryBehind (fig0s14Entry s d used fh)

end Entries

section Rounds
variable {d : Bits} {fh : FigHeader} {f : EntryFig}

theorem roundsFollow (step : ∀ s used, (f.subprocess s d used fh).1.restartFibDecoding = false → FollowsStore f s d fh used)
    (fuel : Nat) {s : FibDecoder} {used : Nat} (going : (fig0Rounds f.subprocess d fh fuel s used).restartFibDecoding = false) :
    figPositions f.subprocess d fh fuel s used =
      storedPositions (f.key d fh) (f.ownBytes d fh) fh.length (f.remembers fh) fuel (s.storedBytes fh.cnFlag) used := by
  induction fuel generalizing s used with
  | zero => rfl
  | succ fuel ih =>
    unfold figPositions storedPositions
    unfold fig0Rounds at going
    by_cases inside : used ≤ fh.length
    · rw [if_pos inside] at going
      rw [if_pos inside,if_pos inside]
      by_cases restarts : (f.subprocess s d used fh).1.restartFibDecoding = true
      · rw [if_pos restarts,restarts] at going
        cases going
      · rw [if_neg restarts] at going
        have follows := step s used (Bool.eq_false_of_not_eq_true restarts)
        rw [if_neg restarts,ih going,follows.behind,follows.stored]
    · rw [if_neg inside,if_neg inside]

theorem roundsOwn (keyless : ∀ used, f.key d fh used = .none) (fuel : Nat) {s : FibDecoder} {used : Nat}
    (going : (fig0Rounds f.subprocess d fh fuel s used).restartFibDecoding = false) :
    figPositions f.subprocess d fh fuel s used = ownPositions (f.ownBytes d fh) fh.length fuel used := by
  induction fuel generalizing s used with
  | zero => rfl
  | succ fuel ih =>
    unfold figPositions ownPositions
    unfold fig0Rounds at going
    by_cases inside : used ≤ fh.length
    · rw [if_pos inside] at going
      rw [if_pos inside,if_pos inside]
      by_cases restarts : (f.subprocess s d used fh).1.restartFibDecoding = true
      · rw [if_pos restarts,restarts] at going
        cases going
      · rw [if_neg restarts] at going
        rw [if_neg restarts,ih going,ownBehind (keyless used)]
    · rw [if_neg inside,if_neg inside]

end Rounds

theorem keylessFramed {f : EntryFig} {d : Bits} (keyless : ∀ used, f.key d (getFigHeader d) used = .none)
    (forgets : f.remembers (getFigHeader d) = false) (s : FibDecoder) : FramedAsStored f s d := by
  intro p _ q _ same
  rw [forgets] at same
  obtain rfl : q = p := same
  rw [keyless]
  rfl

theorem listProcessed {f : EntryFig} {d : Bits} (listed : getBits5 d 11 = f.extension) (s : FibDecoder) :
    processFig0Extension s d (getBits5 d 11) = processFig0Loop f.subprocess s d := by
  rw [listed]
  cases f <;> rfl

theorem ownNonempty (f : EntryFig) (d : Bits) (fh : FigHeader) (used : Nat) : 1 ≤ f.ownBytes d fh used := by
  cases f with
  | fig0s1 =>
    show 1 ≤ entryBytes _
    unfold entryBytes
    split <;> omega
  | fig0s2 =>
    show 1 ≤ sIdWidth fh.pdFlag / 8 + 1 + 2 * _
    omega
  | fig0s3 =>
    show 1 ≤ fig0s3Bytes _
    unfold fig0s3Bytes
    split <;> omega
  | fig0s5 =>
    show 1 ≤ fig0s5Bytes _
    unfold fig0s5Bytes
    split <;> omega
  | fig0s8 =>
    show 1 ≤ fig0s8Bytes _ _
    unfold fig0s8Bytes
    split <;> omega
  | fig0s13 =>
    have forward := userAppsForward d fh.pdFlag (List.range (min (getBits4 d (used * 8 + sIdWidth fh.pdFlag + 4)) 6))
      ([], used * 8 + sIdWidth fh.pdFlag + 8)
    show 1 ≤ (_ - used * 8) / 8
    dsimp only at forward
    omega
  | fig0s14 => exact le_refl 1

theorem framedExact {f : EntryFig} {d : Bits} {s : FibDecoder} (steady : (processFig0Loop f.subprocess s d).restartFibDecoding = false) :
    positions f s d = ownFigPositions f d ↔ FramedAsStored f s d := by
  have stored (step : ∀ s used, (f.subprocess s d used (getFigHeader d)).1.restartFibDecoding = false →
      FollowsStore f s d (getFigHeader d) used) : positions f s d = ownFigPositions f d ↔ FramedAsStored f s d := by
    unfold positions ownFigPositions
    rw [roundsFollow step 32 steady]
    exact storedExact 32 2
  have own (keyless : ∀ used, f.key d (getFigHeader d) used = .none) (forgets : f.remembers (getFigHeader d) = false) :
      positions f s d = ownFigPositions f d ↔ FramedAsStored f s d :=
    iff_of_true (roundsOwn keyless 32 steady) (keylessFramed keyless forgets s)
  cases f with
  | fig0s1 => exact stored fun _ _ going => fig0s1Follows going
  | fig0s3 => exact stored fun _ _ going => fig0s3Follows going
  | fig0s13 => exact stored fun _ _ going => fig0s13Follows going
  | fig0s2 | fig0s5 | fig0s8 | fig0s14 => exact own (fun _ => rfl) rfl

theorem framedByOwnBits (f : EntryFig) (d : Bits) (s t : FibDecoder)
    (steady : (processFig0Loop f.subprocess s d).restartFibDecoding = false)
    (steadyOther : (processFig0Loop f.subprocess t d).restartFibDecoding = false) :
    (∃ last ∈ ownFigPositions f d, (getFigHeader d).length < last) ∧ (positions f s d = ownFigPositions f d ↔ FramedAsStored f s d) ∧
    (FramedAsStored f s d → (positions f t d = positions f s d ↔ FramedAsStored f t d)) := by
  have short : (getFigHeader d).length < 2 ^ 5 := getBitsLt d 3 5
  refine ⟨ownEnds (ownNonempty f d (getFigHeader d)) (by omega),framedExact steady,fun framed => ?_⟩
  rw [(framedExact steady).mpr framed]
  exact framedExact steadyOther

def shortFormFig : Bits := Multiplex.fibOf [0x04,0x01,0x04,0x00,0x00,0xFF]
def longFormFig : Bits := Multiplex.fibOf [0x05,0x01,0x04,0x00,0x80,0x00,0xFF]

theorem repeatedChannelFramed : FramedAsStored .fig0s1 {} longFormFig ∧
    positions .fig0s1 (processFig0 {} longFormFig) longFormFig = positions .fig0s1 {} longFormFig :=
  ⟨by decide,((framedByOwnBits .fig0s1 longFormFig {} (processFig0 {} longFormFig) (by decide) (by decide)).2.2 (by decide)).mpr (by decide)⟩

theorem storedFormSplits : (processFig0Loop subprocessFig0s1 {} longFormFig).restartFibDecoding = false ∧
    (processFig0Loop subprocessFig0s1 (processFig0 {} shortFormFig) longFormFig).restartFibDecoding = false ∧
    positions .fig0s1 {} longFormFig = [2,6] ∧ positions .fig0s1 (processFig0 {} shortFormFig) longFormFig = [2,5,8] := by decide

end DabStar.Fib.FibDecoder
