import DabStar.FigWire

/-! A FIG that is a list of entries, read into an empty store: the store then holds one record
for every entry, in their order. Only the CAOrg field of FIG 0/3 is taken from five bytes too
far. -/
namespace DabStar.Fib.FibDecoder
open List Lib.BitFields Lib.KeyedStore

section Figs

def figBits (cnFlag oeFlag pdFlag : BitVec 1) (f : EntryFig) (body : List Bool) : List Bool :=
  field 0#3 ++ field (BitVec.ofNat 5 (1 + body.length / 8)) ++ field cnFlag ++ field oeFlag ++ field pdFlag ++
    field (BitVec.ofNat 5 f.extension) ++ body

variable {cnFlag oeFlag pdFlag : BitVec 1} {f : EntryFig} {body : List Bool} {d : Bits}

theorem readHeader (written : Written d 0 (figBits cnFlag oeFlag pdFlag f body)) (fits : body.length ≤ 240) :
    getFigHeader d = ⟨1 + body.length / 8,cnFlag.toNat,oeFlag.toNat,pdFlag.toNat⟩ ∧ getBits5 d 11 = f.extension ∧ Written d 16 body := by
  simp only [figBits,writtenAppend,fieldLength,length_append,Nat.reduceAdd,Nat.zero_add] at written
  obtain ⟨⟨⟨⟨⟨⟨_,length⟩,cn⟩,oe⟩,pd⟩,extension⟩,behind⟩ := written
  have length : getBits5 d 3 = _ := readField length
  have cn : getBits1 d 8 = _ := readField cn
  have oe : getBits1 d 9 = _ := readField oe
  have pd : getBits1 d 10 = _ := readField pd
  have extension : getBits5 d 11 = _ := readField extension
  have small : 1 + body.length / 8 < 2 ^ 5 := by omega
  refine ⟨?_,?_,behind⟩
  · simp only [getFigHeader,length,cn,oe,pd,BitVec.toNat_ofNat,Nat.mod_eq_of_lt small]
  · rw [extension]
    cases f <;> rfl

end Figs

section Filling

structure Filled (s₀ : FibDecoder) (cnFlag : Nat) (c : FibConfigFig0) (s : FibDecoder) : Prop where
  selected : s.getConfig cnFlag = c
  other : ∀ flag, ¬ (cnFlag = 0 ↔ flag = 0) → s.getConfig flag = s₀.getConfig flag
  calm : s.restartFibDecoding = false

structure Placed (s₀ : FibDecoder) (cnFlag : Nat) (c : FibConfigFig0) (size used : Nat) (next : FibDecoder × Nat) : Prop where
  filled : Filled s₀ cnFlag c next.1
  behind : next.2 * 8 = used * 8 + size

variable {s₀ s : FibDecoder} {cnFlag used : Nat} {c c' : FibConfigFig0}

theorem filledStored (filled : Filled s₀ cnFlag c s) (c' : FibConfigFig0) :
    Filled s₀ cnFlag c' (s.setConfig cnFlag c').retriggerTimerDataLoaded where
  selected := (retriggerConfig _ _).trans (getSet _ _ _)
  other flag apart := by rw [retriggerConfig,getSetOther _ _ apart,filled.other flag apart]
  calm := by rw [retriggerFlag,storesFlag,filled.calm]

theorem entryPlaced {σ : Type} {lookup : Option σ} {own : σ} {store : σ → FibDecoder} {bytes : σ → Nat} {refused : Prop} {size : Nat}
    {next : FibDecoder × Nat} (entry : Entry lookup own store bytes refused s used next) (filled : Filled s₀ cnFlag c s)
    (unknown : lookup = none) (taken : ¬ refused) (stores : store own = s.setConfig cnFlag c') (length : size = 8 * bytes own) :
    Placed s₀ cnFlag c' size used next := by
  cases entry with
  | known found => exact nomatch unknown.symm.trans found
  | restarts _ untrusted => exact absurd untrusted taken
  | stored =>
    constructor
    · rw [stores]
      exact filledStored filled c'
    · dsimp only
      omega

theorem roundsFilled {ω : Type} {bits : ω → List Bool} {config : List ω → FibConfigFig0} {fn : FibProc} {d : Bits} (fh : FigHeader)
    {entries : List ω} (long : ∀ e, 8 ≤ (bits e).length)
    (step : ∀ {before e rest s used}, before ++ e :: rest = entries → used * 8 = 16 + (before.flatMap bits).length →
      Written d (used * 8) (bits e) → Filled s₀ fh.cnFlag (config before) s →
      Placed s₀ fh.cnFlag (config (before ++ [e])) (bits e).length used (fn s d used fh))
    (rest : List ω) : ∀ {before : List ω} {s : FibDecoder} {used fuel : Nat}, before ++ rest = entries →
      used * 8 = 16 + (before.flatMap bits).length → Written d (used * 8) (rest.flatMap bits) → (rest.flatMap bits).length ≤ 8 * fuel →
      used * 8 + (rest.flatMap bits).length = (fh.length + 1) * 8 → Filled s₀ fh.cnFlag (config before) s →
      Filled s₀ fh.cnFlag (config entries) (fig0Rounds fn d fh fuel s used) ∧
        (figPositions fn d fh fuel s used).getLast? = some (fh.length + 1) := by
  induction rest with
  | nil =>
    intro before s used fuel split _ _ _ whole filled
    rw [append_nil] at split
    rw [flatMap_nil,length_nil] at whole
    have here : used = fh.length + 1 := by omega
    subst split here
    cases fuel with
    | zero => exact ⟨filled,rfl⟩
    | succ fuel => simp [fig0Rounds,figPositions,filled]
  | cons e rest ih =>
    intro before s used fuel split place written enough whole filled
    rw [flatMap_cons,writtenAppend] at written
    rw [flatMap_cons,length_append] at enough whole
    have entry := long e
    obtain ⟨next,behind⟩ := step split place written.1 filled
    cases fuel with
    | zero => omega
    | succ fuel =>
      have inside : used ≤ fh.length := by omega
      obtain ⟨stored,last⟩ : Filled s₀ fh.cnFlag (config entries) (fig0Rounds fn d fh fuel (fn s d used fh).1 (fn s d used fh).2) ∧
          (figPositions fn d fh fuel (fn s d used fh).1 (fn s d used fh).2).getLast? = some (fh.length + 1) :=
        ih (by rw [← split,append_assoc]; rfl)
          (by rw [flatMap_append,length_append,behind,place]; simp; omega) (by rw [behind]; exact written.2) (by omega)
          (by omega) next
      constructor
      · simp only [fig0Rounds,inside,next.calm]
        exact stored
      · simp only [figPositions,inside,next.calm,List.getLast?_cons]
        simp [last]

end Filling

section Figs
variable {cnFlag oeFlag pdFlag : BitVec 1} {f : EntryFig} {d : Bits} {s : FibDecoder}

structure StoredAs (f : EntryFig) (s : FibDecoder) (d : Bits) (cnFlag : BitVec 1) (c : FibConfigFig0) : Prop where
  selected : (processFig0 s d).getConfig cnFlag.toNat = c
  other : ∀ flag, flag ≠ cnFlag → (processFig0 s d).getConfig flag.toNat = s.getConfig flag.toNat
  ends : (positions f s d).getLast? = some ((getFigHeader d).length + 1)

theorem flagsApart {a b : BitVec 1} (differ : b ≠ a) : ¬ (a.toNat = 0 ↔ b.toNat = 0) := by
  have first := a.isLt
  have second := b.isLt
  have apart : b.toNat ≠ a.toNat := fun same => differ (BitVec.eq_of_toNat_eq same)
  omega

theorem flatMapBytes {ω : Type} {bits : ω → List Bool} (bytes : ∀ e, ∃ n, (bits e).length = 8 * (n + 1)) (entries : List ω) :
    8 ∣ (entries.flatMap bits).length := by
  induction entries with
  | nil => exact Nat.dvd_zero 8
  | cons e entries ih =>
    obtain ⟨n,length⟩ := bytes e
    rw [flatMap_cons,length_append,length]
    exact Nat.dvd_add (Nat.dvd_mul_right 8 (n + 1)) ih

theorem figStored {ω : Type} {bits : ω → List Bool} {entries : List ω} (config : List ω → FibConfigFig0)
    (written : Written d 0 (figBits cnFlag oeFlag pdFlag f (entries.flatMap bits))) (fits : (entries.flatMap bits).length ≤ 240)
    (bytes : ∀ e, ∃ n, (bits e).length = 8 * (n + 1)) (calm : s.restartFibDecoding = false) (empty : s.getConfig cnFlag.toNat = config [])
    (step : ∀ {length before e rest t used}, before ++ e :: rest = entries → used * 8 = 16 + (before.flatMap bits).length →
      Written d (used * 8) (bits e) → Filled s cnFlag.toNat (config before) t →
      Placed s cnFlag.toNat (config (before ++ [e])) (bits e).length used
        (f.subprocess t d used ⟨length,cnFlag.toNat,oeFlag.toNat,pdFlag.toNat⟩)) : StoredAs f s d cnFlag (config entries) := by
  obtain ⟨header,extension,behind⟩ := readHeader written fits
  have whole := flatMapBytes bytes entries
  have long : ∀ e, 8 ≤ (bits e).length := fun e => by
    obtain ⟨n,length⟩ := bytes e
    omega
  have first : Filled s cnFlag.toNat (config []) s := ⟨empty,fun _ _ => rfl,calm⟩
  have rounds : Filled s cnFlag.toNat (config entries) (processFig0Loop f.subprocess s d) ∧
      (positions f s d).getLast? = some ((getFigHeader d).length + 1) := by
    rw [processFig0Loop,positions,header]
    exact roundsFilled ⟨1 + (entries.flatMap bits).length / 8,cnFlag.toNat,oeFlag.toNat,pdFlag.toNat⟩ long step entries rfl rfl behind
      (by omega) (by dsimp only; omega) first
  obtain ⟨stores,-⟩ := fig0Selects (d := d) s
  rw [listProcessed extension s] at stores
  have configs : ∀ flag, (processFig0 s d).getConfig flag = (processFig0Loop f.subprocess s d).getConfig flag := by
    intro flag
    unfold getConfig
    rw [stores.curr,stores.next]
  constructor
  · rw [configs,rounds.1.selected]
  · intro flag differ
    rw [configs,rounds.1.other _ (flagsApart differ)]
  · exact rounds.2

end Figs

def channelSize (e : ChannelEntry) : Nat :=
  match e.form with
  | .short _ tableIndex => (cProtLevelTable.getD tableIndex.toNat ⟨0,0,0⟩).cuSize
  | .long _ _ subChannelSize => subChannelSize.toNat

def ChannelsApart (a b : ChannelEntry) : Prop :=
  a.subChId ≠ b.subChId ∧ (a.startAddr.toNat + channelSize a ≤ b.startAddr.toNat ∨ b.startAddr.toNat + channelSize b ≤ a.startAddr.toNat)
  deriving Decidable

inductive FigContent (pdFlag : Nat) where
  | channels (entries : List ChannelEntry)
  | services (entries : List (ServiceEntry (sIdWidth pdFlag)))
  | globals (entries : List (GlobalEntry (sIdWidth pdFlag)))
  | userApps (entries : List (UserAppsEntry (sIdWidth pdFlag)))
  | fecs (entries : List FecEntry)

namespace FigContent
variable {pdFlag : Nat}

def fig : FigContent pdFlag → EntryFig
  | channels _ => .fig0s1
  | services _ => .fig0s2
  | globals _ => .fig0s8
  | userApps _ => .fig0s13
  | fecs _ => .fig0s14

def bits : FigContent pdFlag → List Bool
  | channels entries => entries.flatMap ChannelEntry.bits
  | services entries => entries.flatMap ServiceEntry.bits
  | globals entries => entries.flatMap GlobalEntry.bits
  | userApps entries => entries.flatMap UserAppsEntry.bits
  | fecs entries => entries.flatMap FecEntry.bits

def Admissible : FigContent pdFlag → Prop
  | channels entries => entries.Pairwise ChannelsApart ∧
      ∀ e ∈ entries, 0 < channelSize e ∧ e.startAddr.toNat + channelSize e ≤ cNumCuPerCif.toNat
  | services entries => entries.Pairwise fun a b => a.sId ≠ b.sId
  | globals entries => entries.Pairwise fun a b => ¬ (a.sId = b.sId ∧ a.scIdS = b.scIdS)
  | userApps entries => entries.Pairwise fun a b => ¬ (a.sId = b.sId ∧ a.scIdS = b.scIdS)
  | fecs entries => entries.Pairwise fun a b => a.subChId ≠ b.subChId

def StoreEmpty (s : FibDecoder) : FigContent pdFlag → Prop
  | channels _ => ∀ flag, (s.getConfig flag).fig0s1Vec = []
  | services _ => ∀ flag, (s.getConfig flag).fig0s2Vec = []
  | globals _ => ∀ flag, (s.getConfig flag).fig0s8Vec = []
  | userApps _ => ∀ flag, (s.getConfig flag).fig0s13Vec = []
  | fecs _ => ∀ flag, (s.getConfig flag).fig0s14Vec = []

def stored (c : FibConfigFig0) : FigContent pdFlag → FibConfigFig0
  | channels entries => { c with fig0s1Vec := entries.map ChannelEntry.record }
  | services entries => { c with fig0s2Vec := entries.flatMap (ServiceEntry.records pdFlag) }
  | globals entries => { c with fig0s8Vec := entries.map (GlobalEntry.record pdFlag) }
  | userApps entries => { c with fig0s13Vec := entries.map (UserAppsEntry.record pdFlag) }
  | fecs entries => { c with fig0s14Vec := entries.map FecEntry.record }

end FigContent

section Entries
variable {s s₀ : FibDecoder} {d : Bits} {used : Nat} (fh : FigHeader) (c : FibConfigFig0)

theorem earlier {ω : Type} {R : ω → ω → Prop} {before rest entries : List ω} {e : ω} (apart : entries.Pairwise R)
    (split : before ++ e :: rest = entries) : ∀ a ∈ before, R a e := by
  intro a member
  rw [← split,pairwise_append] at apart
  exact apart.2.2 a member e mem_cons_self

section Channels
variable {e : ChannelEntry}

theorem recordChannel (e : ChannelEntry) : e.record.subChId = e.subChId.toNat ∧ e.record.startAddr = e.startAddr.toNat ∧
    e.record.subChannelSize = channelSize e := by
  obtain ⟨subChId,startAddr,form⟩ := e
  cases form <;> exact ⟨rfl,rfl,rfl⟩

theorem apartFree {a : ChannelEntry} (apart : ChannelsApart a e) : ¬ Collides a.record e.record := by
  obtain ⟨-,start,size⟩ := recordChannel a
  obtain ⟨-,startOwn,sizeOwn⟩ := recordChannel e
  obtain ⟨-,disjoint⟩ := apart
  unfold Collides
  rw [start,size,startOwn,sizeOwn]
  omega

theorem channelPlaced {before : List ChannelEntry} (apart : ∀ a ∈ before, ChannelsApart a e)
    (inside : e.startAddr.toNat + channelSize e ≤ cNumCuPerCif.toNat) (written : Written d (used * 8) e.bits)
    (filled : Filled s₀ fh.cnFlag { c with fig0s1Vec := before.map ChannelEntry.record } s) :
    Placed s₀ fh.cnFlag { c with fig0s1Vec := (before ++ [e]).map ChannelEntry.record } e.bits.length used (subprocessFig0s1 s d used fh) := by
  have read := readChannel written
  obtain ⟨id,start,size⟩ := recordChannel e
  have entry := fig0s1Entry s d used fh
  rw [filled.selected,← readSubChId,read,id] at entry
  refine entryPlaced entry filled ?_ ?_ ?_ (channelBytes e)
  · refine unknownMapped fun a member => decide_eq_false fun same => (apart a member).1 (BitVec.eq_of_toNat_eq ?_)
    rw [(recordChannel a).1] at same
    exact Int.ofNat_inj.mp same
  · rintro (outside | collides)
    · rw [start,size] at outside
      unfold cNumCuPerCif at *
      omega
    · obtain ⟨other,found⟩ := Option.isSome_iff_exists.mp collides
      have member := mem_of_find?_eq_some found
      obtain ⟨a,known,rfl⟩ := mem_map.mp member
      have hit := List.find?_some found
      exact apartFree (apart a known) (of_decide_eq_true hit)
  · simp

end Channels

section Services
variable {vec : List Fig0s2} {bitOffset : Nat}

theorem componentLength (e : ComponentEntry) : e.bits.length = 16 := by
  obtain ⟨mode,psFlag,caFlag⟩ := e
  cases mode <;> simp [ComponentEntry.bits,TransportMode.bits]

theorem componentsFilled (service : Fig0s2) (components : List ComponentEntry) {first : Nat} (record : Fig0s2) (pd : record.pdFlag = service.pdFlag)
    (id : record.sId = service.sId) (number : record.numServiceComp = service.numServiceComp)
    (fresh : ∀ e ∈ vec, ¬ (e.sId = service.sId ∧ (first : Int) ≤ e.serviceCompCIndex))
    (written : Written d (bitOffset + 16 * first) (components.flatMap ComponentEntry.bits))
    (filled : Filled s₀ fh.cnFlag { c with fig0s2Vec := vec } s) :
    Filled s₀ fh.cnFlag { c with fig0s2Vec := vec ++ components.mapIdx fun i component =>
        ⟨service.pdFlag,service.sId,service.numServiceComp,(first + i : Nat),component.record⟩ }
      ((List.range' first components.length).foldl (fig0s2Component d fh.cnFlag bitOffset) (s, record)).1 := by
  induction components generalizing first record vec s with
  | nil => simpa using filled
  | cons e components ih =>
    rw [flatMap_cons,writtenAppend,componentLength] at written
    have unknown : (s.getConfig fh.cnFlag).getFig0s2OfSIdScIdx record.sId first = none := by
      rw [filled.selected,FibConfigFig0.getFig0s2OfSIdScIdx,List.find?_eq_none]
      intro e member same
      obtain ⟨service,index⟩ := of_decide_eq_true same
      exact fresh e member ⟨service.trans id,index.ge⟩
    rw [id] at unknown
    have taken : fig0s2Component d fh.cnFlag bitOffset (s, record) first =
        ((s.setConfig fh.cnFlag { c with fig0s2Vec := vec ++ [{ service with serviceCompCIndex := first, serviceCompC := e.record }] }).retriggerTimerDataLoaded,
          { service with serviceCompCIndex := first, serviceCompC := e.record }) := by
      rw [filled.selected] at unknown
      simp only [fig0s2Component,unknown,readComponent written.1,filled.selected,pd,id,number]
    have later : ∀ other ∈ vec ++ [{ service with serviceCompCIndex := (first : Int), serviceCompC := e.record }],
        ¬ (other.sId = service.sId ∧ ((first + 1 : Nat) : Int) ≤ other.serviceCompCIndex) := by
      intro other member same
      rcases mem_append.mp member with known | last
      · exact fresh other known ⟨same.1,by omega⟩
      · rw [mem_singleton.mp last] at same
        dsimp only at same
        omega
    have onwards := ih { service with serviceCompCIndex := first, serviceCompC := e.record } rfl rfl rfl later written.2 (filledStored filled _)
    rw [length_cons,List.range'_succ,foldl_cons,taken]
    simpa [mapIdx_cons,Nat.add_assoc,Nat.add_comm 1] using onwards

theorem serviceBytes {pdFlag : Nat} (e : ServiceEntry (sIdWidth pdFlag)) :
    e.bits.length = 8 * (sIdWidth pdFlag / 8 + 1 + 2 * e.components.length) := by
  have service := sIdWidthBytes pdFlag
  simp only [ServiceEntry.bits,length_append,fieldLength,flatMapLength componentLength]
  omega

theorem servicePlaced {e : ServiceEntry (sIdWidth fh.pdFlag)} {before : List (ServiceEntry (sIdWidth fh.pdFlag))}
    (apart : ∀ a ∈ before, a.sId ≠ e.sId) (written : Written d (used * 8) e.bits)
    (filled : Filled s₀ fh.cnFlag { c with fig0s2Vec := before.flatMap (ServiceEntry.records fh.pdFlag) } s) :
    Placed s₀ fh.cnFlag { c with fig0s2Vec := (before ++ [e]).flatMap (ServiceEntry.records fh.pdFlag) } e.bits.length used
      (subprocessFig0s2 s d used fh) := by
  have bytes := serviceBytes e
  have number : (BitVec.ofNat 4 e.components.length).toNat = e.components.length := (BitVec.toNat_ofNat _ _).trans (Nat.mod_eq_of_lt e.few)
  simp only [ServiceEntry.bits,writtenAppend,fieldLength,length_append,Nat.add_assoc,Nat.reduceAdd] at written
  obtain ⟨⟨⟨id,_⟩,count⟩,components⟩ := written
  have id : getLBits d (used * 8) (sIdWidth fh.pdFlag) = _ := readField id
  have count : getBits4 d (used * 8 + (sIdWidth fh.pdFlag + 4)) = _ := readField count
  rw [number] at count
  have fresh : ∀ record ∈ before.flatMap (ServiceEntry.records fh.pdFlag), ¬ (record.sId = e.sId.toNat ∧ ((0 : Nat) : Int) ≤ record.serviceCompCIndex) := by
    intro record member same
    obtain ⟨a,known,own⟩ := mem_flatMap.mp member
    obtain ⟨i,_,rfl⟩ := mem_mapIdx.mp own
    exact apart a known (BitVec.eq_of_toNat_eq same.1)
  have width : (if fh.pdFlag = 1 then 32 else 16) = sIdWidth fh.pdFlag := rfl
  simp only [subprocessFig0s2,width,Nat.mul_comm 8 used,Nat.add_assoc,id,count]
  constructor
  · have all := componentsFilled fh c ⟨fh.pdFlag,e.sId.toNat,e.components.length,-1,{}⟩ e.components _ rfl rfl rfl fresh components filled
    simpa [ServiceEntry.records,range_eq_range',Nat.add_assoc] using all
  · dsimp only
    omega

end Services

theorem recordGlobal (pdFlag : Nat) {width : Nat} (e : GlobalEntry width) :
    (e.record pdFlag).sId = e.sId.toNat ∧ (e.record pdFlag).scIdS = e.scIdS.toNat := by
  obtain ⟨sId,rfa,scIdS,form,extension⟩ := e
  cases form <;> exact ⟨rfl,rfl⟩

theorem globalPlaced {e : GlobalEntry (sIdWidth fh.pdFlag)} {before : List (GlobalEntry (sIdWidth fh.pdFlag))}
    (apart : ∀ a ∈ before, ¬ (a.sId = e.sId ∧ a.scIdS = e.scIdS)) (written : Written d (used * 8) e.bits)
    (filled : Filled s₀ fh.cnFlag { c with fig0s8Vec := before.map (GlobalEntry.record fh.pdFlag) } s) :
    Placed s₀ fh.cnFlag { c with fig0s8Vec := (before ++ [e]).map (GlobalEntry.record fh.pdFlag) } e.bits.length used
      (subprocessFig0s8 s d used fh) := by
  have read := readGlobal written
  obtain ⟨id,component⟩ := recordGlobal fh.pdFlag e
  have readId : getLBits d (used * 8) (sIdWidth fh.pdFlag) = e.sId.toNat := (congrArg Fig0s8.sId read).trans id
  have readComponent : (getBits4 d (used * 8 + sIdWidth fh.pdFlag + 4) : Int) = e.scIdS.toNat :=
    (congrArg Fig0s8.scIdS read).trans component
  have entry := fig0s8Entry s d used fh
  rw [filled.selected,read,readId,readComponent] at entry
  refine entryPlaced entry filled ?_ not_false ?_ (globalBytes e)
  · refine unknownMapped fun a member => decide_eq_false fun same => apart a member ?_
    rw [(recordGlobal fh.pdFlag a).1,(recordGlobal fh.pdFlag a).2] at same
    exact ⟨BitVec.eq_of_toNat_eq same.1,BitVec.eq_of_toNat_eq (Int.ofNat_inj.mp same.2)⟩
  · simp

theorem userAppsBytes {pdFlag : Nat} (e : UserAppsEntry (sIdWidth pdFlag)) : ∃ n, e.bits.length = 8 * (n + 1) := by
  have service := sIdWidthBytes pdFlag
  have each : ∀ app : AppEntry, ∃ n, app.bits.length = 8 * (n + 1) := fun app => ⟨1 + app.data.length,by rw [appLength]; omega⟩
  obtain ⟨n,apps⟩ := flatMapBytes each e.apps
  refine ⟨sIdWidth pdFlag / 8 + n,?_⟩
  simp only [UserAppsEntry.bits,length_append,fieldLength,apps]
  omega

theorem userAppsPlaced {e : UserAppsEntry (sIdWidth fh.pdFlag)} {before : List (UserAppsEntry (sIdWidth fh.pdFlag))}
    (none : ∀ flag, (s₀.getConfig flag).fig0s13Vec = []) (apart : ∀ a ∈ before, ¬ (a.sId = e.sId ∧ a.scIdS = e.scIdS))
    (written : Written d (used * 8) e.bits)
    (filled : Filled s₀ fh.cnFlag { c with fig0s13Vec := before.map (UserAppsEntry.record fh.pdFlag) } s) :
    Placed s₀ fh.cnFlag { c with fig0s13Vec := (before ++ [e]).map (UserAppsEntry.record fh.pdFlag) } e.bits.length used
      (subprocessFig0s13 s d used fh) := by
  have read := readUserApps written
  have readId : getLBits d (used * 8) (sIdWidth fh.pdFlag) = e.sId.toNat := congrArg Fig0s13.sId read
  have readComponent : (getBits4 d (used * 8 + sIdWidth fh.pdFlag) : Int) = e.scIdS.toNat := congrArg Fig0s13.scIdS read
  have unknown : s.fig0Curr.getFig0s13OfSIdSCIdS e.sId.toNat e.scIdS.toNat = Option.none := by
    unfold FibConfigFig0.getFig0s13OfSIdSCIdS
    by_cases current : fh.cnFlag = 0
    · have here : s.fig0Curr = _ := (congrArg s.getConfig current).symm.trans filled.selected
      rw [here]
      refine unknownMapped fun a member => decide_eq_false fun same => apart a member ?_
      exact ⟨BitVec.eq_of_toNat_eq same.1,BitVec.eq_of_toNat_eq (Int.ofNat_inj.mp same.2)⟩
    · have here : s.fig0Curr = s₀.fig0Curr := filled.other 0 (by omega)
      have empty : s₀.fig0Curr.fig0s13Vec = [] := none 0
      rw [here,empty]
      rfl
  have entry := fig0s13Entry s d used fh
  rw [filled.selected,read,readId,readComponent] at entry
  obtain ⟨n,length⟩ := userAppsBytes e
  have size : (e.record fh.pdFlag).sizeBits = e.bits.length := rfl
  refine entryPlaced entry filled unknown not_false (by simp) ?_
  rw [fig0s13Bytes,size,length,Nat.mul_div_cancel_left _ (by decide)]

theorem fecPlaced {e : FecEntry} {before : List FecEntry} (apart : ∀ a ∈ before, a.subChId ≠ e.subChId)
    (written : Written d (used * 8) e.bits) (filled : Filled s₀ fh.cnFlag { c with fig0s14Vec := before.map FecEntry.record } s) :
    Placed s₀ fh.cnFlag { c with fig0s14Vec := (before ++ [e]).map FecEntry.record } e.bits.length used (subprocessFig0s14 s d used fh) := by
  have read := readFec written
  have id : (getBits6 d (used * 8) : Int) = e.subChId.toNat := congrArg Fig0s14.subChId read
  have entry := fig0s14Entry s d used fh
  rw [filled.selected,read,id] at entry
  refine entryPlaced entry filled ?_ not_false ?_ (by simp [FecEntry.bits])
  · refine unknownMapped fun a member => decide_eq_false fun same => apart a member (BitVec.eq_of_toNat_eq ?_)
    exact Int.ofNat_inj.mp same
  · simp

end Entries

theorem entriesStored {cnFlag oeFlag pdFlag : BitVec 1} {content : FigContent pdFlag.toNat} {d : Bits} {s : FibDecoder}
    (admissible : content.Admissible) (fits : content.bits.length ≤ 240)
    (written : Written d 0 (figBits cnFlag oeFlag pdFlag content.fig content.bits)) (empty : content.StoreEmpty s)
    (calm : s.restartFibDecoding = false) : StoredAs content.fig s d cnFlag (content.stored (s.getConfig cnFlag.toNat)) := by
  generalize before : s.getConfig cnFlag.toNat = c
  cases content with
  | channels entries =>
    refine figStored (fun l => { c with fig0s1Vec := l.map ChannelEntry.record }) written fits ?_ calm ?_ ?_
    · intro e
      have length := channelBytes e
      unfold entryBytes at length
      split at length
      · exact ⟨2,length⟩
      · exact ⟨3,length⟩
    · have none := empty cnFlag.toNat
      rw [before] at none ⊢
      rw [map_nil,← none]
    · intro length before e rest t used split _ written filled
      have member : e ∈ entries := split ▸ mem_append_right before mem_cons_self
      exact channelPlaced ⟨length,cnFlag.toNat,oeFlag.toNat,pdFlag.toNat⟩ c (earlier admissible.1 split) (admissible.2 e member).2 written filled
  | services entries =>
    refine figStored (fun l => { c with fig0s2Vec := l.flatMap (ServiceEntry.records pdFlag.toNat) }) written fits ?_ calm ?_ ?_
    · intro e
      exact ⟨sIdWidth pdFlag.toNat / 8 + 2 * e.components.length,by rw [serviceBytes]; omega⟩
    · have none := empty cnFlag.toNat
      rw [before] at none ⊢
      rw [flatMap_nil,← none]
    · intro length before e rest t used split _ written filled
      exact servicePlaced ⟨length,cnFlag.toNat,oeFlag.toNat,pdFlag.toNat⟩ c (earlier admissible split) written filled
  | globals entries =>
    refine figStored (fun l => { c with fig0s8Vec := l.map (GlobalEntry.record pdFlag.toNat) }) written fits ?_ calm ?_ ?_
    · intro e
      exact ⟨fig0s8Bytes pdFlag.toNat (e.record pdFlag.toNat) - 1,by rw [globalBytes]; unfold fig0s8Bytes; split <;> omega⟩
    · have none := empty cnFlag.toNat
      rw [before] at none ⊢
      rw [map_nil,← none]
    · intro length before e rest t used split _ written filled
      exact globalPlaced ⟨length,cnFlag.toNat,oeFlag.toNat,pdFlag.toNat⟩ c (earlier admissible split) written filled
  | userApps entries =>
    refine figStored (fun l => { c with fig0s13Vec := l.map (UserAppsEntry.record pdFlag.toNat) }) written fits userAppsBytes calm ?_ ?_
    · have none := empty cnFlag.toNat
      rw [before] at none ⊢
      rw [map_nil,← none]
    · intro length before e rest t used split _ written filled
      exact userAppsPlaced ⟨length,cnFlag.toNat,oeFlag.toNat,pdFlag.toNat⟩ c empty (earlier admissible split) written filled
  | fecs entries =>
    refine figStored (fun l => { c with fig0s14Vec := l.map FecEntry.record }) written fits ?_ calm ?_ ?_
    · intro e
      exact ⟨0,by simp [FecEntry.bits]⟩
    · have none := empty cnFlag.toNat
      rw [before] at none ⊢
      rw [map_nil,← none]
    · intro length before e rest t used split _ written filled
      exact fecPlaced ⟨length,cnFlag.toNat,oeFlag.toNat,pdFlag.toNat⟩ c (earlier admissible split) written filled

def twoChannels : List ChannelEntry := [⟨1#6,0#10,.short 0#1 0#6⟩,⟨2#6,16#10,.long 1#3 2#2 12#10⟩]

theorem entriesStoredChannels : StoredAs .fig0s1 {} (alone (figBits 1#1 0#1 0#1 .fig0s1 (twoChannels.flatMap ChannelEntry.bits))) 1#1
    { fig0s1Vec := twoChannels.map ChannelEntry.record } := by
  have admissible : (.channels twoChannels : FigContent (0#1).toNat).Admissible := by
    unfold FigContent.Admissible
    decide
  refine entriesStored admissible (by decide) (writtenAlone _) (fun flag => ?_) rfl
  unfold getConfig
  split <;> rfl

section Packets
variable {s s₀ : FibDecoder} {d : Bits}

def packetsRead (d : Bits) : Nat → List PacketEntry → List Fig0s3
  | _, [] => []
  | offset, e :: rest => { e.record with caOrg := if e.caOrg.isSome then getBits d (offset + 80) 16 else 65535 } ::
      packetsRead d (offset + e.bits.length) rest

/- Ten bytes behind the begin of every entry that has a CAOrg field its value stands once more. -/
def CaOrgRepeated (d : Bits) : Nat → List PacketEntry → Prop
  | _, [] => True
  | offset, e :: rest => (∀ value, e.caOrg = some value → getBits d (offset + 80) 16 = value.toNat) ∧
      CaOrgRepeated d (offset + e.bits.length) rest

theorem packetsReadAppend (d : Bits) (before : List PacketEntry) (e : PacketEntry) (offset : Nat) :
    packetsRead d offset (before ++ [e]) = packetsRead d offset before ++
      [{ e.record with caOrg := if e.caOrg.isSome then getBits d (offset + (before.flatMap PacketEntry.bits).length + 80) 16 else 65535 }] := by
  induction before generalizing offset with
  | nil => rfl
  | cons a before ih => simp [packetsRead,ih,Nat.add_assoc]

theorem packetsKeys (d : Bits) (offset : Nat) (entries : List PacketEntry) {record : Fig0s3} (member : record ∈ packetsRead d offset entries) :
    ∃ e ∈ entries, record.scId = e.scId.toNat := by
  induction entries generalizing offset with
  | nil => cases member
  | cons e entries ih =>
    rcases mem_cons.mp member with rfl | later
    · exact ⟨e,mem_cons_self,rfl⟩
    · obtain ⟨other,known,same⟩ := ih _ later
      exact ⟨other,mem_cons_of_mem e known,same⟩

theorem packetsReadExact (d : Bits) (offset : Nat) (entries : List PacketEntry) :
    packetsRead d offset entries = entries.map PacketEntry.record ↔ CaOrgRepeated d offset entries := by
  induction entries generalizing offset with
  | nil => exact iff_of_true rfl trivial
  | cons e entries ih =>
    rw [packetsRead,map_cons,List.cons.injEq,CaOrgRepeated,ih]
    refine and_congr_left fun _ => ?_
    obtain ⟨scId,rfa,dgFlag,rfu,dscTy,subChId,packetAddress,caOrg⟩ := e
    cases caOrg <;> simp [PacketEntry.record]

theorem packetPlaced {e : PacketEntry} {before : List PacketEntry} {used : Nat} (fh : FigHeader) (c : FibConfigFig0)
    (apart : ∀ a ∈ before, a.scId ≠ e.scId) (place : used * 8 = 16 + (before.flatMap PacketEntry.bits).length)
    (written : Written d (used * 8) e.bits) (filled : Filled s₀ fh.cnFlag { c with fig0s3Vec := packetsRead d 16 before } s) :
    Placed s₀ fh.cnFlag { c with fig0s3Vec := packetsRead d 16 (before ++ [e]) } e.bits.length used (subprocessFig0s3 s d used fh) := by
  have read := readPacket written
  have id : (getBits d (used * 8) 12 : Int) = e.scId.toNat := congrArg Fig0s3.scId read
  have entry := fig0s3Entry s d used fh
  rw [filled.selected,read,id] at entry
  refine entryPlaced entry filled ?_ not_false ?_ ?_
  · rw [FibConfigFig0.getFig0s3OfSCId,List.find?_eq_none]
    intro record member same
    obtain ⟨a,known,named⟩ := packetsKeys d 16 before member
    exact apart a known (BitVec.eq_of_toNat_eq (Int.ofNat_inj.mp (named.symm.trans (of_decide_eq_true same))))
  · rw [packetsReadAppend,place]
  · rw [packetBytes]
    unfold fig0s3Bytes PacketEntry.record
    cases e.caOrg <;> rfl

theorem packetsStored {cnFlag oeFlag pdFlag : BitVec 1} {entries : List PacketEntry} (apart : entries.Pairwise fun a b => a.scId ≠ b.scId)
    (fits : (entries.flatMap PacketEntry.bits).length ≤ 240)
    (written : Written d 0 (figBits cnFlag oeFlag pdFlag .fig0s3 (entries.flatMap PacketEntry.bits)))
    (empty : (s.getConfig cnFlag.toNat).fig0s3Vec = []) (calm : s.restartFibDecoding = false) :
    ((processFig0 s d).getConfig cnFlag.toNat).fig0s3Vec = entries.map PacketEntry.record ↔ CaOrgRepeated d 16 entries := by
  rw [← packetsReadExact]
  generalize config : s.getConfig cnFlag.toNat = c at empty
  have stored : StoredAs .fig0s3 s d cnFlag { c with fig0s3Vec := packetsRead d 16 entries } := by
    refine figStored (fun l => { c with fig0s3Vec := packetsRead d 16 l }) written fits ?_ calm ?_ ?_
    · intro e
      rw [packetBytes]
      split
      · exact ⟨6,rfl⟩
      · exact ⟨4,rfl⟩
    · rw [config,packetsRead,← empty]
    · intro length before e rest t used split place written filled
      exact packetPlaced ⟨length,cnFlag.toNat,oeFlag.toNat,pdFlag.toNat⟩ c (earlier apart split) place written filled
  rw [stored.selected]

def caOrgEntry : PacketEntry := ⟨1#12,0#3,0#1,0#1,5#6,3#6,7#10,some 0x0102#16⟩
def sameNumberEntry : PacketEntry := ⟨2#12,0#3,0#1,0#1,5#6,0#6,0x102#10,none⟩

theorem packetsStoredRepeated :
    ((processFig0 {} (alone (figBits 0#1 0#1 0#1 .fig0s3 ([caOrgEntry,sameNumberEntry].flatMap PacketEntry.bits)))).getConfig 0).fig0s3Vec =
      [caOrgEntry,sameNumberEntry].map PacketEntry.record := by
  have written := writtenAlone (figBits 0#1 0#1 0#1 .fig0s3 ([caOrgEntry,sameNumberEntry].flatMap PacketEntry.bits))
  have exactly := packetsStored (s := {}) (by decide) (by decide) written rfl rfl
  refine exactly.mpr ⟨?_,?_,trivial⟩
  · intro value here
    cases here
    decide
  · intro value here
    cases here

theorem caOrgLost : Written (alone (figBits 0#1 0#1 0#1 .fig0s3 caOrgEntry.bits)) 0 (figBits 0#1 0#1 0#1 .fig0s3 caOrgEntry.bits) ∧
    (processFig0 {} (alone (figBits 0#1 0#1 0#1 .fig0s3 caOrgEntry.bits))).fig0Curr.fig0s3Vec = [{ caOrgEntry.record with caOrg := 0 }] :=
  ⟨writtenAlone _,by decide⟩

end Packets

end DabStar.Fib.FibDecoder
