import DabStar.StoreKeys
import DabStar.Multiplex

/-! FIBs that are received again. Without a restart or a change of the configuration what a FIB
has stored is still found when it comes again. -/
namespace DabStar.Fib.FibDecoder
open List Lib.KeyedStore
variable {s t : FibDecoder} {a b c : FibDecoder} {cnFlag : Nat}

def changes (s : FibDecoder) : Nat := s.signals.count .changeInConfiguration

structure ConfigExt (c later : FibConfigFig0) : Prop where
  fig0s1 : c.fig0s1Vec <+: later.fig0s1Vec
  fig0s2 : c.fig0s2Vec <+: later.fig0s2Vec
  fig0s3 : c.fig0s3Vec <+: later.fig0s3Vec
  fig0s5 : c.fig0s5Vec <+: later.fig0s5Vec
  fig0s7 : c.fig0s7Vec <+: later.fig0s7Vec
  fig0s8 : c.fig0s8Vec <+: later.fig0s8Vec
  fig0s9 : c.fig0s9Vec <+: later.fig0s9Vec
  fig0s13 : c.fig0s13Vec <+: later.fig0s13Vec
  fig0s14 : c.fig0s14Vec <+: later.fig0s14Vec
  fig0s17 : c.fig0s17Vec <+: later.fig0s17Vec

structure Ext (s later : FibDecoder) : Prop where
  curr : ConfigExt s.fig0Curr later.fig0Curr
  next : ConfigExt s.fig0Next later.fig0Next
  fig1s0 : s.fig1.fig1s0Vec <+: later.fig1.fig1s0Vec
  fig1s1 : s.fig1.fig1s1Vec <+: later.fig1.fig1s1Vec
  fig1s4 : s.fig1.fig1s4Vec <+: later.fig1.fig1s4Vec
  fig1s5 : s.fig1.fig1s5Vec <+: later.fig1.fig1s5Vec

theorem configExtRefl (c : FibConfigFig0) : ConfigExt c c := by constructor <;> exact prefix_refl _

theorem ConfigExt.trans {a b c : FibConfigFig0} (first : ConfigExt a b) (second : ConfigExt b c) : ConfigExt a c where
  fig0s1 := first.fig0s1.trans second.fig0s1
  fig0s2 := first.fig0s2.trans second.fig0s2
  fig0s3 := first.fig0s3.trans second.fig0s3
  fig0s5 := first.fig0s5.trans second.fig0s5
  fig0s7 := first.fig0s7.trans second.fig0s7
  fig0s8 := first.fig0s8.trans second.fig0s8
  fig0s9 := first.fig0s9.trans second.fig0s9
  fig0s13 := first.fig0s13.trans second.fig0s13
  fig0s14 := first.fig0s14.trans second.fig0s14
  fig0s17 := first.fig0s17.trans second.fig0s17

theorem Ext.trans (first : Ext a b) (second : Ext b c) : Ext a c where
  curr := first.curr.trans second.curr
  next := first.next.trans second.next
  fig1s0 := first.fig1s0.trans second.fig1s0
  fig1s1 := first.fig1s1.trans second.fig1s1
  fig1s4 := first.fig1s4.trans second.fig1s4
  fig1s5 := first.fig1s5.trans second.fig1s5

theorem SameStores.ext (same : SameStores s t) : Ext s t := by
  refine ⟨?_,?_,?_,?_,?_,?_⟩
  · rw [same.curr]; exact configExtRefl _
  · rw [same.next]; exact configExtRefl _
  all_goals rw [same.fig1]

theorem extRefl (s : FibDecoder) : Ext s s := SameStores.ext ⟨rfl,rfl,rfl⟩

theorem Ext.get (ext : Ext s t) (cnFlag : Nat) : ConfigExt (s.getConfig cnFlag) (t.getConfig cnFlag) := by
  unfold getConfig
  split
  · exact ext.curr
  · exact ext.next

theorem extSet {s : FibDecoder} {c : FibConfigFig0} (grown : ConfigExt (s.getConfig cnFlag) c) : Ext s (s.setConfig cnFlag c) := by
  unfold getConfig at grown
  unfold setConfig
  split at grown
  · rename_i current
    rw [if_pos current]
    exact { extRefl s with curr := grown }
  · rename_i other
    rw [if_neg other]
    exact { extRefl s with next := grown }

theorem storesExt {d : Bits} {s : FibDecoder} {c : FibConfigFig0} (stored : Stores d s cnFlag c) : ConfigExt (s.getConfig cnFlag) c := by
  have same := configExtRefl (s.getConfig cnFlag)
  cases stored with
  | fig0s1 => exact { same with fig0s1 := prefix_append _ _ }
  | fig0s2 => exact { same with fig0s2 := prefix_append _ _ }
  | fig0s3 => exact { same with fig0s3 := prefix_append _ _ }
  | fig0s5Short | fig0s5Long => exact { same with fig0s5 := prefix_append _ _ }
  | fig0s7 e unknown => exact { same with fig0s7 := unknown ▸ nil_prefix }
  | fig0s8 => exact { same with fig0s8 := prefix_append _ _ }
  | fig0s9 e curr unknown => exact { same with fig0s9 := unknown ▸ nil_prefix }
  | fig0s13 => exact { same with fig0s13 := prefix_append _ _ }
  | fig0s14 => exact { same with fig0s14 := prefix_append _ _ }
  | fig0s17 => exact { same with fig0s17 := prefix_append _ _ }

theorem emplaceExt {s : FibDecoder} {c : FibConfigFig1} (grown : Ext s { s with fig1 := c }) (name : List Nat) (sId : Nat)
    (scIdS : Int) : Ext s { s with fig1 := c.tryEmplace name sId scIdS } := by
  unfold FibConfigFig1.tryEmplace
  split
  · exact grown
  · exact { grown with }

theorem labelsExt {s : FibDecoder} {c : FibConfigFig1} (stored : Labels s.fig1 c) : Ext s { s with fig1 := c } := by
  cases stored with
  | fig1s1 =>
    refine emplaceExt ?_ _ _ _
    exact { extRefl s with fig1s1 := prefix_append _ _ }
  | fig1s4 =>
    refine emplaceExt ?_ _ _ _
    exact { extRefl s with fig1s4 := prefix_append _ _ }
  | fig1s5 =>
    refine emplaceExt ?_ _ _ _
    exact { extRefl s with fig1s5 := prefix_append _ _ }

structure Grows (s t : FibDecoder) : Prop where
  changes : changes s ≤ changes t
  ext : FibDecoder.changes t = FibDecoder.changes s → Ext s t

theorem growsRefl (s : FibDecoder) : Grows s s := ⟨le_refl _,fun _ => extRefl s⟩

theorem Grows.trans (first : Grows a b) (second : Grows b c) : Grows a c := by
  refine ⟨first.changes.trans second.changes,fun same => ?_⟩
  have left := first.changes
  have right := second.changes
  exact (first.ext (by omega)).trans (second.ext (by omega))

theorem growsExt {more : List Signal} (signals : t.signals = s.signals ++ more) (ext : Ext s t) : Grows s t := by
  refine ⟨?_,fun _ => ext⟩
  unfold changes
  rw [signals,count_append]
  exact Nat.le_add_right _ _

theorem growsSet {s : FibDecoder} {c : FibConfigFig0} (grown : ConfigExt (s.getConfig cnFlag) c) : Grows s (s.setConfig cnFlag c) :=
  growsExt (congrArg FibDecoder.signals (setConfigSignals s cnFlag c)) (extSet grown)

theorem asideGrows (aside : Aside s t) : Grows s t := by
  obtain ⟨stores,-,more,signals⟩ := aside
  exact growsExt signals stores.ext

theorem extClusters (s : FibDecoder) (cnFlag : Nat) (table : List Cluster) :
    Ext s (s.setConfig cnFlag { s.getConfig cnFlag with clusterTable := table }) := extSet { configExtRefl (s.getConfig cnFlag) with }

theorem microGrows {d : Bits} (micro : Micro d s t) : Grows s t := by
  cases micro with
  | stores stored => exact growsSet (storesExt stored)
  | labels stored => exact growsExt (append_nil _).symm (labelsExt stored)
  | ensembleLabel e first => exact growsExt rfl { extRefl s with fig1s0 := first ▸ nil_prefix }
  | ensembleInformation =>
    unfold processFig0s0
    dsimp only
    split
    · refine ⟨?_,fun same => ?_⟩
      · unfold changes emit
        rw [count_append]
        exact Nat.le_add_right _ _
      · unfold changes emit at same
        rw [count_append] at same
        exact absurd same (by simp)
    · exact growsExt (append_nil _).symm (SameStores.ext ⟨rfl,rfl,rfl⟩)
  | dateAndTime => exact asideGrows (dateAndTimeAside s)
  | ewsInformation => exact asideGrows (ewsInformationAside s)
  | setsCluster =>
    rw [setClusterExact]
    split
    · exact growsRefl s
    · exact growsSet { configExtRefl (s.getConfig _) with }
  | switches =>
    rw [switchAnnouncementExact]
    exact growsExt rfl ((extClusters s _ _).trans (SameStores.ext ⟨rfl,rfl,rfl⟩))
  | retriggers => exact asideGrows (retriggerAside s)
  | fastAudio => exact asideGrows (fastAudioAside s)

theorem stepsGrow {figs : List Bits} (steps : Steps figs s t) : Grows s t := by
  induction steps with
  | refl => exact growsRefl s
  | tail _ last ih =>
    obtain ⟨d,_,micro⟩ := last
    exact ih.trans (microGrows micro)

theorem passedChanges {figs : List Bits} (passed : Passed figs s t) : changes s ≤ changes t := by
  cases passed with
  | calm steps | restarted steps => exact (stepsGrow steps).changes

theorem growsSplit (first : Grows a b) (second : Grows b c) (same : changes c = changes a) :
    changes b = changes a ∧ changes c = changes b ∧ Ext b c := by
  have left := first.changes
  have right := second.changes
  exact ⟨by omega,by omega,second.ext (by omega)⟩

section Again
variable {s t : FibDecoder}

structure SameConfig (c later : FibConfigFig0) : Prop where
  fig0s1 : later.fig0s1Vec = c.fig0s1Vec
  fig0s2 : later.fig0s2Vec = c.fig0s2Vec
  fig0s3 : later.fig0s3Vec = c.fig0s3Vec
  fig0s5 : ∃ more, later.fig0s5Vec = c.fig0s5Vec ++ more ∧ ∀ e ∈ more, e.lsFlag = 1 ∧ 256 ≤ e.scId
  fig0s7 : later.fig0s7Vec = c.fig0s7Vec
  fig0s8 : later.fig0s8Vec = c.fig0s8Vec
  fig0s9 : later.fig0s9Vec = c.fig0s9Vec
  fig0s14 : later.fig0s14Vec = c.fig0s14Vec
  fig0s17 : later.fig0s17Vec = c.fig0s17Vec

structure Unchanged (figs : List Bits) (s later : FibDecoder) : Prop where
  curr : SameConfig s.fig0Curr later.fig0Curr
  next : SameConfig s.fig0Next later.fig0Next
  currApps : later.fig0Curr.fig0s13Vec = s.fig0Curr.fig0s13Vec
  nextApps : s.fig0Next.fig0s13Vec <+: later.fig0Next.fig0s13Vec
  nextAppsSame : (∀ d ∈ figs, ¬ userAppsOfNext d) → later.fig0Next.fig0s13Vec = s.fig0Next.fig0s13Vec
  fig1 : later.fig1 = s.fig1
  going : later.restartFibDecoding = s.restartFibDecoding

theorem sameConfigRefl (c : FibConfigFig0) : SameConfig c c := ⟨rfl,rfl,rfl,⟨[],(append_nil _).symm,by simp⟩,rfl,rfl,rfl,rfl,rfl⟩

theorem SameConfig.trans {a b c : FibConfigFig0} (first : SameConfig a b) (second : SameConfig b c) : SameConfig a c where
  fig0s1 := second.fig0s1.trans first.fig0s1
  fig0s2 := second.fig0s2.trans first.fig0s2
  fig0s3 := second.fig0s3.trans first.fig0s3
  fig0s5 := by
    obtain ⟨more,stored,long⟩ := first.fig0s5
    obtain ⟨rest,storedToo,longToo⟩ := second.fig0s5
    refine ⟨more ++ rest,by rw [storedToo,stored,append_assoc],?_⟩
    rw [forall_mem_append]
    exact ⟨long,longToo⟩
  fig0s7 := second.fig0s7.trans first.fig0s7
  fig0s8 := second.fig0s8.trans first.fig0s8
  fig0s9 := second.fig0s9.trans first.fig0s9
  fig0s14 := second.fig0s14.trans first.fig0s14
  fig0s17 := second.fig0s17.trans first.fig0s17

variable {figs : List Bits}

theorem unchangedRefl (s : FibDecoder) : Unchanged figs s s :=
  ⟨sameConfigRefl _,sameConfigRefl _,rfl,prefix_refl _,fun _ => rfl,rfl,rfl⟩

theorem Unchanged.trans {a b c : FibDecoder} (first : Unchanged figs a b) (second : Unchanged figs b c) : Unchanged figs a c where
  curr := first.curr.trans second.curr
  next := first.next.trans second.next
  currApps := second.currApps.trans first.currApps
  nextApps := first.nextApps.trans second.nextApps
  nextAppsSame none := (second.nextAppsSame none).trans (first.nextAppsSame none)
  fig1 := second.fig1.trans first.fig1
  going := second.going.trans first.going

theorem sameConfigExt {c later : FibConfigFig0} (same : SameConfig c later) (apps : c.fig0s13Vec <+: later.fig0s13Vec) :
    ConfigExt c later where
  fig0s1 := same.fig0s1 ▸ prefix_refl _
  fig0s2 := same.fig0s2 ▸ prefix_refl _
  fig0s3 := same.fig0s3 ▸ prefix_refl _
  fig0s5 := by
    obtain ⟨more,stored,_⟩ := same.fig0s5
    exact ⟨more,stored.symm⟩
  fig0s7 := same.fig0s7 ▸ prefix_refl _
  fig0s8 := same.fig0s8 ▸ prefix_refl _
  fig0s9 := same.fig0s9 ▸ prefix_refl _
  fig0s13 := apps
  fig0s14 := same.fig0s14 ▸ prefix_refl _
  fig0s17 := same.fig0s17 ▸ prefix_refl _

theorem Unchanged.ext (unchanged : Unchanged figs s t) : Ext s t := by
  refine ⟨sameConfigExt unchanged.curr (unchanged.currApps ▸ prefix_refl _),
    sameConfigExt unchanged.next unchanged.nextApps,?_,?_,?_,?_⟩
  all_goals rw [unchanged.fig1]

theorem unchangedSame (same : SameStores s t) (going : t.restartFibDecoding = s.restartFibDecoding) : Unchanged figs s t := by
  refine ⟨?_,?_,by rw [same.curr],by rw [same.next],fun _ => by rw [same.next],same.fig1,going⟩
  · rw [same.curr]
    exact sameConfigRefl _
  · rw [same.next]
    exact sameConfigRefl _

theorem unchangedSet {s : FibDecoder} {cnFlag : Nat} {c : FibConfigFig0} (same : SameConfig (s.getConfig cnFlag) c)
    (apps : c.fig0s13Vec = (s.getConfig cnFlag).fig0s13Vec) : Unchanged figs s (s.setConfig cnFlag c) := by
  unfold getConfig at same apps
  unfold setConfig
  split at same
  · rename_i current
    rw [if_pos current] at apps ⊢
    exact { unchangedRefl s with curr := same, currApps := apps }
  · rename_i other
    rw [if_neg other] at apps ⊢
    have before : Unchanged figs s s := unchangedRefl s
    exact { before with next := same, nextApps := by rw [apps], nextAppsSame := fun _ => apps }

theorem asideUnchanged (aside : Aside s t) : Unchanged figs s t := unchangedSame aside.stores aside.flag

end Again

section Entries
variable {figs : List Bits} {d : Bits} {s t : FibDecoder} {used : Nat} {fh : FigHeader}

structure Again (figs : List Bits) (t : FibDecoder) (next : FibDecoder × Nat) (offset : Nat) : Prop where
  unchanged : Unchanged figs t next.1
  offset : next.2 = offset

theorem againKnown (t : FibDecoder) (offset : Nat) : Again figs t (t, offset) offset := ⟨unchangedRefl t,rfl⟩

theorem storedExt {cnFlag : Nat} {c : FibConfigFig0} (ext : Ext (s.setConfig cnFlag c).retriggerTimerDataLoaded t) :
    ConfigExt c (t.getConfig cnFlag) := by
  have grown := ((retriggerStores _).ext.trans ext).get cnFlag
  rwa [getSet] at grown

theorem storedCurrExt {c : FibConfigFig0} (ext : Ext ({ s with fig0Curr := c } : FibDecoder).retriggerTimerDataLoaded t) :
    ConfigExt c t.fig0Curr := @storedExt s t 0 c ext

def Returns (figs : List Bits) (d : Bits) (fh : FigHeader) (fn : FibProc) : Prop :=
  ∀ {s t used}, (fn s d used fh).1.restartFibDecoding = false → changes (fn s d used fh).1 = changes s →
    Ext (fn s d used fh).1 t → Again figs t (fn t d used fh) (fn s d used fh).2

theorem entryReturns {fn : FibProc} {σ : Type} {lookup : FibDecoder → Nat → Option σ} {own : Nat → σ} {bytes : Nat → σ → Nat}
    {store : FibDecoder → σ → FibDecoder} {refused : FibDecoder → Nat → Prop}
    (entry : ∀ s used, Entry (lookup s used) (own used) (store s) (bytes used) (refused s used) s used (fn s d used fh))
    (kept : ∀ {s t used e}, Ext s t → lookup s used = some e → lookup t used = some e)
    (found : ∀ {s t used}, Ext (store s (own used)).retriggerTimerDataLoaded t → lookup s used = none → lookup t used = some (own used)) :
    Returns figs d fh fn := by
  intro s t used going _ ext
  have known : ∃ e, lookup t used = some e ∧ (fn s d used fh).2 = used + bytes used e := by
    have first := entry s used
    generalize fn s d used fh = next at first going ext ⊢
    cases first with
    | known here => exact ⟨_,kept ext here,rfl⟩
    | stored unknown => exact ⟨_,found ext unknown,rfl⟩
    | restarts => cases going
  obtain ⟨e,here,offset⟩ := known
  have second := entry t used
  rw [offset]
  generalize fn t d used fh = next at second ⊢
  cases second with
  | known also =>
    cases Option.some.inj (here.symm.trans also)
    exact againKnown t _
  | stored unknown | restarts unknown => cases here.symm.trans unknown

theorem fig0s1Returns : Returns figs d fh subprocessFig0s1 := by
  refine entryReturns (fig0s1Entry · d · fh) (fun ext => foundLater (ext.get fh.cnFlag).fig0s1) fun ext unknown => ?_
  refine storedFound (storedExt ext).fig0s1 unknown ?_
  rw [decide_eq_true_iff,readSubChId]

theorem fig0s3Returns : Returns figs d fh subprocessFig0s3 :=
  entryReturns (fig0s3Entry · d · fh) (fun ext => foundLater (ext.get fh.cnFlag).fig0s3) fun ext unknown =>
    storedFound (storedExt ext).fig0s3 unknown (decide_eq_true rfl)

theorem fig0s8Returns : Returns figs d fh subprocessFig0s8 :=
  entryReturns (fig0s8Entry · d · fh) (fun ext => foundLater (ext.get fh.cnFlag).fig0s8) fun ext unknown =>
    storedFound (storedExt ext).fig0s8 unknown (decide_eq_true ⟨rfl,rfl⟩)

theorem fig0s14Returns : Returns figs d fh subprocessFig0s14 :=
  entryReturns (fig0s14Entry · d · fh) (fun ext => foundLater (ext.get fh.cnFlag).fig0s14) fun ext unknown =>
    storedFound (storedExt ext).fig0s14 unknown (decide_eq_true rfl)

theorem fig0s13Returns (current : fh.cnFlag = 0) : Returns figs d fh subprocessFig0s13 := by
  refine entryReturns (fig0s13Entry · d · fh) (fun ext => foundLater ext.curr.fig0s13) fun ext unknown => ?_
  rw [current] at ext
  exact storedFound (storedExt ext).fig0s13 unknown (decide_eq_true ⟨rfl,rfl⟩)

theorem fig0s13NextUnchanged (here : d ∈ figs) (next : userAppsOfNext d) :
    Unchanged figs t (subprocessFig0s13 t d used (getFigHeader d)).1 := by
  have entry := fig0s13Entry t d used (getFigHeader d)
  generalize subprocessFig0s13 t d used (getFigHeader d) = after at entry ⊢
  cases entry with
  | known => exact unchangedRefl t
  | stored =>
    refine Unchanged.trans ?_ (asideUnchanged (retriggerAside _))
    unfold setConfig getConfig
    rw [if_neg (show (getFigHeader d).cnFlag ≠ 0 from next.2.2),if_neg (show (getFigHeader d).cnFlag ≠ 0 from next.2.2)]
    have before : Unchanged figs t t := unchangedRefl t
    exact { before with
      next := { sameConfigRefl t.fig0Next with }
      nextApps := prefix_append _ _
      nextAppsSame := fun none => absurd next (none d here) }
  | restarts _ refused => exact refused.elim

theorem fig0s5Lost (ext : Ext (subprocessFig0s5 s d used fh).1 t) (lost : lookupFig0s5 t.fig0Curr d (used * 8) = none) :
    (readFig0s5 d (used * 8)).lsFlag = 1 ∧ 256 ≤ (readFig0s5 d (used * 8)).scId := by
  have entry := fig0s5Entry s d used fh
  generalize subprocessFig0s5 s d used fh = after at entry ext
  unfold lookupFig0s5 readFig0s5 at *
  by_cases short : getBits1 d (used * 8) = 0
  · rw [if_pos short] at lost
    simp only [if_pos short] at entry
    cases entry with
    | known found => cases lost.symm.trans (foundLater ext.curr.fig0s5 found)
    | stored unknown =>
      cases lost.symm.trans (storedFound (storedCurrExt ext).fig0s5 unknown (decide_eq_true ⟨rfl,rfl⟩))
    | restarts _ refused => exact refused.elim
  · rw [if_neg short] at lost ⊢
    simp only [if_neg short] at entry
    refine ⟨rfl,not_lt.mp (fun small => ?_)⟩
    cases entry with
    | known found => cases lost.symm.trans (foundLater ext.curr.fig0s5 found)
    | stored unknown =>
      have eight : ((getBits d (used * 8 + 4) 12 : Nat) : Int) = (getBits d (used * 8 + 4) 12 % 256 : Nat) := by
        dsimp only at small
        omega
      cases lost.symm.trans (storedFound (storedCurrExt ext).fig0s5 unknown (decide_eq_true ⟨rfl,eight⟩))
    | restarts _ refused => exact refused.elim

theorem fig0s5Returns : Returns figs d fh subprocessFig0s5 := by
  intro s t used _ _ ext
  have lost := fig0s5Lost ext
  have first := fig0s5Entry s d used fh
  have second := fig0s5Entry t d used fh
  have offset : (subprocessFig0s5 s d used fh).2 = used + fig0s5Bytes (readFig0s5 d (used * 8)) := by
    generalize subprocessFig0s5 s d used fh = after at first
    cases first <;> rfl
  rw [offset]
  generalize subprocessFig0s5 t d used fh = after at second ⊢
  cases second with
  | known => exact againKnown t _
  | stored unknown =>
    refine ⟨Unchanged.trans ?_ (asideUnchanged (retriggerAside _)),rfl⟩
    have before : Unchanged figs t t := unchangedRefl t
    refine { before with curr := { sameConfigRefl t.fig0Curr with fig0s5 := ⟨_,rfl,?_⟩ } }
    rw [forall_mem_singleton]
    exact lost unknown
  | restarts _ refused => exact refused.elim

theorem fig0s2ComponentKnown {cnFlag bitOffset i : Nat} {acc : FibDecoder × Fig0s2}
    (ext : Ext (fig0s2Component d cnFlag bitOffset acc i).1 t) : ((t.getConfig cnFlag).getFig0s2OfSIdScIdx acc.2.sId i).isSome := by
  unfold fig0s2Component at ext
  dsimp only at ext
  split at ext
  · rename_i found
    exact Option.isSome_of_eq_some (foundLater (ext.get cnFlag).fig0s2 found)
  · rename_i unknown
    exact Option.isSome_of_eq_some (storedFound (storedExt ext).fig0s2 unknown (decide_eq_true ⟨rfl,rfl⟩))

theorem fig0s2ComponentsAgain (here : d ∈ figs) (cnFlag bitOffset : Nat) {is : List Nat} (acc : FibDecoder × Fig0s2)
    (service : acc.2.sId < 2 ^ 32) (index : ∀ i ∈ is, i < 16) (record : Fig0s2) (sId : record.sId = acc.2.sId)
    (same : changes (is.foldl (fig0s2Component d cnFlag bitOffset) acc).1 = changes acc.1)
    (ext : Ext (is.foldl (fig0s2Component d cnFlag bitOffset) acc).1 t) :
    (is.foldl (fig0s2Component d cnFlag bitOffset) (t, record)).1 = t := by
  induction is generalizing acc with
  | nil => rfl
  | cons i is ih =>
    rw [foldl_cons] at same ext ⊢
    rw [forall_mem_cons] at index
    have serviceLater := (fig0s2ComponentSId d cnFlag bitOffset acc i).symm ▸ service
    have first := stepsGrow (fig0s2ComponentSteps here cnFlag bitOffset service index.1)
    have rest := stepsGrow (fig0s2ComponentsSteps here cnFlag bitOffset _ serviceLater index.2)
    obtain ⟨-,sameToo,grown⟩ := growsSplit first rest same
    obtain ⟨e,found⟩ := Option.isSome_iff_exists.mp (fig0s2ComponentKnown (grown.trans ext))
    have stays : fig0s2Component d cnFlag bitOffset (t, record) i = (t, record) := by
      unfold fig0s2Component
      dsimp only
      rw [sId,found]
    rw [stays]
    exact ih _ serviceLater index.2 (sId.trans (fig0s2ComponentSId d cnFlag bitOffset acc i).symm) sameToo ext

theorem fig0s2Returns (here : d ∈ figs) : Returns figs d fh subprocessFig0s2 := by
  intro s t used _ same ext
  refine ⟨?_,rfl⟩
  have stays : (subprocessFig0s2 t d used fh).1 = t := fig0s2ComponentsAgain here _ _ (s, _) (serviceLt d (8 * used) fh.pdFlag)
      (fun i member => (mem_range.mp member).trans (getBitsLt d _ 4)) _ rfl same ext
  rw [stays]
  exact unchangedRefl t

end Entries

section Figs
variable {figs : List Bits} {d : Bits}

def Repeats (figs : List Bits) (f : FibDecoder → FibDecoder) : Prop :=
  ∀ {s t}, (f s).restartFibDecoding = false → changes (f s) = changes s → changes (f t) = changes t →
    t.restartFibDecoding = false → Ext (f s) t → Unchanged figs t (f t)

theorem roundsAgain {fn : FibProc} {fh : FigHeader} (passed : ∀ s used, Passed figs s (fn s d used fh).1)
    (returns : Returns figs d fh fn) (fuel : Nat) {s t : FibDecoder} {used : Nat} (going : (fig0Rounds fn d fh fuel s used).restartFibDecoding = false)
    (same : changes (fig0Rounds fn d fh fuel s used) = changes s) (calm : t.restartFibDecoding = false)
    (ext : Ext (fig0Rounds fn d fh fuel s used) t) : Unchanged figs t (fig0Rounds fn d fh fuel t used) := by
  induction fuel generalizing s t used with
  | zero => exact unchangedRefl t
  | succ fuel ih =>
    unfold fig0Rounds at going same ext ⊢
    by_cases within : used ≤ fh.length
    · rw [if_pos within] at going same ext ⊢
      dsimp only at going same ext ⊢
      by_cases restarts : (fn s d used fh).1.restartFibDecoding = true
      · rw [if_pos restarts] at going
        exact absurd (restarts.symm.trans going) (by decide)
      · rw [if_neg restarts] at going same ext
        have calmHere := Bool.not_eq_true _ ▸ restarts
        have first := stepsGrow (passedCalm (passed s used) calmHere)
        have rest := stepsGrow (passedCalm (roundsPassed passed fuel _ _) going)
        obtain ⟨sameFirst,sameRest,grown⟩ := growsSplit first rest same
        have entry := returns calmHere sameFirst (grown.trans ext)
        have calmLater := entry.unchanged.going.trans calm
        rw [if_neg (by rw [calmLater]; decide),entry.offset]
        exact entry.unchanged.trans (ih going sameRest calmLater (ext.trans entry.unchanged.ext))
    · rw [if_neg within]
      exact unchangedRefl t

theorem fig0s0Unchanged {t : FibDecoder} (same : changes (processFig0s0 t d) = changes t) : Unchanged figs t (processFig0s0 t d) := by
  unfold processFig0s0 at same ⊢
  dsimp only at same ⊢
  split
  · rename_i swaps
    rw [if_pos swaps] at same
    unfold changes emit at same
    rw [count_append] at same
    exact absurd same (by simp)
  · exact unchangedSame ⟨rfl,rfl,rfl⟩ rfl

theorem grownFilled {α : Type} {a : α} {l later : List α} (grown : a :: l <+: later) : later ≠ [] := by
  rintro rfl
  cases prefix_nil.mp grown

theorem fig0s7Repeats : Repeats figs (fun s => processFig0s7 s d) := by
  intro s t _ _ _ _ ext
  have known : (t.getConfig (getFigHeader d).cnFlag).fig0s7Vec ≠ [] := by
    unfold processFig0s7 at ext
    dsimp only at ext
    split at ext
    · rename_i first rest stored
      exact grownFilled (stored ▸ (ext.get (getFigHeader d).cnFlag).fig0s7)
    · exact grownFilled (storedExt ext).fig0s7
  show Unchanged figs t (processFig0s7 t d)
  unfold processFig0s7
  dsimp only
  split
  · exact unchangedRefl t
  · rename_i empty
    exact absurd empty known

theorem fig0s9Repeats : Repeats figs (fun s => processFig0s9 s d) := by
  intro s t _ _ _ _ ext
  have known : t.fig0Curr.fig0s9Vec ≠ [] := by
    unfold processFig0s9 at ext
    dsimp only at ext
    split at ext
    · rename_i first rest stored
      exact grownFilled (stored ▸ ext.curr.fig0s9)
    · exact grownFilled (storedCurrExt ext).fig0s9
  show Unchanged figs t (processFig0s9 t d)
  unfold processFig0s9
  split
  · exact unchangedRefl t
  · rename_i empty
    exact absurd empty known

theorem clustersUnchanged (t : FibDecoder) (cnFlag : Nat) (table : List Cluster) :
    Unchanged figs t (t.setConfig cnFlag { t.getConfig cnFlag with clusterTable := table }) :=
  unchangedSet { sameConfigRefl (t.getConfig cnFlag) with } rfl

theorem fig0s18Unchanged (t : FibDecoder) : Unchanged figs t (processFig0s18 t d) := by
  refine fig0s18Related unchangedRefl Unchanged.trans (fun t _ _ _ _ => ?_) t
  rw [setClusterExact]
  split
  · exact unchangedRefl t
  · exact clustersUnchanged t _ _

theorem fig0s19Unchanged (t : FibDecoder) : Unchanged figs t (processFig0s19 t d) := by
  refine fig0s19Related unchangedRefl Unchanged.trans (fun t _ _ _ _ _ => ?_) t
  rw [switchAnnouncementExact]
  exact (clustersUnchanged t _ _).trans (unchangedSame ⟨rfl,rfl,rfl⟩ rfl)

theorem fig0s17EntryKnown {s t : FibDecoder} {offset : Nat} (ext : Ext (fig0s17Entry s d offset) t) : fig0s17Entry t d offset = t := by
  have known : (t.fig0Curr.getFig0s17OfSId (getBits d offset 16)).isSome := by
    unfold fig0s17Entry at ext
    split at ext
    · rename_i found
      exact Option.isSome_of_eq_some (foundLater ext.curr.fig0s17 found)
    · rename_i unknown
      exact Option.isSome_of_eq_some (storedFound (storedCurrExt ext).fig0s17 unknown (decide_eq_true rfl))
  obtain ⟨e,found⟩ := Option.isSome_iff_exists.mp known
  unfold fig0s17Entry
  rw [found]

theorem fig0s17LoopKnown (here : d ∈ figs) {length fuel : Nat} {s t : FibDecoder} {offset : Nat}
    (same : changes (fig0s17Loop d length fuel s offset) = changes s) (ext : Ext (fig0s17Loop d length fuel s offset) t) :
    fig0s17Loop d length fuel t offset = t := by
  induction fuel generalizing s offset with
  | zero => rfl
  | succ fuel ih =>
    rw [fig0s17Round] at same ext ⊢
    by_cases within : offset < length * 8
    · rw [if_pos within] at same ext ⊢
      have first := stepsGrow (fig0s17EntrySteps here s offset)
      have rest := stepsGrow (fig0s17LoopSteps here length fuel (fig0s17Entry s d offset) (offset + 32))
      obtain ⟨-,sameRest,grown⟩ := growsSplit first rest same
      rw [fig0s17EntryKnown (grown.trans ext)]
      exact ih sameRest ext
    · rw [if_neg within]

theorem fig0s17Repeats (here : d ∈ figs) : Repeats figs (fun s => processFig0s17 s d) := by
  intro s t _ same _ _ ext
  have stays : processFig0s17 t d = t := fig0s17LoopKnown here same ext
  show Unchanged figs t (processFig0s17 t d)
  rw [stays]
  exact unchangedRefl t

theorem loopRepeats {fn : FibProc} (steps : ∀ s used fh, Steps figs s (fn s d used fh).1)
    (returns : Returns figs d (getFigHeader d) fn) : Repeats figs (fun s => processFig0Loop fn s d) := by
  intro s t going same _ calm ext
  exact roundsAgain (fun s used => .calm (steps s used _)) returns 32 going same calm ext

theorem fig0s13Repeats (here : d ∈ figs) (typed : getBits3 d 0 = 0) (extension : getBits5 d 11 = 13) :
    Repeats figs (fun s => processFig0Loop subprocessFig0s13 s d) := by
  intro s t going same _ calm ext
  have passed : ∀ s used, Passed figs s (subprocessFig0s13 s d used (getFigHeader d)).1 :=
    fun s used => .calm (fig0s13Steps here typed extension s used)
  by_cases current : (getFigHeader d).cnFlag = 0
  · exact roundsAgain passed (fig0s13Returns current) 32 going same calm ext
  · have all : ∀ fuel (t : FibDecoder) used, Unchanged figs t (fig0Rounds subprocessFig0s13 d (getFigHeader d) fuel t used) := by
      intro fuel
      induction fuel with
      | zero => exact fun t _ => unchangedRefl t
      | succ fuel ih =>
        intro t used
        have one : Unchanged figs t (subprocessFig0s13 t d used (getFigHeader d)).1 := fig0s13NextUnchanged here ⟨typed,extension,current⟩
        unfold fig0Rounds
        split
        · dsimp only
          split
          · exact one
          · exact one.trans (ih _ _)
        · exact unchangedRefl t
    exact all 32 t 2

theorem extensionRepeats (here : d ∈ figs) (typed : getBits3 d 0 = 0) :
    Repeats figs (fun s => processFig0Extension s d (getBits5 d 11)) := by
  unfold processFig0Extension
  split
  · exact fun _ _ same _ _ => fig0s0Unchanged same
  · intro s t going same _ calm ext
    exact roundsAgain (fun s used => fig0s1Passed here s used _) fig0s1Returns 32 going same calm ext
  · exact loopRepeats (fig0s2Steps here) (fig0s2Returns here)
  · exact loopRepeats (fig0s3Steps here) fig0s3Returns
  · exact loopRepeats (fig0s5Steps here) fig0s5Returns
  · exact fig0s7Repeats
  · exact loopRepeats (fig0s8Steps here) fig0s8Returns
  · exact fig0s9Repeats
  · exact fun _ _ _ _ _ => asideUnchanged (dateAndTimeAside _)
  · rename_i extension
    exact fig0s13Repeats here typed extension
  · exact loopRepeats (fig0s14Steps here) fig0s14Returns
  · exact fun _ _ _ _ _ => asideUnchanged (ewsInformationAside _)
  · exact fig0s17Repeats here
  · exact fun _ _ _ _ _ => fig0s18Unchanged _
  · exact fun _ _ _ _ _ => fig0s19Unchanged _
  · exact fun _ _ _ _ _ => unchangedRefl _

theorem fig0Grows (s : FibDecoder) : Grows (processFig0Extension s d (getBits5 d 11)) (processFig0 s d) := by
  unfold processFig0
  dsimp only
  generalize processFig0Extension s d (getBits5 d 11) = t
  split
  · exact microGrows (d := d) .fastAudio
  · exact growsRefl t

theorem fig0Repeats (here : d ∈ figs) (typed : getBits3 d 0 = 0) : Repeats figs (fun s => processFig0 s d) := by
  intro s t going first second calm ext
  have growsS := fig0Grows (d := d) s
  have growsT := fig0Grows (d := d) t
  obtain ⟨storesS,flagS⟩ := fig0Selects (d := d) s
  obtain ⟨storesT,flagT⟩ := fig0Selects (d := d) t
  have passedS := passedChanges (extensionPassed here typed s)
  have passedT := passedChanges (extensionPassed here typed t)
  have leftS := growsS.changes
  have leftT := growsT.changes
  have sameS : changes (processFig0Extension s d (getBits5 d 11)) = changes s := by
    dsimp only at first
    omega
  have sameT : changes (processFig0Extension t d (getBits5 d 11)) = changes t := by
    dsimp only at second
    omega
  have handled := extensionRepeats here typed (flagS.symm.trans going) sameS sameT calm (storesS.ext.trans ext)
  exact handled.trans (unchangedSame storesT flagT)

variable (toQString : Nat → List Nat → List Nat)

theorem storedLabelExt {s t : FibDecoder} {c : FibConfigFig1} (ext : Ext ({ s with fig1 := c } : FibDecoder).retriggerTimerDataLoaded t) :
    Ext { s with fig1 := c } t := (retriggerStores _).ext.trans ext

theorem emplaceVecs (c : FibConfigFig1) (name : List Nat) (sId : Nat) (scIdS : Int) :
    (c.tryEmplace name sId scIdS).fig1s1Vec = c.fig1s1Vec ∧ (c.tryEmplace name sId scIdS).fig1s4Vec = c.fig1s4Vec ∧
    (c.tryEmplace name sId scIdS).fig1s5Vec = c.fig1s5Vec := by
  unfold FibConfigFig1.tryEmplace
  split <;> exact ⟨rfl,rfl,rfl⟩

theorem fig1s0Repeats : Repeats figs (fun s => processFig1s0 toQString s d) := by
  intro s t _ _ _ _ ext
  unfold processFig1s0 at ext ⊢
  dsimp only at ext ⊢
  split
  · exact unchangedRefl t
  · rename_i label read
    rw [read] at ext
    dsimp only at ext
    split
    · exact unchangedRefl t
    · rename_i empty
      have grown := ext.fig1s0
      rw [empty,prefix_nil] at grown
      split at grown
      · rename_i stored
        cases stored.symm.trans grown
      · cases grown

theorem fig1s1Repeats : Repeats figs (fun s => processFig1s1 toQString s d) := by
  intro s t _ _ _ _ ext
  unfold processFig1s1 at ext ⊢
  dsimp only at ext ⊢
  split
  · exact unchangedRefl t
  · rename_i label read
    rw [read] at ext
    dsimp only at ext
    split
    · exact unchangedRefl t
    · rename_i lost
      split at ext
      · rename_i found
        cases lost.symm.trans (foundLater ext.fig1s1 found)
      · rename_i unknown
        have grown := (storedLabelExt ext).fig1s1
        rw [(emplaceVecs _ _ _ _).1] at grown
        cases lost.symm.trans (storedFound grown unknown (decide_eq_true rfl))

theorem fig1s4Repeats : Repeats figs (fun s => processFig1s4 toQString s d) := by
  intro s t _ _ _ _ ext
  unfold processFig1s4 at ext ⊢
  dsimp only at ext ⊢
  split
  · exact unchangedRefl t
  · rename_i lost
    split
    · exact unchangedRefl t
    · rename_i label read
      rw [read] at ext
      split at ext
      · rename_i found
        cases lost.symm.trans (foundLater ext.fig1s4 found)
      · rename_i unknown
        have grown := (storedLabelExt ext).fig1s4
        rw [(emplaceVecs _ _ _ _).2.1] at grown
        cases lost.symm.trans (storedFound grown unknown (decide_eq_true ⟨rfl,rfl⟩))

theorem fig1s5Repeats : Repeats figs (fun s => processFig1s5 toQString s d) := by
  intro s t _ _ _ _ ext
  unfold processFig1s5 at ext ⊢
  dsimp only at ext ⊢
  split
  · exact unchangedRefl t
  · rename_i lost
    split
    · exact unchangedRefl t
    · rename_i label read
      rw [read] at ext
      split at ext
      · rename_i found
        cases lost.symm.trans (foundLater ext.fig1s5 found)
      · rename_i unknown
        have grown := (storedLabelExt ext).fig1s5
        rw [(emplaceVecs _ _ _ _).2.2] at grown
        cases lost.symm.trans (storedFound grown unknown (decide_eq_true rfl))

theorem figRepeats (here : d ∈ figs) : Repeats figs (fun s => processFig toQString s d) := by
  unfold processFig
  split
  · rename_i typed
    exact fig0Repeats here typed
  · unfold processFig1
    split
    · exact fig1s0Repeats toQString
    · exact fig1s1Repeats toQString
    · exact fig1s4Repeats toQString
    · exact fig1s5Repeats toQString
    · exact fun _ _ _ _ _ => unchangedRefl _
  · exact fun _ _ _ _ _ => unchangedRefl _

theorem fibRoundsRepeat (fib : Bits) (fuel : Nat) {s t : FibDecoder} {processedBytes : Nat}
    (inside : ∀ d ∈ figsFrom fib fuel processedBytes, d ∈ figs)
    (going : (fibRounds toQString fib fuel s processedBytes).restartFibDecoding = false)
    (first : changes (fibRounds toQString fib fuel s processedBytes) = changes s)
    (second : changes (fibRounds toQString fib fuel t processedBytes) = changes t) (calm : t.restartFibDecoding = false)
    (ext : Ext (fibRounds toQString fib fuel s processedBytes) t) : Unchanged figs t (fibRounds toQString fib fuel t processedBytes) := by
  induction fuel generalizing s t processedBytes with
  | zero => exact unchangedRefl t
  | succ fuel ih =>
    unfold fibRounds at going first second ext ⊢
    unfold figsFrom at inside
    by_cases within : processedBytes < 30
    · rw [if_pos within] at inside going first second ext ⊢
      dsimp only at inside going first second ext ⊢
      by_cases ends : isEndMarker (figAt fib processedBytes) = true
      · rw [if_pos ends]
        exact unchangedRefl t
      · rw [if_neg ends] at inside going first second ext ⊢
        rw [forall_mem_cons] at inside
        obtain ⟨here,later⟩ := inside
        generalize processedBytes + getBits5 (figAt fib processedBytes) 3 + 1 = behind at *
        by_cases restarts : (processFig toQString s (figAt fib processedBytes)).restartFibDecoding = true
        · rw [if_pos restarts] at going
          exact absurd (restarts.symm.trans going) (by decide)
        · rw [if_neg restarts] at going first ext
          have calmHere := Bool.not_eq_true _ ▸ restarts
          have grows := stepsGrow (passedCalm (figPassed here toQString s) calmHere)
          have rest := stepsGrow (passedCalm (fibRoundsPassed toQString fib fuel _ _ later) going)
          obtain ⟨sameFirst,sameRest,grown⟩ := growsSplit grows rest first
          have onwards : changes (processFig toQString t (figAt fib processedBytes)) ≤ changes t := by
            rw [← second]
            split
            · exact le_refl _
            · exact passedChanges (fibRoundsPassed toQString fib fuel _ _ later)
          have sameSecond := le_antisymm onwards (passedChanges (figPassed here toQString t))
          have fig := figRepeats toQString here calmHere sameFirst sameSecond calm (grown.trans ext)
          have calmLater := fig.going.trans calm
          rw [if_neg (by rw [calmLater]; decide)] at second ⊢
          exact fig.trans (ih later going sameRest (second.trans sameSecond.symm) calmLater (ext.trans fig.ext))
    · rw [if_neg within]
      exact unchangedRefl t

theorem fibRepeats {s : FibDecoder} {fib : Bits} (going : (processFib toQString s fib).restartFibDecoding = false)
    (first : changes (processFib toQString s fib) = changes s)
    (second : changes (processFib toQString (processFib toQString s fib) fib) = changes (processFib toQString s fib)) :
    Unchanged (figsOf fib) (processFib toQString s fib) (processFib toQString (processFib toQString s fib) fib) := by
  have again := fibRoundsRepeat toQString fib 30 (t := { processFib toQString s fib with restartFibDecoding := false })
    (fun _ member => member) going first second rfl (SameStores.ext ⟨rfl,rfl,rfl⟩)
  exact { again with going := again.going.trans going.symm }

end Figs

section Stores
open Multiplex (fibOf plainText)

theorem storesRepeat (toQString : Nat → List Nat → List Nat) (events : List Event) :
    BothConfigs (fun c => UniqueKeys c ∧ Bounded c) (run toQString {} events) ∧ (AllFigs (fun d => ¬ userAppsOfNext d) events →
      BothConfigs (fun c => UniqueUserApps c ∧ c.fig0s13Vec.length ≤ 2 ^ 36) (run toQString {} events)) ∧
    ∀ fib first second, first = processFib toQString (run toQString {} events) fib → second = processFib toQString first fib →
      first.restartFibDecoding = false → changes first = changes (run toQString {} events) → changes second = changes first →
      Unchanged (figsOf fib) first second := by
  have unique := startKeeps uniqueKeysKept toQString (fun _ _ _ _ => trivial : AllFigs (fun _ => True) events)
  have ranges := startKeeps keyRangesKept toQString (fun _ _ _ _ => trivial : AllFigs (fun _ => True) events)
  refine ⟨⟨⟨unique.1,uniqueBounded unique.1 ranges.1⟩,unique.2,uniqueBounded unique.2 ranges.2⟩,fun none => ?_,?_⟩
  · have apps := startKeeps uniqueUserAppsKept toQString none
    exact ⟨⟨apps.1,userAppsBounded apps.1 ranges.1⟩,apps.2,userAppsBounded apps.2 ranges.2⟩
  · intro fib first second here again going same sameToo
    subst here again
    exact fibRepeats toQString going same sameToo

def fecFib : Bits := fibOf [0x02,0x0E,0x15,0xFF]

theorem fecRepeats : (processFib plainText {} fecFib).fig0Curr.fig0s14Vec = [⟨5,1⟩] ∧
    Unchanged (figsOf fecFib) (processFib plainText {} fecFib) (processFib plainText (processFib plainText {} fecFib) fecFib) :=
  ⟨by decide,(storesRepeat plainText []).2.2 fecFib _ _ rfl rfl (by decide) (by decide) (by decide)⟩

def firstChannelFib : Bits := fibOf [0x04,0x01,0x04,0x00,0x00,0xFF]
def secondChannelFib : Bits := fibOf [0x04,0x01,0x08,0x00,0x00,0xFF]

def languageFib : Bits := fibOf [0x04,0x05,0x81,0x00,0x09,0xFF]

def nextAppsFib : Bits := fibOf [0x04,0x8D,0x12,0x34,0x00,0xFF]

theorem repetitionStores : (run plainText {} [.fib firstChannelFib,.fib secondChannelFib]).fig0Curr.fig0s1Vec = [] ∧
    (run plainText {} [.fib firstChannelFib,.fib secondChannelFib,.fib secondChannelFib]).fig0Curr.fig0s1Vec.length = 1 ∧
    (run plainText {} [.fib languageFib,.fib languageFib]).fig0Curr.fig0s5Vec.map Fig0s5.scId = [256,256] ∧
    (run plainText {} [.fib nextAppsFib,.fib nextAppsFib]).fig0Next.fig0s13Vec.map Fig0s13.sId = [0x1234,0x1234] := by decide

end Stores

end DabStar.Fib.FibDecoder
