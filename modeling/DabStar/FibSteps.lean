import DabStar.FibDecoder

/-! What the FIB decoder can do, in single steps: an entry or a label goes into its store, the
configurations are swapped, everything is thrown away. What each step keeps is kept by every
run. -/
namespace DabStar.Fib.FibDecoder
open List

def userAppsOfNext (d : Bits) : Prop := getBits3 d 0 = 0 ∧ getBits5 d 11 = 13 ∧ getBits1 d 8 ≠ 0
  deriving Decidable

def figsFrom (fib : Bits) : Nat → Nat → List Bits
  | 0, _ => []
  | fuel + 1, processedBytes =>
    if processedBytes < 30 then
      let d := figAt fib processedBytes
      if isEndMarker d then [] else d :: figsFrom fib fuel (processedBytes + getBits5 d 3 + 1)
    else []

def figsOf (fib : Bits) : List Bits := figsFrom fib 30 0

inductive Stores (d : Bits) (s : FibDecoder) (cnFlag : Nat) : FibConfigFig0 → Prop where
  | fig0s1 (bitOffset : Nat)
      (unknown : (s.getConfig cnFlag).getFig0s1OfSubChId (getBits6 d bitOffset) = none)
      (fits : (readFig0s1 d bitOffset).startAddr + (readFig0s1 d bitOffset).subChannelSize ≤ cNumCuPerCif)
      (free : findCollidingFig0s1 (s.getConfig cnFlag).fig0s1Vec (readFig0s1 d bitOffset) = none) :
      Stores d s cnFlag { s.getConfig cnFlag with
        fig0s1Vec := (s.getConfig cnFlag).fig0s1Vec ++ [readFig0s1 d bitOffset] }
  | fig0s2 (e : Fig0s2) (service : e.sId < 2 ^ 32) (index : ∃ i : Nat, i < 16 ∧ e.serviceCompCIndex = i)
      (unknown : (s.getConfig cnFlag).getFig0s2OfSIdScIdx e.sId e.serviceCompCIndex = none) :
      Stores d s cnFlag { s.getConfig cnFlag with fig0s2Vec := (s.getConfig cnFlag).fig0s2Vec ++ [e] }
  | fig0s3 (e : Fig0s3) (component : ∃ scId : Nat, scId < 4096 ∧ e.scId = scId)
      (unknown : (s.getConfig cnFlag).getFig0s3OfSCId e.scId = none) :
      Stores d s cnFlag { s.getConfig cnFlag with fig0s3Vec := (s.getConfig cnFlag).fig0s3Vec ++ [e] }
  | fig0s5Short (subChId language : Nat) (channel : subChId < 64) (curr : cnFlag = 0)
      (unknown : (s.getConfig cnFlag).getFig0s5OfSubChId subChId = none) :
      Stores d s cnFlag { s.getConfig cnFlag with fig0s5Vec := (s.getConfig cnFlag).fig0s5Vec ++
        [{ lsFlag := 0, subChId := subChId, language := language }] }
  | fig0s5Long (scId language : Nat) (curr : cnFlag = 0) (unknown : (s.getConfig cnFlag).getFig0s5OfSCId scId = none) :
      Stores d s cnFlag { s.getConfig cnFlag with fig0s5Vec := (s.getConfig cnFlag).fig0s5Vec ++
        [{ lsFlag := 1, scId := scId, language := language }] }
  | fig0s7 (e : Fig0s7) (unknown : (s.getConfig cnFlag).fig0s7Vec = []) :
      Stores d s cnFlag { s.getConfig cnFlag with fig0s7Vec := [e] }
  | fig0s8 (e : Fig0s8) (service : e.sId < 2 ^ 32) (component : ∃ scIdS : Nat, scIdS < 16 ∧ e.scIdS = scIdS)
      (unknown : (s.getConfig cnFlag).getFig0s8OfSIdSCIdS e.sId e.scIdS = none) :
      Stores d s cnFlag { s.getConfig cnFlag with fig0s8Vec := (s.getConfig cnFlag).fig0s8Vec ++ [e] }
  | fig0s9 (e : Fig0s9) (curr : cnFlag = 0) (unknown : (s.getConfig cnFlag).fig0s9Vec = []) :
      Stores d s cnFlag { s.getConfig cnFlag with fig0s9Vec := [e] }
  | fig0s13 (e : Fig0s13) (service : e.sId < 2 ^ 32) (component : ∃ scIdS : Nat, scIdS < 16 ∧ e.scIdS = scIdS)
      (sized : 24 ≤ e.sizeBits) (named : cnFlag ≠ 0 → userAppsOfNext d)
      (unknown : s.fig0Curr.getFig0s13OfSIdSCIdS e.sId e.scIdS = none) :
      Stores d s cnFlag { s.getConfig cnFlag with fig0s13Vec := (s.getConfig cnFlag).fig0s13Vec ++ [e] }
  | fig0s14 (e : Fig0s14) (channel : ∃ subChId : Nat, subChId < 64 ∧ e.subChId = subChId)
      (unknown : (s.getConfig cnFlag).getFig0s14OfSubChId e.subChId = none) :
      Stores d s cnFlag { s.getConfig cnFlag with fig0s14Vec := (s.getConfig cnFlag).fig0s14Vec ++ [e] }
  | fig0s17 (e : Fig0s17) (service : e.sId < 2 ^ 16) (curr : cnFlag = 0)
      (unknown : (s.getConfig cnFlag).getFig0s17OfSId e.sId = none) :
      Stores d s cnFlag { s.getConfig cnFlag with fig0s17Vec := (s.getConfig cnFlag).fig0s17Vec ++ [e] }

inductive Labels (c : FibConfigFig1) : FibConfigFig1 → Prop where
  | fig1s1 (e : Fig1s1) (unknown : c.getFig1s1OfSId e.sId = none) :
      Labels c ({ c with fig1s1Vec := c.fig1s1Vec ++ [e] }.tryEmplace e.label.name e.sId (-1))
  | fig1s4 (e : Fig1s4) (unknown : c.getFig1s4OfSIdSCIdS e.sId e.scIdS = none) :
      Labels c ({ c with fig1s4Vec := c.fig1s4Vec ++ [e] }.tryEmplace e.label.name e.sId e.scIdS)
  | fig1s5 (e : Fig1s5) (unknown : c.getFig1s5OfSId e.sId = none) :
      Labels c ({ c with fig1s5Vec := c.fig1s5Vec ++ [e] }.tryEmplace e.label.name e.sId (-5))

inductive Micro (d : Bits) (s : FibDecoder) : FibDecoder → Prop where
  | stores {cnFlag : Nat} {c : FibConfigFig0} (stored : Stores d s cnFlag c) : Micro d s (s.setConfig cnFlag c)
  | labels {c : FibConfigFig1} (stored : Labels s.fig1 c) : Micro d s { s with fig1 := c }
  | ensembleLabel (e : Fig1s0) (first : s.fig1.fig1s0Vec = []) :
      Micro d s ({ s with fig1 := { s.fig1 with fig1s0Vec := [e] } }.emit (.nameOfEnsemble e.eId e.label.name e.label.nameShort))
  | ensembleInformation : Micro d s (processFig0s0 s d)
  | dateAndTime : Micro d s (processFig0s10 s d)
  | ewsInformation : Micro d s (processFig0s15 s d)
  | setsCluster (cnFlag : Nat) (clusterId : Int) (sId asuFlags : Nat) : Micro d s (setCluster s cnFlag clusterId sId asuFlags)
  | switches (cnFlag : Nat) (clusterId : Int) (aswFlags subChId : Nat) (loaded : 4 ≤ s.fibLoadingState.rank) :
      Micro d s (switchAnnouncement s cnFlag clusterId aswFlags subChId)
  | retriggers : Micro d s s.retriggerTimerDataLoaded
  | fastAudio : Micro d s s.processFastAudioSelection

def Steps (figs : List Bits) : FibDecoder → FibDecoder → Prop := Relation.ReflTransGen (fun s t => ∃ d ∈ figs, Micro d s t)

inductive Passed (figs : List Bits) (s : FibDecoder) : FibDecoder → Prop where
  | calm {t : FibDecoder} (steps : Steps figs s t) : Passed figs s t
  | restarted {t : FibDecoder} (steps : Steps figs s t) : Passed figs s t.restart

section Sequences
variable {figs : List Bits} {d : Bits} {s t : FibDecoder} {R : FibDecoder → FibDecoder → Prop}

theorem stepsRefl (s : FibDecoder) : Steps figs s s := Relation.ReflTransGen.refl

theorem Steps.trans {s t u : FibDecoder} (first : Steps figs s t) (second : Steps figs t u) : Steps figs s u :=
  Relation.ReflTransGen.trans first second

theorem stepsOne (here : d ∈ figs) (micro : Micro d s t) : Steps figs s t := Relation.ReflTransGen.single ⟨d,here,micro⟩

theorem stepsKeep {P : FibDecoder → Prop} (each : ∀ {d s t}, d ∈ figs → Micro d s t → P s → P t) (steps : Steps figs s t)
    (before : P s) : P t := by
  induction steps with
  | refl => exact before
  | tail _ last ih =>
    obtain ⟨d,here,micro⟩ := last
    exact each here micro ih

theorem storeSteps (here : d ∈ figs) {s : FibDecoder} {cnFlag : Nat} {c : FibConfigFig0} (stored : Stores d s cnFlag c) :
    Steps figs s (s.setConfig cnFlag c).retriggerTimerDataLoaded := (stepsOne here (.stores stored)).trans (stepsOne here .retriggers)

theorem storeCurrSteps (here : d ∈ figs) {s : FibDecoder} {c : FibConfigFig0} (stored : Stores d s 0 c) :
    Steps figs s ({ s with fig0Curr := c } : FibDecoder).retriggerTimerDataLoaded := storeSteps here stored

theorem labelSteps (here : d ∈ figs) {s : FibDecoder} {c : FibConfigFig1} (stored : Labels s.fig1 c) :
    Steps figs s ({ s with fig1 := c } : FibDecoder).retriggerTimerDataLoaded :=
  (stepsOne here (.labels stored)).trans (stepsOne here .retriggers)

theorem foldRelated {τ : Type} (refl : ∀ s, R s s) (trans : ∀ {s t u}, R s t → R t u → R s u)
    {f : FibDecoder → τ → FibDecoder} (each : ∀ s x, R s (f s x)) (xs : List τ) (s : FibDecoder) : R s (xs.foldl f s) := by
  induction xs generalizing s with
  | nil => exact refl s
  | cons x xs ih => exact trans (each s x) (ih (f s x))

theorem fig0s18Related (refl : ∀ s, R s s) (trans : ∀ {s t u}, R s t → R t u → R s u)
    (one : ∀ s cnFlag clusterId sId asuFlags, R s (setCluster s cnFlag clusterId sId asuFlags)) (s : FibDecoder) :
    R s (processFig0s18 s d) := by
  have loop : ∀ (fh : FigHeader) (fuel : Nat) (s : FibDecoder) (offset : Nat), R s (fig0s18Loop d fh fuel s offset) := by
    intro fh fuel
    induction fuel with
    | zero => exact fun s _ => refl s
    | succ fuel ih =>
      intro s offset
      unfold fig0s18Loop
      split
      · refine trans (foldRelated refl trans (fun t i => ?_) _ s) (ih _ _)
        dsimp only
        split
        · exact refl t
        · exact one t _ _ _ _
      · exact refl s
  exact loop _ _ _ _

theorem fig0s19Related (refl : ∀ s, R s s) (trans : ∀ {s t u}, R s t → R t u → R s u)
    (one : ∀ s cnFlag clusterId aswFlags subChId, 4 ≤ s.fibLoadingState.rank →
      R s (switchAnnouncement s cnFlag clusterId aswFlags subChId)) (s : FibDecoder) : R s (processFig0s19 s d) := by
  have loop : ∀ (fh : FigHeader) (fuel : Nat) (s : FibDecoder) (offset : Nat), R s (fig0s19Loop d fh fuel s offset) := by
    intro fh fuel
    induction fuel with
    | zero => exact fun s _ => refl s
    | succ fuel ih =>
      intro s offset
      unfold fig0s19Loop
      split
      · split
        · exact refl s
        · rename_i loaded
          exact trans (one s _ _ _ _ (not_lt.mp loaded)) (ih _ _)
      · exact refl s
  exact loop _ _ _ _

theorem getSet (s : FibDecoder) (cnFlag : Nat) (c : FibConfigFig0) : (s.setConfig cnFlag c).getConfig cnFlag = c := by
  unfold setConfig getConfig
  split <;> rfl

theorem getSetOther (s : FibDecoder) (c : FibConfigFig0) {cnFlag other : Nat} (apart : ¬ (cnFlag = 0 ↔ other = 0)) :
    (s.setConfig cnFlag c).getConfig other = s.getConfig other := by
  by_cases current : cnFlag = 0
  · have next : other ≠ 0 := fun also => apart ⟨fun _ => also,fun _ => current⟩
    unfold setConfig getConfig
    rw [if_pos current,if_neg next,if_neg next]
  · have here : other = 0 := not_not.mp (fun also => apart ⟨fun now => absurd now current,fun now => absurd now also⟩)
    unfold setConfig getConfig
    rw [if_neg current,if_pos here,if_pos here]

theorem storesFlag {s : FibDecoder} (cnFlag : Nat) (c : FibConfigFig0) :
    (s.setConfig cnFlag c).restartFibDecoding = s.restartFibDecoding := by
  unfold setConfig
  split <;> rfl

structure SameStores (s t : FibDecoder) : Prop where
  curr : t.fig0Curr = s.fig0Curr
  next : t.fig0Next = s.fig0Next
  fig1 : t.fig1 = s.fig1

structure Aside (s t : FibDecoder) : Prop where
  stores : SameStores s t
  flag : t.restartFibDecoding = s.restartFibDecoding
  signals : ∃ more, t.signals = s.signals ++ more

theorem asideSilent (stores : SameStores s t) (flag : t.restartFibDecoding = s.restartFibDecoding)
    (signals : t.signals = s.signals) : Aside s t := ⟨stores,flag,[],by rw [signals,append_nil]⟩

section
variable (s : FibDecoder)

theorem asideRefl : Aside s s := asideSilent ⟨rfl,rfl,rfl⟩ rfl rfl

theorem dateAndTimeAside : Aside s (processFig0s10 s d) := by
  unfold processFig0s10
  dsimp only
  split
  · exact asideSilent ⟨rfl,rfl,rfl⟩ rfl rfl
  · exact ⟨⟨rfl,rfl,rfl⟩,rfl,_,rfl⟩

theorem ewsInformationAside : Aside s (processFig0s15 s d) := by
  unfold processFig0s15
  split
  · exact asideRefl s
  · exact ⟨⟨rfl,rfl,rfl⟩,rfl,_,rfl⟩

theorem retriggerAside : Aside s s.retriggerTimerDataLoaded := by
  unfold retriggerTimerDataLoaded
  split
  · exact ⟨⟨rfl,rfl,rfl⟩,rfl,_,rfl⟩
  · exact asideRefl s

theorem fastAudioAside : Aside s s.processFastAudioSelection := by
  unfold processFastAudioSelection
  split
  · exact asideRefl s
  · split
    · exact asideRefl s
    · dsimp only
      split
      · exact ⟨⟨rfl,rfl,rfl⟩,rfl,_,rfl⟩
      · exact asideSilent ⟨rfl,rfl,rfl⟩ rfl rfl

theorem retriggerStores : SameStores s s.retriggerTimerDataLoaded := (retriggerAside s).stores

theorem retriggerFlag : s.retriggerTimerDataLoaded.restartFibDecoding = s.restartFibDecoding := (retriggerAside s).flag

variable (cnFlag : Nat)

theorem retriggerConfig : s.retriggerTimerDataLoaded.getConfig cnFlag = s.getConfig cnFlag := by
  obtain ⟨curr,next,-⟩ := retriggerStores s
  unfold getConfig
  rw [curr,next]

theorem announceExact (signal : List Nat → Signal) (sIds : List Nat) (s : FibDecoder) : announce s signal sIds =
    { s with signals := s.signals ++ sIds.map (fun sId => signal (s.fig1.getServiceLabelOfSId sId)) } := by
  unfold announce
  induction sIds generalizing s with
  | nil => simp
  | cons sId sIds ih =>
    rw [foldl_cons,ih]
    unfold emit
    simp

def lookedUp (table : List Cluster) (clusterId : Int) : Cluster := (getCluster table clusterId).1.getD (getCluster table clusterId).2 {}

def updated (table : List Cluster) (clusterId : Int) (f : Cluster → Cluster) : List Cluster :=
  (getCluster table clusterId).1.set (getCluster table clusterId).2 (f (lookedUp table clusterId))

def joins (sId asuFlags : Nat) (c : Cluster) : Cluster :=
  { c with flags := asuFlags
           servicesSIDs := if sId ∈ c.servicesSIDs then c.servicesSIDs else c.servicesSIDs ++ [sId] }

def counts (aswFlags : Nat) (c : Cluster) : Cluster :=
  if c.flags &&& aswFlags ≠ 0 then { c with announcing := c.announcing + 1 } else { c with announcing := 0 }

inductive TableStep (table : List Cluster) : List Cluster → Prop where
  | joins (clusterId : Int) (sId asuFlags : Nat) : TableStep table (updated table clusterId (joins sId asuFlags))
  | counts (clusterId : Int) (aswFlags : Nat) : TableStep table (updated table clusterId (counts aswFlags))

structure Announced where
  clusterId : Int
  sId : Nat
  started : Bool
  deriving DecidableEq, Repr

def switchAnnounces (cluster : Cluster) (clusterId : Int) (aswFlags : Nat) : List Announced :=
  if cluster.flags &&& aswFlags ≠ 0 then
    if cluster.announcing + 1 = 5 then cluster.servicesSIDs.map (fun sId => ⟨clusterId,sId,true⟩) else []
  else if cluster.announcing > 0 then cluster.servicesSIDs.map (fun sId => ⟨clusterId,sId,false⟩) else []

def announcement (c : FibConfigFig1) (subChId : Nat) (a : Announced) : Signal :=
  if a.started then .startAnnouncement (c.getServiceLabelOfSId a.sId) subChId
  else .stopAnnouncement (c.getServiceLabelOfSId a.sId) subChId

theorem setGetD {α : Type} (l : List α) (i : Nat) (default : α) : l.set i (l.getD i default) = l := by
  by_cases inside : i < l.length
  · rw [getD_eq_getElem l default inside,set_getElem_self]
  · exact set_eq_of_length_le (not_lt.mp inside)

theorem setClusterExact (clusterId : Int) (sId asuFlags : Nat) :
    setCluster s cnFlag clusterId sId asuFlags = if s.fibLoadingState.rank < 4 then s else s.setConfig cnFlag { s.getConfig cnFlag with
        clusterTable := updated (s.getConfig cnFlag).clusterTable clusterId (joins sId asuFlags) } := by
  unfold setCluster updated joins lookedUp
  dsimp only
  split
  · rfl
  · split <;> rfl

theorem announcedSignals (c : FibConfigFig0) (signal : List Nat → Signal) (sIds : List Nat) :
    announce (s.setConfig cnFlag c) signal sIds = { s.setConfig cnFlag c with
      signals := s.signals ++ sIds.map (fun sId => signal (s.fig1.getServiceLabelOfSId sId)) } := by
  rw [announceExact]
  unfold setConfig
  split <;> rfl

theorem setConfigSignals (c : FibConfigFig0) : s.setConfig cnFlag c = { s.setConfig cnFlag c with signals := s.signals ++ [] } := by
  rw [append_nil]
  unfold setConfig
  split <;> rfl

theorem silentCluster {c : Cluster} (off : ¬ c.announcing > 0) : { c with announcing := 0 } = c := by rw [← Nat.eq_zero_of_not_pos off]

theorem switchAnnouncementExact (clusterId : Int) (aswFlags subChId : Nat) : switchAnnouncement s cnFlag clusterId aswFlags subChId =
      { s.setConfig cnFlag { s.getConfig cnFlag with
          clusterTable := updated (s.getConfig cnFlag).clusterTable clusterId (counts aswFlags) } with
        signals := s.signals ++ (switchAnnounces (lookedUp (s.getConfig cnFlag).clusterTable clusterId) clusterId aswFlags).map
          (announcement s.fig1 subChId) } := by
  unfold switchAnnouncement updated counts switchAnnounces lookedUp
  dsimp only
  generalize getCluster (s.getConfig cnFlag).clusterTable clusterId = found
  split
  · split
    · rw [announcedSignals,map_map]
      rfl
    · exact setConfigSignals s _ _
  · split
    · rw [announcedSignals,map_map]
      rfl
    · rename_i off
      rw [silentCluster off,setGetD]
      exact setConfigSignals s _ _

end

theorem microFlag (micro : Micro d s t) : t.restartFibDecoding = s.restartFibDecoding := by
  cases micro with
  | stores => exact storesFlag _ _
  | labels | ensembleLabel => rfl
  | ensembleInformation =>
    unfold processFig0s0
    dsimp only
    split <;> rfl
  | dateAndTime => exact (dateAndTimeAside s).flag
  | ewsInformation => exact (ewsInformationAside s).flag
  | setsCluster =>
    rw [setClusterExact]
    split
    · rfl
    · exact storesFlag _ _
  | switches =>
    rw [switchAnnouncementExact]
    exact storesFlag _ _
  | retriggers => exact retriggerFlag s
  | fastAudio => exact (fastAudioAside s).flag

theorem fig0Selects (s : FibDecoder) : SameStores (processFig0Extension s d (getBits5 d 11)) (processFig0 s d) ∧
    (processFig0 s d).restartFibDecoding = (processFig0Extension s d (getBits5 d 11)).restartFibDecoding := by
  unfold processFig0
  dsimp only
  generalize processFig0Extension s d (getBits5 d 11) = t
  split
  · exact ⟨(fastAudioAside t).stores,(fastAudioAside t).flag⟩
  · exact ⟨⟨rfl,rfl,rfl⟩,rfl⟩

theorem stepsFlag (steps : Steps figs s t) : t.restartFibDecoding = s.restartFibDecoding := by
  induction steps with
  | refl => rfl
  | tail _ last ih =>
    obtain ⟨d,_,micro⟩ := last
    exact (microFlag micro).trans ih

theorem passedCalm (passed : Passed figs s t) (going : t.restartFibDecoding = false) : Steps figs s t := by
  cases passed with
  | calm steps => exact steps
  | restarted => cases going

theorem passedRestarted (passed : Passed figs s t) (going : s.restartFibDecoding = false)
    (restarts : t.restartFibDecoding = true) : ∃ last, Steps figs s last ∧ t = last.restart := by
  cases passed with
  | calm steps => exact absurd (restarts.symm.trans ((stepsFlag steps).trans going)) (by decide)
  | restarted steps => exact ⟨_,steps,rfl⟩

theorem Steps.passed {s t u : FibDecoder} (first : Steps figs s t) (second : Passed figs t u) : Passed figs s u := by
  cases second with
  | calm steps => exact .calm (first.trans steps)
  | restarted steps => exact .restarted (first.trans steps)

theorem roundsPassed {fn : FibProc} {fh : FigHeader} (each : ∀ s used, Passed figs s (fn s d used fh).1)
    (fuel : Nat) (s : FibDecoder) (used : Nat) : Passed figs s (fig0Rounds fn d fh fuel s used) := by
  induction fuel generalizing s used with
  | zero => exact .calm (stepsRefl s)
  | succ fuel ih =>
    unfold fig0Rounds
    split
    · dsimp only
      split
      · exact each s used
      · rename_i going
        have calm := passedCalm (each s used) (Bool.not_eq_true _ ▸ going)
        exact calm.passed (ih _ _)
    · exact .calm (stepsRefl s)

theorem loopPassed {fn : FibProc} (each : ∀ s used fh, Steps figs s (fn s d used fh).1) (s : FibDecoder) :
    Passed figs s (processFig0Loop fn s d) := roundsPassed (fun s used => .calm (each s used _)) _ s _

theorem userAppsForward (d : Bits) (pdFlag : Nat) (is : List Nat) (acc : List UserApp × Nat) :
    acc.2 ≤ (is.foldl (readUserApp d pdFlag) acc).2 := by
  induction is generalizing acc with
  | nil => exact le_refl _
  | cons i is ih => exact (Nat.le_add_right acc.2 (16 + 8 * getBits5 d (acc.2 + 11))).trans (ih (readUserApp d pdFlag acc i))

end Sequences

theorem fig0s2ComponentSId (d : Bits) (cnFlag bitOffset : Nat) (acc : FibDecoder × Fig0s2) (i : Nat) :
    (fig0s2Component d cnFlag bitOffset acc i).2.sId = acc.2.sId := by
  unfold fig0s2Component
  dsimp only
  split <;> rfl

theorem serviceLt (d : Bits) (offset pdFlag : Nat) : getLBits d offset (if pdFlag = 1 then 32 else 16) < 2 ^ 32 := by
  split
  · exact getBitsLt d offset 32
  · exact (getBitsLt d offset 16).trans (by decide)

section Entries
variable {figs : List Bits} {d : Bits} (here : d ∈ figs)
include here

variable (s : FibDecoder) (used : Nat) (fh : FigHeader)

theorem fig0s1Passed : Passed figs s (subprocessFig0s1 s d used fh).1 := by
  unfold subprocessFig0s1
  split
  · exact .calm (stepsRefl s)
  · rename_i unknown
    dsimp only
    split
    · exact .restarted (stepsRefl s)
    · rename_i fits
      split
      · exact .restarted (stepsRefl s)
      · rename_i free
        exact .calm (storeSteps here (.fig0s1 (used * 8) unknown (not_lt.mp fits) free))

theorem fig0s2ComponentSteps (cnFlag bitOffset : Nat) {acc : FibDecoder × Fig0s2} {i : Nat} (service : acc.2.sId < 2 ^ 32)
    (index : i < 16) : Steps figs acc.1 (fig0s2Component d cnFlag bitOffset acc i).1 := by
  unfold fig0s2Component
  dsimp only
  split
  · exact stepsRefl _
  · rename_i unknown
    exact storeSteps here (.fig0s2 _ service ⟨i,index,rfl⟩ unknown)

theorem fig0s2ComponentsSteps (cnFlag bitOffset : Nat) {is : List Nat} (acc : FibDecoder × Fig0s2)
    (service : acc.2.sId < 2 ^ 32) (index : ∀ i ∈ is, i < 16) : Steps figs acc.1 (is.foldl (fig0s2Component d cnFlag bitOffset) acc).1 := by
  induction is generalizing acc with
  | nil => exact stepsRefl acc.1
  | cons i is ih =>
    rw [forall_mem_cons] at index
    refine (fig0s2ComponentSteps here cnFlag bitOffset service index.1).trans (ih _ ?_ index.2)
    rw [fig0s2ComponentSId]
    exact service

theorem fig0s2Steps : Steps figs s (subprocessFig0s2 s d used fh).1 := by
  have index : ∀ i ∈ range (getBits4 d (8 * used + (if fh.pdFlag = 1 then 32 else 16) + 4)), i < 16 :=
    fun i member => (mem_range.mp member).trans (getBitsLt d _ 4)
  exact fig0s2ComponentsSteps here fh.cnFlag _ (s, _) (serviceLt d (8 * used) fh.pdFlag) index

theorem fig0s3Steps : Steps figs s (subprocessFig0s3 s d used fh).1 := by
  unfold subprocessFig0s3
  dsimp only
  split
  · exact stepsRefl s
  · rename_i unknown
    have component := getBitsLt d (used * 8) 12
    split <;> exact storeSteps here (.fig0s3 _ ⟨_,component,rfl⟩ unknown)

theorem fig0s5Steps : Steps figs s (subprocessFig0s5 s d used fh).1 := by
  unfold subprocessFig0s5
  dsimp only
  split <;> split
  · exact stepsRefl s
  · rename_i unknown
    exact storeCurrSteps here (.fig0s5Short _ _ (getBitsLt d _ 6) rfl unknown)
  · exact stepsRefl s
  · rename_i unknown
    exact storeCurrSteps here (.fig0s5Long _ _ rfl unknown)

theorem fig0s8Steps : Steps figs s (subprocessFig0s8 s d used fh).1 := by
  have service := serviceLt d (used * 8) fh.pdFlag
  unfold subprocessFig0s8
  dsimp only
  generalize (if fh.pdFlag = 1 then 32 else 16) = width at service
  have component := getBitsLt d (used * 8 + width + 4) 4
  split
  · exact stepsRefl s
  · rename_i unknown
    split <;> exact storeSteps here (.fig0s8 _ service ⟨_,component,rfl⟩ unknown)

theorem fig0s13Steps (typed : getBits3 d 0 = 0) (extension : getBits5 d 11 = 13) (s : FibDecoder) (used : Nat) :
    Steps figs s (subprocessFig0s13 s d used (getFigHeader d)).1 := by
  generalize same : getFigHeader d = fh
  have wide : 16 ≤ if fh.pdFlag = 1 then 32 else 16 := by split <;> decide
  have service := serviceLt d (used * 8) fh.pdFlag
  unfold subprocessFig0s13
  dsimp only
  generalize (if fh.pdFlag = 1 then 32 else 16) = width at wide service
  split
  · exact stepsRefl s
  · rename_i unknown
    refine storeSteps here (.fig0s13 _ service ⟨_,getBitsLt d _ 4,rfl⟩ ?_ (fun next => ⟨typed,extension,by rw [← same] at next; exact next⟩) unknown)
    have forward := userAppsForward d fh.pdFlag (range (min (getBits4 d (used * 8 + width + 4)) 6))
      ([], used * 8 + width + 8)
    show 24 ≤ _ - used * 8
    dsimp only at forward
    omega

theorem fig0s14Steps : Steps figs s (subprocessFig0s14 s d used fh).1 := by
  unfold subprocessFig0s14
  dsimp only
  split
  · exact stepsRefl s
  · rename_i unknown
    exact storeSteps here (.fig0s14 _ ⟨_,getBitsLt d _ 6,rfl⟩ unknown)

end Entries

section Figs
variable {figs : List Bits} {d : Bits}

def fig0s17Entry (s : FibDecoder) (d : Bits) (offset : Nat) : FibDecoder :=
  match s.fig0Curr.getFig0s17OfSId (getBits d offset 16) with
  | some _ => s
  | none =>
    let fig0s17 : Fig0s17 := ⟨getBits d offset 16,getBits1 d (offset + 16),getBits5 d (offset + 27)⟩
    { s with fig0Curr := { s.fig0Curr with fig0s17Vec := s.fig0Curr.fig0s17Vec ++ [fig0s17] } }.retriggerTimerDataLoaded

theorem fig0s17Round (length fuel : Nat) (s : FibDecoder) (offset : Nat) : fig0s17Loop d length (fuel + 1) s offset =
    if offset < length * 8 then fig0s17Loop d length fuel (fig0s17Entry s d offset) (offset + 32) else s := rfl

section Handlers
variable (here : d ∈ figs)
include here

section
variable (s : FibDecoder)

theorem fig0s7Steps : Steps figs s (processFig0s7 s d) := by
  unfold processFig0s7
  dsimp only
  split
  · exact stepsRefl s
  · rename_i unknown
    exact storeSteps here (.fig0s7 _ unknown)

theorem fig0s9Steps : Steps figs s (processFig0s9 s d) := by
  unfold processFig0s9
  split
  · exact stepsRefl s
  · rename_i unknown
    exact storeCurrSteps here (.fig0s9 _ rfl unknown)

theorem fig0s17EntrySteps (offset : Nat) : Steps figs s (fig0s17Entry s d offset) := by
  unfold fig0s17Entry
  split
  · exact stepsRefl s
  · rename_i unknown
    exact storeCurrSteps here (.fig0s17 ⟨getBits d offset 16,_,_⟩ (getBitsLt d _ 16) rfl unknown)

theorem fig0s17LoopSteps (length fuel : Nat) (s : FibDecoder) (offset : Nat) : Steps figs s (fig0s17Loop d length fuel s offset) := by
  induction fuel generalizing s offset with
  | zero => exact stepsRefl s
  | succ fuel ih =>
    rw [fig0s17Round]
    split
    · exact (fig0s17EntrySteps here s offset).trans (ih _ _)
    · exact stepsRefl s

theorem fig0s17Steps : Steps figs s (processFig0s17 s d) := fig0s17LoopSteps here _ _ s _

theorem fig0s18Steps : Steps figs s (processFig0s18 s d) :=
  fig0s18Related stepsRefl Steps.trans (fun _ _ _ _ _ => stepsOne here (.setsCluster _ _ _ _)) s

theorem fig0s19Steps : Steps figs s (processFig0s19 s d) :=
  fig0s19Related stepsRefl Steps.trans (fun _ _ _ _ _ loaded => stepsOne here (.switches _ _ _ _ loaded)) s

end

theorem extensionPassed (typed : getBits3 d 0 = 0) (s : FibDecoder) : Passed figs s (processFig0Extension s d (getBits5 d 11)) := by
  unfold processFig0Extension
  split
  · exact .calm (stepsOne here .ensembleInformation)
  · exact roundsPassed (fun s used => fig0s1Passed here s used _) _ _ _
  · exact loopPassed (fig0s2Steps here) s
  · exact loopPassed (fig0s3Steps here) s
  · exact loopPassed (fig0s5Steps here) s
  · exact .calm (fig0s7Steps here s)
  · exact loopPassed (fig0s8Steps here) s
  · exact .calm (fig0s9Steps here s)
  · exact .calm (stepsOne here .dateAndTime)
  · rename_i extension
    exact roundsPassed (fun s used => .calm (fig0s13Steps here typed extension s used)) _ _ _
  · exact loopPassed (fig0s14Steps here) s
  · exact .calm (stepsOne here .ewsInformation)
  · exact .calm (fig0s17Steps here s)
  · exact .calm (fig0s18Steps here s)
  · exact .calm (fig0s19Steps here s)
  · exact .calm (stepsRefl s)

theorem fig0Passed (typed : getBits3 d 0 = 0) (s : FibDecoder) : Passed figs s (processFig0 s d) := by
  have passed := extensionPassed here typed s
  unfold processFig0
  dsimp only
  split
  · rename_i going
    have calm := passedCalm passed (Bool.not_eq_true _ ▸ going.1)
    exact .calm (calm.trans (stepsOne here .fastAudio))
  · exact passed

variable (toQString : Nat → List Nat → List Nat)

theorem fig1Steps (s : FibDecoder) : Steps figs s (processFig1 toQString s d) := by
  unfold processFig1
  split
  · unfold processFig1s0
    split
    · exact stepsRefl s
    · split
      · exact stepsRefl s
      · rename_i first
        exact stepsOne here (.ensembleLabel ⟨_,_⟩ first)
  · unfold processFig1s1
    dsimp only
    split
    · exact stepsRefl s
    · split
      · exact stepsRefl s
      · rename_i unknown
        exact labelSteps here (.fig1s1 ⟨_,_⟩ unknown)
  · unfold processFig1s4
    dsimp only
    split
    · exact stepsRefl s
    · rename_i unknown
      split
      · exact stepsRefl s
      · exact labelSteps here (.fig1s4 ⟨_,_,_,_⟩ unknown)
  · unfold processFig1s5
    dsimp only
    split
    · exact stepsRefl s
    · rename_i unknown
      split
      · exact stepsRefl s
      · exact labelSteps here (.fig1s5 ⟨_,_⟩ unknown)
  · exact stepsRefl s

theorem figPassed (s : FibDecoder) : Passed figs s (processFig toQString s d) := by
  unfold processFig
  split
  · rename_i typed
    exact fig0Passed here typed s
  · exact .calm (fig1Steps here toQString s)
  · exact .calm (stepsRefl s)

end Handlers

theorem fibRoundsPassed (toQString : Nat → List Nat → List Nat) (fib : Bits) (fuel : Nat) (s : FibDecoder) (processedBytes : Nat)
    (inside : ∀ d ∈ figsFrom fib fuel processedBytes, d ∈ figs) : Passed figs s (fibRounds toQString fib fuel s processedBytes) := by
  induction fuel generalizing s processedBytes with
  | zero => exact .calm (stepsRefl s)
  | succ fuel ih =>
    unfold fibRounds
    unfold figsFrom at inside
    by_cases within : processedBytes < 30
    · rw [if_pos within] at inside ⊢
      dsimp only at inside ⊢
      split
      · exact .calm (stepsRefl s)
      · rename_i more
        rw [if_neg more,forall_mem_cons] at inside
        split
        · exact figPassed inside.1 toQString s
        · rename_i going
          have calm := passedCalm (figPassed inside.1 toQString s) (Bool.not_eq_true _ ▸ going)
          exact calm.passed (ih _ _ inside.2)
    · rw [if_neg within]
      exact .calm (stepsRefl s)

theorem fibPassed (toQString : Nat → List Nat → List Nat) (s : FibDecoder) (fib : Bits) :
    Passed (figsOf fib) { s with restartFibDecoding := false } (processFib toQString s fib) :=
  fibRoundsPassed toQString fib 30 _ 0 (fun _ member => member)

end Figs

section Invariants
variable {s : FibDecoder}

/- A property of a configuration that no step takes away: the swap hands over a
configuration as it is, everything else clears one or adds to it. -/
structure Invariant (allowed : Bits → Prop) (P : FibConfigFig0 → Prop) : Prop where
  initial : P {}
  cleared : ∀ {c : FibConfigFig0}, P c → P c.reset
  clusters : ∀ {c : FibConfigFig0} {table : List Cluster}, TableStep c.clusterTable table → P c →
    P { c with clusterTable := table }
  stored : ∀ {d s cnFlag c}, allowed d → Stores d s cnFlag c → P (s.getConfig cnFlag) → P c

def BothConfigs (P : FibConfigFig0 → Prop) (s : FibDecoder) : Prop := P s.fig0Curr ∧ P s.fig0Next

variable {allowed : Bits → Prop} {P : FibConfigFig0 → Prop}

theorem bothConfigsGet (both : BothConfigs P s) (cnFlag : Nat) : P (s.getConfig cnFlag) := by
  unfold getConfig
  split
  · exact both.1
  · exact both.2

theorem bothConfigsSet (both : BothConfigs P s) (cnFlag : Nat) {c : FibConfigFig0} (new : P c) : BothConfigs P (s.setConfig cnFlag c) := by
  unfold setConfig
  split
  · exact ⟨new,both.2⟩
  · exact ⟨both.1,new⟩

theorem bothConfigsSame {s t : FibDecoder} (same : SameStores s t) (both : BothConfigs P s) : BothConfigs P t := by
  unfold BothConfigs
  rwa [same.curr,same.next]

theorem bothConfigsCleared (inv : Invariant allowed P) (both : BothConfigs P s) :
    BothConfigs P s.resetStores := ⟨inv.cleared both.1,inv.cleared both.2⟩

theorem microKeeps (inv : Invariant allowed P) {d : Bits} (ok : allowed d) {s t : FibDecoder} (micro : Micro d s t)
    (both : BothConfigs P s) : BothConfigs P t := by
  cases micro with
  | stores stored => exact bothConfigsSet both _ (inv.stored ok stored (bothConfigsGet both _))
  | labels | ensembleLabel => exact both
  | ensembleInformation =>
    unfold processFig0s0
    dsimp only
    split
    · exact ⟨both.2,inv.cleared both.1⟩
    · exact both
  | dateAndTime => exact bothConfigsSame (dateAndTimeAside s).stores both
  | ewsInformation => exact bothConfigsSame (ewsInformationAside s).stores both
  | setsCluster =>
    rw [setClusterExact]
    split
    · exact both
    · exact bothConfigsSet both _ (inv.clusters (.joins _ _ _) (bothConfigsGet both _))
  | switches =>
    rw [switchAnnouncementExact]
    exact bothConfigsSet both _ (inv.clusters (.counts _ _) (bothConfigsGet both _))
  | retriggers => exact bothConfigsSame (retriggerStores s) both
  | fastAudio => exact bothConfigsSame (fastAudioAside s).stores both

theorem passedKeeps (inv : Invariant allowed P) {figs : List Bits} (ok : ∀ d ∈ figs, allowed d) {s t : FibDecoder}
    (passed : Passed figs s t) (both : BothConfigs P s) : BothConfigs P t := by
  cases passed with
  | calm steps => exact stepsKeep (fun here micro before => microKeeps inv (ok _ here) micro before) steps both
  | restarted steps =>
    exact bothConfigsCleared inv (stepsKeep (fun here micro before => microKeeps inv (ok _ here) micro before) steps both)

theorem timersConfigs (s : FibDecoder) : (s.slotTimerDataConsistencyCheck.fig0Curr = s.fig0Curr ∧
    s.slotTimerDataConsistencyCheck.fig0Next = s.fig0Next) ∧
    s.slotTimerCheckStateAndPrintFigs.fig0Curr = s.fig0Curr ∧ s.slotTimerCheckStateAndPrintFigs.fig0Next = s.fig0Next := by
  constructor
  · unfold slotTimerDataConsistencyCheck
    dsimp only
    split
    · split <;> split <;> exact ⟨rfl,rfl⟩
    · split <;> exact ⟨rfl,rfl⟩
  · unfold slotTimerCheckStateAndPrintFigs
    dsimp only
    split <;> split <;> exact ⟨rfl,rfl⟩

def AllFigs (allowed : Bits → Prop) (events : List Event) : Prop := ∀ bits, .fib bits ∈ events → ∀ d ∈ figsOf bits, allowed d

theorem stepKeeps (inv : Invariant allowed P) (toQString : Nat → List Nat → List Nat) {event : Event}
    (ok : AllFigs allowed [event]) (both : BothConfigs P s) : BothConfigs P (step toQString s event) := by
  cases event with
  | fib bits => exact passedKeeps inv (ok bits mem_cons_self) (fibPassed toQString s bits) both
  | connectChannel | disconnectChannel => exact bothConfigsCleared inv both
  | setSIdForFastAudioSelection sId =>
    show BothConfigs P (s.setSIdForFastAudioSelection sId)
    unfold setSIdForFastAudioSelection
    split <;> exact both
  | timerDataConsistencyCheck =>
    show P s.slotTimerDataConsistencyCheck.fig0Curr ∧ P s.slotTimerDataConsistencyCheck.fig0Next
    rw [(timersConfigs s).1.1,(timersConfigs s).1.2]
    exact both
  | timerCheckStateAndPrintFigs =>
    show P s.slotTimerCheckStateAndPrintFigs.fig0Curr ∧ P s.slotTimerCheckStateAndPrintFigs.fig0Next
    rw [(timersConfigs s).2.1,(timersConfigs s).2.2]
    exact both

theorem runKeeps (inv : Invariant allowed P) (toQString : Nat → List Nat → List Nat) {events : List Event}
    (ok : AllFigs allowed events) (both : BothConfigs P s) : BothConfigs P (run toQString s events) := by
  induction events generalizing s with
  | nil => exact both
  | cons event events ih =>
    refine ih (fun bits member => ok bits (mem_cons_of_mem _ member)) (stepKeeps inv toQString ?_ both)
    exact fun bits member => ok bits (mem_singleton.mp member ▸ mem_cons_self)

theorem startKeeps (inv : Invariant allowed P) (toQString : Nat → List Nat → List Nat) {events : List Event}
    (ok : AllFigs allowed events) : BothConfigs P (run toQString {} events) := runKeeps inv toQString ok ⟨inv.initial,inv.initial⟩

end Invariants

end DabStar.Fib.FibDecoder
