import DabStar.Announcements

/-! Tuning to another channel. A decoder goes on after a reset as a new one does from the same
stores; the reset leaves nothing in them but the announcement clusters. -/
namespace DabStar.Fib.FibDecoder
open List

def behind (old : List Signal) (s : FibDecoder) : FibDecoder := { s with signals := old ++ s.signals }

section Handlers
variable (old : List Signal) (s : FibDecoder)

@[simp] theorem behindFig0Curr : (behind old s).fig0Curr = s.fig0Curr := rfl
@[simp] theorem behindFig1 : (behind old s).fig1 = s.fig1 := rfl
@[simp] theorem behindState : (behind old s).fibLoadingState = s.fibLoadingState := rfl
@[simp] theorem behindPending : (behind old s).sIdForFastAudioSelection = s.sIdForFastAudioSelection := rfl
@[simp] theorem behindFlag : (behind old s).restartFibDecoding = s.restartFibDecoding := rfl
@[simp] theorem behindGetConfig (cnFlag : Nat) : (behind old s).getConfig cnFlag = s.getConfig cnFlag := rfl

@[simp] theorem behindSetConfig (cnFlag : Nat) (c : FibConfigFig0) :
    (behind old s).setConfig cnFlag c = behind old (s.setConfig cnFlag c) := by
  unfold setConfig
  split <;> rfl

@[simp] theorem behindEmit (signal : Signal) : (behind old s).emit signal = behind old (s.emit signal) := by
  unfold emit behind
  rw [append_assoc]

@[simp] theorem behindRetrigger : (behind old s).retriggerTimerDataLoaded = behind old s.retriggerTimerDataLoaded := by
  unfold retriggerTimerDataLoaded
  rw [behindState]
  split
  · exact behindEmit old { s with fibLoadingState := .s5DeferredDataLoaded } _
  · rfl

@[simp] theorem behindRestart : (behind old s).restart = behind old s.restart := rfl

theorem behindFastAudio : (behind old s).processFastAudioSelection = behind old s.processFastAudioSelection := by
  unfold processFastAudioSelection
  rw [behindFig0Curr,behindPending]
  split
  · rfl
  · split
    · rfl
    · dsimp only
      rw [behindState]
      split
      · exact behindEmit old { s with sIdForFastAudioSelection := 0, fibLoadingState := .s1FastAudioDataLoaded } _
      · rfl

def Blind (f : FibDecoder → FibDecoder) : Prop := ∀ old s, f (behind old s) = behind old (f s)

def BlindEntry (f : FibDecoder → FibDecoder × Nat) : Prop := ∀ old s, f (behind old s) = (behind old (f s).1, (f s).2)

variable (d : Bits) (used : Nat) (fh : FigHeader)

theorem fig0s1Blind : BlindEntry (fun s => subprocessFig0s1 s d used fh) := by
  intro old s
  unfold subprocessFig0s1
  simp only [behindGetConfig,behindSetConfig,behindRetrigger,behindRestart]
  split
  · rfl
  · split
    · rfl
    · split <;> rfl

theorem fig0s3Blind : BlindEntry (fun s => subprocessFig0s3 s d used fh) := by
  intro old s
  unfold subprocessFig0s3
  simp only [behindGetConfig,behindSetConfig,behindRetrigger]
  split <;> rfl

theorem fig0s5Blind : BlindEntry (fun s => subprocessFig0s5 s d used fh) := by
  intro old s
  have store : ∀ c : FibConfigFig0, ({ behind old s with fig0Curr := c } : FibDecoder).retriggerTimerDataLoaded =
      behind old ({ s with fig0Curr := c } : FibDecoder).retriggerTimerDataLoaded :=
    fun c => behindRetrigger old { s with fig0Curr := c }
  unfold subprocessFig0s5
  simp only [behindFig0Curr,store]
  split <;> split <;> rfl

theorem fig0s8Blind : BlindEntry (fun s => subprocessFig0s8 s d used fh) := by
  intro old s
  unfold subprocessFig0s8
  simp only [behindGetConfig,behindSetConfig,behindRetrigger]
  generalize (s.getConfig fh.cnFlag).getFig0s8OfSIdSCIdS _ _ = known
  cases known <;> rfl

theorem fig0s13Blind : BlindEntry (fun s => subprocessFig0s13 s d used fh) := by
  intro old s
  unfold subprocessFig0s13
  simp only [behindFig0Curr,behindGetConfig,behindSetConfig,behindRetrigger]
  generalize s.fig0Curr.getFig0s13OfSIdSCIdS _ _ = known
  cases known <;> rfl

theorem fig0s14Blind : BlindEntry (fun s => subprocessFig0s14 s d used fh) := by
  intro old s
  unfold subprocessFig0s14
  simp only [behindGetConfig,behindSetConfig,behindRetrigger]
  split <;> rfl

theorem fig0s2Blind : BlindEntry (fun s => subprocessFig0s2 s d used fh) := by
  have one : ∀ (cnFlag bitOffset : Nat) (old : List Signal) (acc : FibDecoder × Fig0s2) (i : Nat),
      fig0s2Component d cnFlag bitOffset (behind old acc.1, acc.2) i =
        (behind old (fig0s2Component d cnFlag bitOffset acc i).1, (fig0s2Component d cnFlag bitOffset acc i).2) := by
    intro cnFlag bitOffset old acc i
    unfold fig0s2Component
    simp only [behindGetConfig,behindSetConfig,behindRetrigger]
    split <;> rfl
  have all : ∀ (cnFlag bitOffset : Nat) (old : List Signal) (is : List Nat) (acc : FibDecoder × Fig0s2),
      (is.foldl (fig0s2Component d cnFlag bitOffset) (behind old acc.1, acc.2)).1 =
        behind old (is.foldl (fig0s2Component d cnFlag bitOffset) acc).1 := by
    intro cnFlag bitOffset old is
    induction is with
    | nil => exact fun acc => rfl
    | cons i is ih =>
      intro acc
      rw [foldl_cons,foldl_cons,one]
      exact ih _
  intro old s
  exact congrArg (fun t : FibDecoder => (t, (subprocessFig0s2 s d used fh).2)) (all _ _ old _ (s, _))

theorem fig0s0Blind : Blind (fun s => processFig0s0 s d) := by
  intro old s
  unfold processFig0s0
  dsimp only
  rw [show (behind old s).prevChangeFlag = s.prevChangeFlag from rfl]
  split
  · unfold emit behind
    rw [append_assoc]
  · rfl

theorem fig0s7Blind : Blind (fun s => processFig0s7 s d) := by
  intro old s
  unfold processFig0s7
  simp only [behindGetConfig,behindSetConfig,behindRetrigger]
  split <;> rfl

theorem fig0s9Blind : Blind (fun s => processFig0s9 s d) := by
  intro old s
  unfold processFig0s9
  dsimp only [behindFig0Curr]
  split
  · rfl
  · exact behindRetrigger old { s with fig0Curr := _ }

theorem fig0s10Blind : Blind (fun s => processFig0s10 s d) := by
  intro old s
  unfold processFig0s10
  dsimp only [behindFig0Curr]
  split
  · rfl
  · unfold emit behind
    dsimp only
    rw [append_assoc]

theorem fig0s15Blind : Blind (fun s => processFig0s15 s d) := by
  intro old s
  unfold processFig0s15
  dsimp only
  rw [show (behind old s).ewsAvailable = s.ewsAvailable from rfl]
  split
  · rfl
  · exact behindEmit old { s with ewsAvailable := true } _

theorem fig0s17Blind : Blind (fun s => processFig0s17 s d) := by
  have one : ∀ (old : List Signal) (s : FibDecoder) (offset : Nat),
      fig0s17Entry (behind old s) d offset = behind old (fig0s17Entry s d offset) := by
    intro old s offset
    unfold fig0s17Entry
    dsimp only [behindFig0Curr]
    split
    · rfl
    · exact behindRetrigger old { s with fig0Curr := _ }
  have loop : ∀ (length fuel : Nat) (old : List Signal) (s : FibDecoder) (offset : Nat),
      fig0s17Loop d length fuel (behind old s) offset = behind old (fig0s17Loop d length fuel s offset) := by
    intro length fuel old
    induction fuel with
    | zero => exact fun s _ => rfl
    | succ fuel ih =>
      intro s offset
      rw [fig0s17Round,fig0s17Round,one]
      split
      · exact ih _ _
      · rfl
  intro old s
  exact loop _ _ old s _

theorem setClusterBlind (cnFlag : Nat) (clusterId : Int) (sId asuFlags : Nat) :
    Blind (fun s => setCluster s cnFlag clusterId sId asuFlags) := by
  intro old s
  dsimp only
  rw [setClusterExact,setClusterExact,behindState,behindSetConfig,behindGetConfig]
  split <;> rfl

theorem applyBlind (op : Op) : Blind (fun s => s.apply op) := by
  cases op with
  | join cnFlag clusterId sId asuFlags => exact setClusterBlind cnFlag clusterId sId asuFlags
  | switch cnFlag clusterId aswFlags subChId =>
    intro old s
    show switchAnnouncement (behind old s) _ _ _ _ = behind old (switchAnnouncement s _ _ _ _)
    rw [switchAnnouncementExact,switchAnnouncementExact,behindSetConfig,behindGetConfig]
    unfold behind
    dsimp only
    rw [append_assoc]

theorem opsBlind (ops : List Op) : Blind (fun s => ops.foldl apply s) := by
  induction ops with
  | nil => exact fun _ _ => rfl
  | cons op ops ih =>
    intro old s
    dsimp only
    rw [foldl_cons,foldl_cons,show (behind old s).apply op = behind old (s.apply op) from applyBlind op old s]
    exact ih old _

theorem fig0s18Blind : Blind (fun s => processFig0s18 s d) := by
  intro old s
  unfold processFig0s18
  dsimp only
  rw [joinsApplied,joinsApplied]
  exact opsBlind _ old s

theorem fig0s19Blind : Blind (fun s => processFig0s19 s d) := by
  intro old s
  unfold processFig0s19
  dsimp only
  by_cases loaded : 4 ≤ s.fibLoadingState.rank
  · rw [switchesApplied d _ 32 loaded,switchesApplied d _ 32 (show 4 ≤ (behind old s).fibLoadingState.rank from loaded)]
    exact opsBlind _ old s
  · have early : ∀ t : FibDecoder, ¬ 4 ≤ t.fibLoadingState.rank → fig0s19Loop d (getFigHeader d) 32 t 16 = t := by
      intro t notLoaded
      unfold fig0s19Loop
      rw [if_pos (not_le.mp notLoaded)]
      split <;> rfl
    rw [early s loaded,early (behind old s) loaded]

theorem roundsBlind {fn : FibProc} {fh : FigHeader} (each : ∀ used, BlindEntry (fun s => fn s d used fh)) (fuel used : Nat) :
    Blind (fun s => fig0Rounds fn d fh fuel s used) := by
  induction fuel generalizing used with
  | zero => exact fun _ _ => rfl
  | succ fuel ih =>
    intro old s
    have entry := each used old s
    dsimp only at entry ⊢
    unfold fig0Rounds
    rw [entry]
    dsimp only
    rw [behindFlag]
    split
    · split
      · rfl
      · exact ih _ old _
    · rfl

theorem extensionBlind (extension : Nat) : Blind (fun s => processFig0Extension s d extension) := by
  unfold processFig0Extension
  split
  · exact fig0s0Blind d
  · exact roundsBlind d (fun used => fig0s1Blind d used _) _ _
  · exact roundsBlind d (fun used => fig0s2Blind d used _) _ _
  · exact roundsBlind d (fun used => fig0s3Blind d used _) _ _
  · exact roundsBlind d (fun used => fig0s5Blind d used _) _ _
  · exact fig0s7Blind d
  · exact roundsBlind d (fun used => fig0s8Blind d used _) _ _
  · exact fig0s9Blind d
  · exact fig0s10Blind d
  · exact roundsBlind d (fun used => fig0s13Blind d used _) _ _
  · exact roundsBlind d (fun used => fig0s14Blind d used _) _ _
  · exact fig0s15Blind d
  · exact fig0s17Blind d
  · exact fig0s18Blind d
  · exact fig0s19Blind d
  · exact fun _ _ => rfl

theorem fig0Blind : Blind (fun s => processFig0 s d) := by
  intro old s
  have handled := extensionBlind d (getBits5 d 11) old s
  unfold processFig0
  dsimp only at handled ⊢
  rw [handled,behindFlag,behindPending,behindFastAudio]
  split <;> rfl

variable (toQString : Nat → List Nat → List Nat)

theorem fig1Blind : Blind (fun s => processFig1 toQString s d) := by
  have label : ∀ (old : List Signal) (s : FibDecoder) (c : FibConfigFig1),
      ({ behind old s with fig1 := c } : FibDecoder).retriggerTimerDataLoaded =
        behind old ({ s with fig1 := c } : FibDecoder).retriggerTimerDataLoaded :=
    fun old s c => behindRetrigger old { s with fig1 := c }
  intro old s
  unfold processFig1
  dsimp only
  split
  · unfold processFig1s0
    dsimp only [behindFig1]
    split
    · rfl
    · split
      · rfl
      · exact behindEmit old { s with fig1 := _ } _
  · unfold processFig1s1
    dsimp only [behindFig1]
    split
    · rfl
    · split
      · rfl
      · exact label old s _
  · unfold processFig1s4
    dsimp only [behindFig1]
    split
    · rfl
    · split
      · rfl
      · exact label old s _
  · unfold processFig1s5
    dsimp only [behindFig1]
    split
    · rfl
    · split
      · rfl
      · exact label old s _
  · rfl

theorem figBlind : Blind (fun s => processFig toQString s d) := by
  unfold processFig
  split
  · exact fig0Blind d
  · exact fig1Blind d toQString
  · exact fun _ _ => rfl

theorem fibRoundsBlind (fib : Bits) (fuel processedBytes : Nat) : Blind (fun s => fibRounds toQString fib fuel s processedBytes) := by
  induction fuel generalizing processedBytes with
  | zero => exact fun _ _ => rfl
  | succ fuel ih =>
    intro old s
    have fig := figBlind (figAt fib processedBytes) toQString old s
    dsimp only at fig ⊢
    unfold fibRounds
    dsimp only
    rw [fig,behindFlag]
    split
    · split
      · rfl
      · split
        · rfl
        · exact ih _ old _
    · rfl

end Handlers

section Runs
variable (toQString : Nat → List Nat → List Nat)

def after (old : List Signal) (flag : Bool) (s : FibDecoder) : FibDecoder := behind old { s with restartFibDecoding := flag }

theorem fibAfter (old : List Signal) (flag : Bool) (s : FibDecoder) (fib : Bits) :
    processFib toQString (after old flag s) fib = behind old (processFib toQString s fib) :=
  fibRoundsBlind toQString fib 30 0 old { s with restartFibDecoding := false }

theorem enterAfter (old : List Signal) (flag : Bool) (s : FibDecoder) (state : FibLoadingState) :
    (after old flag s).enterState state = after old flag (s.enterState state) :=
  behindEmit old { s with restartFibDecoding := flag, fibLoadingState := state } _

section Timers
variable (old : List Signal) (flag : Bool) (s : FibDecoder)

theorem afterState : (after old flag s).fibLoadingState = s.fibLoadingState := rfl
theorem afterAudio : (after old flag s).checkAudioDataCompleteness = s.checkAudioDataCompleteness := rfl
theorem afterPacket : (after old flag s).checkPacketDataCompleteness = s.checkPacketDataCompleteness := rfl
theorem afterBase : { after old flag s with fibLoadingState := .s2PrimaryBaseDataLoaded } =
    after old flag { s with fibLoadingState := .s2PrimaryBaseDataLoaded } := rfl

theorem consistencyAfter : (after old flag s).slotTimerDataConsistencyCheck = after old flag s.slotTimerDataConsistencyCheck := by
  unfold slotTimerDataConsistencyCheck
  simp only [afterState,afterBase,afterAudio,enterAfter,← apply_ite (after old flag),afterPacket]

theorem checkAfter : (after old flag s).slotTimerCheckStateAndPrintFigs = after old flag s.slotTimerCheckStateAndPrintFigs := by
  unfold slotTimerCheckStateAndPrintFigs
  simp only [afterState,enterAfter,← apply_ite (after old flag)]

end Timers

theorem stepAfter (old : List Signal) (flag : Bool) (s : FibDecoder) (event : Event) :
    ∃ later, step toQString (after old flag s) event = after old later (step toQString s event) := by
  cases event with
  | fib bits => exact ⟨_,fibAfter toQString old flag s bits⟩
  | connectChannel | disconnectChannel => exact ⟨flag,rfl⟩
  | setSIdForFastAudioSelection sId =>
    refine ⟨flag,?_⟩
    show (after old flag s).setSIdForFastAudioSelection sId = after old flag (s.setSIdForFastAudioSelection sId)
    unfold setSIdForFastAudioSelection
    rw [show (after old flag s).fibLoadingState = s.fibLoadingState from rfl]
    split <;> rfl
  | timerDataConsistencyCheck => exact ⟨flag,consistencyAfter old flag s⟩
  | timerCheckStateAndPrintFigs => exact ⟨flag,checkAfter old flag s⟩

theorem runAfter (old : List Signal) (events : List Event) (flag : Bool) (s : FibDecoder) :
    ∃ later, run toQString (after old flag s) events = after old later (run toQString s events) := by
  induction events generalizing flag s with
  | nil => exact ⟨flag,rfl⟩
  | cons event events ih =>
    obtain ⟨later,same⟩ := stepAfter toQString old flag s event
    show ∃ later, run toQString (step toQString (after old flag s) event) events = _
    rw [same]
    exact ih later _

theorem connectFresh {s : FibDecoder} {pending : Nat} (same : pending = s.sIdForFastAudioSelection)
    (curr : s.fig0Curr.clusterTable = ({} : FibConfigFig0).clusterTable)
    (next : s.fig0Next.clusterTable = ({} : FibConfigFig0).clusterTable) :
    s.connectChannel = after s.signals s.restartFibDecoding { sIdForFastAudioSelection := pending } := by
  unfold connectChannel reset resetStores FibConfigFig0.reset FibConfigFig1.reset after behind
  rw [curr,next,same,append_nil]

def NoClusters (s : FibDecoder) : Prop :=
  s.fig0Curr.clusterTable = ({} : FibConfigFig0).clusterTable ∧ s.fig0Next.clusterTable = ({} : FibConfigFig0).clusterTable
  deriving Decidable

theorem freshFrom (s : FibDecoder) : (∀ events, ∃ flag, run toQString s.connectChannel events =
      after s.signals flag (run toQString { sIdForFastAudioSelection := s.sIdForFastAudioSelection } events)) ↔ NoClusters s := by
  constructor
  · intro fresh
    obtain ⟨flag,same⟩ := fresh []
    exact ⟨congrArg (fun t : FibDecoder => t.fig0Curr.clusterTable) same,congrArg (fun t : FibDecoder => t.fig0Next.clusterTable) same⟩
  · intro clusters events
    rw [connectFresh rfl clusters.1 clusters.2]
    exact runAfter toQString s.signals events s.restartFibDecoding _

theorem freshStart (before : List Event) :
    (∀ events, ∃ flag, run toQString {} (before ++ .connectChannel :: events) = after (run toQString {} before).signals flag
      (run toQString { sIdForFastAudioSelection := (run toQString {} before).sIdForFastAudioSelection } events)) ↔
    NoClusters (run toQString {} before) := by
  have splits : ∀ events, run toQString {} (before ++ .connectChannel :: events) =
      run toQString (run toQString {} before).connectChannel events := fun events => foldl_append
  simp only [splits]
  exact freshFrom toQString (run toQString {} before)

end Runs

section Stale
open Multiplex (fibOf plainText)

def joinFib : Bits := fibOf [0x07,0x12,0x12,0x34,0x00,0x01,0x01,0x01,0xFF]
def onFib : Bits := fibOf [0x05,0x13,0x01,0x00,0x01,0x05,0xFF]

def oldEnsemble : List Event := [.timerCheckStateAndPrintFigs,.fib joinFib]

def newEnsemble : List Event := [.timerCheckStateAndPrintFigs,.fib onFib,.fib onFib,.fib onFib,.fib onFib,.fib onFib]

theorem staleAnnouncement :
    (run plainText {} newEnsemble).signals = [.fibLoadedState .s3FullyAudioDataLoaded,.fibLoadedState .s4FullyPacketDataLoaded] ∧
    (run plainText {} (oldEnsemble ++ .connectChannel :: newEnsemble)).signals =
      (run plainText {} oldEnsemble).signals ++ (run plainText {} newEnsemble).signals ++ [.startAnnouncement [] 5] := by decide

end Stale

end DabStar.Fib.FibDecoder
