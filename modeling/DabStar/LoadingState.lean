import DabStar.FibSteps

/-! The loading state of the FIB decoder between two resets. The states signalled since the
last reset determine, together with the current one, everything that may be signalled
next; a restart ends the FIB it happens in. -/
namespace DabStar.Fib.FibDecoder
open List FibLoadingState

def loadedStates (signals : List Signal) : List FibLoadingState :=
  signals.filterMap (fun signal => match signal with
    | .fibLoadedState state => some state
    | _ => none)

inductive Signalled : FibLoadingState → List FibLoadingState → Prop where
  | init : Signalled .s0Init []
  | fast : Signalled .s1FastAudioDataLoaded [.s1FastAudioDataLoaded]
  | base {fast : List FibLoadingState} (first : fast = [] ∨ fast = [.s1FastAudioDataLoaded]) :
      Signalled .s2PrimaryBaseDataLoaded fast
  | audio {fast : List FibLoadingState} (first : fast = [] ∨ fast = [.s1FastAudioDataLoaded]) :
      Signalled .s3FullyAudioDataLoaded (fast ++ [.s3FullyAudioDataLoaded])
  | packet {fast : List FibLoadingState} (first : fast = [] ∨ fast = [.s1FastAudioDataLoaded]) :
      Signalled .s4FullyPacketDataLoaded (fast ++ [.s3FullyAudioDataLoaded,.s4FullyPacketDataLoaded])
  | deferred {fast : List FibLoadingState} (first : fast = [] ∨ fast = [.s1FastAudioDataLoaded]) (count : Nat) :
      Signalled .s5DeferredDataLoaded (fast ++ [.s3FullyAudioDataLoaded,.s4FullyPacketDataLoaded] ++
        replicate (count + 1) .s5DeferredDataLoaded)

structure Ordered (states : List FibLoadingState) : Prop where
  increasing : (states.filter (· ≠ .s5DeferredDataLoaded)).Pairwise (fun a b => a.rank < b.rank)
  audioFirst : ∀ before after, states = before ++ .s4FullyPacketDataLoaded :: after → .s3FullyAudioDataLoaded ∈ before
  packetFirst : ∀ before after, states = before ++ .s5DeferredDataLoaded :: after → .s4FullyPacketDataLoaded ∈ before

theorem headFirst {α : Type} {a b : α} {front rest before after : List α} (here : b ∉ front ++ [a])
    (parts : front ++ a :: rest = before ++ b :: after) : a ∈ before := by
  rw [show front ++ a :: rest = (front ++ [a]) ++ rest by simp] at parts
  rcases append_eq_append_iff.mp parts with ⟨more,longer,_⟩ | ⟨more,longer,tail⟩
  · rw [longer]
    simp
  · cases more with
    | nil =>
      rw [append_nil] at longer
      rw [← longer]
      simp
    | cons c more =>
      rw [cons_append] at tail
      have same : c = b := (List.cons.inj tail).1.symm
      refine absurd ?_ here
      rw [longer,same]
      simp

theorem absentSplit {α : Type} {b : α} {states before after : List α} (absent : b ∉ states)
    (parts : states = before ++ b :: after) : False := absent (parts ▸ mem_append_right before mem_cons_self)

theorem earlyOrdered {states : List FibLoadingState} (increasing : states.Pairwise (fun a b => a.rank < b.rank))
    (noPacket : .s4FullyPacketDataLoaded ∉ states) (noDeferred : .s5DeferredDataLoaded ∉ states) : Ordered states :=
  ⟨increasing.filter _,fun _ _ parts => (absentSplit noPacket parts).elim,fun _ _ parts => (absentSplit noDeferred parts).elim⟩

theorem signalledOrdered {state : FibLoadingState} {states : List FibLoadingState} (signalled : Signalled state states) :
    Ordered states := by
  cases signalled with
  | init | fast => exact earlyOrdered (by decide) (by decide) (by decide)
  | base first | audio first => rcases first with rfl | rfl <;> exact earlyOrdered (by decide) (by decide) (by decide)
  | packet first =>
    rcases first with rfl | rfl <;>
      exact ⟨by decide,fun _ _ parts => headFirst (by decide) parts,fun _ _ parts => (absentSplit (by decide) parts).elim⟩
  | @deferred fast first count =>
    have others : (replicate (count + 1) FibLoadingState.s5DeferredDataLoaded).filter
        (· ≠ .s5DeferredDataLoaded) = [] := by
      rw [filter_eq_nil_iff]
      intro state member
      rw [eq_of_mem_replicate member]
      decide
    refine ⟨?_,fun before after parts => ?_,fun before after parts => ?_⟩
    · rw [filter_append,others,append_nil]
      rcases first with rfl | rfl <;> decide
    · rw [append_assoc] at parts
      refine headFirst ?_ parts
      rcases first with rfl | rfl <;> decide
    · rw [append_cons] at parts
      rw [append_assoc] at parts
      refine headFirst ?_ parts
      rcases first with rfl | rfl <;> decide

structure Silent (s t : FibDecoder) : Prop where
  state : t.fibLoadingState = s.fibLoadingState
  signals : ∃ more, t.signals = s.signals ++ more ∧ loadedStates more = []

inductive Moves (s t : FibDecoder) : Prop where
  | silent (silent : Silent s t)
  | reloads (loaded : 4 ≤ s.fibLoadingState.rank) (state : t.fibLoadingState = .s5DeferredDataLoaded)
      (signals : t.signals = s.signals ++ [.fibLoadedState .s5DeferredDataLoaded])
  | fast (first : s.fibLoadingState = .s0Init) (state : t.fibLoadingState = .s1FastAudioDataLoaded)
      (signals : t.signals = s.signals ++ [.fibLoadedState .s1FastAudioDataLoaded])

theorem silentRefl (s : FibDecoder) : Silent s s := ⟨rfl,[],(append_nil _).symm,rfl⟩

theorem silentSame {s t : FibDecoder} (state : t.fibLoadingState = s.fibLoadingState) (signals : t.signals = s.signals) :
    Silent s t := ⟨state,[],by rw [signals,append_nil],rfl⟩

theorem Silent.trans {s t u : FibDecoder} (first : Silent s t) (second : Silent t u) : Silent s u := by
  obtain ⟨more,signals,none⟩ := first.signals
  obtain ⟨rest,later,noneToo⟩ := second.signals
  refine ⟨second.state.trans first.state,more ++ rest,by rw [later,signals,append_assoc],?_⟩
  unfold loadedStates at none noneToo ⊢
  rw [filterMap_append,none,noneToo]
  rfl

theorem silentConfig (s : FibDecoder) (cnFlag : Nat) (c : FibConfigFig0) : Silent s (s.setConfig cnFlag c) := by
  unfold setConfig
  split <;> exact silentSame rfl rfl

theorem announcementsSilent (c : FibConfigFig1) (subChId : Nat) (list : List Announced) :
    loadedStates (list.map (announcement c subChId)) = [] := by
  unfold loadedStates
  rw [filterMap_eq_nil_iff,forall_mem_map]
  intro a _
  cases on : a.started <;> simp only [announcement,on] <;> rfl

theorem microMoves {d : Bits} {s t : FibDecoder} (micro : Micro d s t) : Moves s t := by
  cases micro with
  | stores => exact .silent (silentConfig s _ _)
  | labels => exact .silent (silentSame rfl rfl)
  | ensembleLabel e => exact .silent ⟨rfl,_,rfl,rfl⟩
  | ensembleInformation =>
    refine .silent ?_
    unfold processFig0s0
    dsimp only
    split
    · exact ⟨rfl,_,rfl,rfl⟩
    · exact silentSame rfl rfl
  | dateAndTime =>
    refine .silent ?_
    unfold processFig0s10
    dsimp only
    split
    · exact silentSame rfl rfl
    · exact ⟨rfl,_,rfl,rfl⟩
  | ewsInformation =>
    refine .silent ?_
    unfold processFig0s15
    split
    · exact silentRefl s
    · exact ⟨rfl,_,rfl,rfl⟩
  | setsCluster =>
    refine .silent ?_
    rw [setClusterExact]
    split
    · exact silentRefl s
    · exact silentConfig s _ _
  | switches cnFlag =>
    rw [switchAnnouncementExact]
    refine .silent ⟨?_,_,rfl,announcementsSilent _ _ _⟩
    exact (silentConfig s cnFlag _).state
  | retriggers =>
    unfold retriggerTimerDataLoaded
    split
    · rename_i loaded
      exact .reloads loaded rfl rfl
    · exact .silent (silentRefl s)
  | fastAudio =>
    unfold processFastAudioSelection
    split
    · exact .silent (silentRefl s)
    · split
      · exact .silent (silentRefl s)
      · dsimp only
        split
        · rename_i first
          have init : s.fibLoadingState = .s0Init := by
            cases state : s.fibLoadingState <;> rw [state] at first <;> first | rfl | exact absurd first (by decide)
          exact .fast init rfl rfl
        · exact .silent (silentSame rfl rfl)

section Runs
variable {s : FibDecoder} {states : List FibLoadingState} {state : FibLoadingState}

theorem signalledFast (signalled : Signalled .s0Init states) : Signalled .s1FastAudioDataLoaded (states ++ [.s1FastAudioDataLoaded]) := by
  cases signalled
  exact .fast

theorem signalledEarly (early : state.rank ≤ 2) (signalled : Signalled state states) : states = [] ∨ states = [.s1FastAudioDataLoaded] := by
  cases signalled with
  | init => exact .inl rfl
  | fast => exact .inr rfl
  | base first => exact first
  | audio | packet | deferred => exact absurd early (by decide)

theorem signalledPacket (signalled : Signalled .s3FullyAudioDataLoaded states) :
    Signalled .s4FullyPacketDataLoaded (states ++ [.s4FullyPacketDataLoaded]) := by
  cases signalled with
  | audio first =>
    rw [append_assoc]
    exact .packet first

theorem signalledReload (loaded : 4 ≤ state.rank)
    (signalled : Signalled state states) : Signalled .s5DeferredDataLoaded (states ++ [.s5DeferredDataLoaded]) := by
  cases signalled with
  | packet first => exact .deferred first 0
  | deferred first count =>
    rw [append_assoc,← replicate_succ']
    exact .deferred first (count + 1)
  | init | fast | base | audio => exact absurd loaded (by decide)

def Since (old : List Signal) (s : FibDecoder) : Prop := ∃ new, s.signals = old ++ new ∧ Signalled s.fibLoadingState (loadedStates new)

structure Proceeds (s t : FibDecoder) : Prop where
  forward : s.fibLoadingState.rank ≤ t.fibLoadingState.rank
  since : ∀ old, Since old s → Since old t

theorem proceedsRefl (s : FibDecoder) : Proceeds s s := ⟨le_refl _,fun _ since => since⟩

theorem Proceeds.trans {s t u : FibDecoder} (first : Proceeds s t) (second : Proceeds t u) : Proceeds s u :=
  ⟨first.forward.trans second.forward,fun old since => second.since old (first.since old since)⟩

theorem proceedsSignal {s t : FibDecoder} {more : List Signal}
    (forward : s.fibLoadingState.rank ≤ t.fibLoadingState.rank) (signals : t.signals = s.signals ++ more)
    (next : ∀ states, Signalled s.fibLoadingState states → Signalled t.fibLoadingState (states ++ loadedStates more)) : Proceeds s t := by
  refine ⟨forward,fun old since => ?_⟩
  obtain ⟨new,same,signalled⟩ := since
  refine ⟨new ++ more,by rw [signals,same,append_assoc],?_⟩
  have grown := next _ signalled
  unfold loadedStates at grown ⊢
  rwa [filterMap_append]

theorem silentProceeds {s t : FibDecoder} (silent : Silent s t) : Proceeds s t := by
  obtain ⟨more,signals,none⟩ := silent.signals
  refine proceedsSignal (le_of_eq (by rw [silent.state])) signals (fun states signalled => ?_)
  rw [silent.state,none,append_nil]
  exact signalled

theorem beginProceeds (s : FibDecoder) : Proceeds s { s with restartFibDecoding := false } := silentProceeds (silentSame rfl rfl)

theorem movesProceeds {s t : FibDecoder} (moves : Moves s t) : Proceeds s t := by
  cases moves with
  | silent silent => exact silentProceeds silent
  | reloads loaded state signals =>
    refine proceedsSignal ?_ signals (fun states signalled => ?_)
    · rw [state]
      cases s.fibLoadingState <;> decide
    · rw [state]
      exact signalledReload loaded signalled
  | fast first state signals =>
    refine proceedsSignal ?_ signals (fun states signalled => ?_)
    · rw [state,first]
      decide
    · rw [state]
      exact signalledFast (first ▸ signalled)

theorem stepsProceed {figs : List Bits} {s t : FibDecoder} (steps : Steps figs s t) : Proceeds s t := by
  induction steps with
  | refl => exact proceedsRefl s
  | tail _ last ih =>
    obtain ⟨d,_,micro⟩ := last
    exact ih.trans (movesProceeds (microMoves micro))

theorem enterProceeds (forward : s.fibLoadingState.rank ≤ state.rank)
    (next : ∀ states, Signalled s.fibLoadingState states → Signalled state (states ++ [state])) :
    Proceeds s (s.enterState state) := proceedsSignal forward rfl next

theorem baseProceeds (early : s.fibLoadingState.rank ≤ 2) : Proceeds s { s with fibLoadingState := .s2PrimaryBaseDataLoaded } := by
  refine proceedsSignal early (append_nil _).symm (fun states signalled => ?_)
  show Signalled .s2PrimaryBaseDataLoaded (states ++ [])
  rw [append_nil]
  exact .base (signalledEarly early signalled)

theorem audioProceeds (early : s.fibLoadingState.rank ≤ 2) : Proceeds s (s.enterState .s3FullyAudioDataLoaded) :=
  enterProceeds (Nat.le_succ_of_le early) (fun _ signalled => .audio (signalledEarly early signalled))

theorem packetProceeds (audio : s.fibLoadingState = .s3FullyAudioDataLoaded) : Proceeds s (s.enterState .s4FullyPacketDataLoaded) := by
  refine enterProceeds ?_ (fun states signalled => signalledPacket (audio ▸ signalled))
  rw [audio]
  decide

theorem consistencyProceeds (s : FibDecoder) : Proceeds s s.slotTimerDataConsistencyCheck := by
  have packet : ∀ t : FibDecoder, Proceeds t (if t.fibLoadingState = .s3FullyAudioDataLoaded ∧ t.checkPacketDataCompleteness
      then t.enterState .s4FullyPacketDataLoaded else t) := by
    intro t
    split
    · rename_i audio
      exact packetProceeds audio.1
    · exact proceedsRefl t
  refine Proceeds.trans ?_ (packet _)
  split
  · rename_i early
    dsimp only
    split
    · exact (baseProceeds early).trans (audioProceeds (le_refl 2))
    · exact baseProceeds early
  · exact proceedsRefl s

theorem checkProceeds (s : FibDecoder) : Proceeds s s.slotTimerCheckStateAndPrintFigs := by
  have packet : ∀ t : FibDecoder, 3 ≤ t.fibLoadingState.rank →
      Proceeds t (if t.fibLoadingState.rank < 4 then t.enterState .s4FullyPacketDataLoaded else t) := by
    intro t late
    split
    · rename_i early
      refine packetProceeds ?_
      cases state : t.fibLoadingState <;> rw [state] at early late <;>
        first | rfl | exact absurd early (by decide) | exact absurd late (by decide)
    · exact proceedsRefl t
  unfold slotTimerCheckStateAndPrintFigs
  by_cases early : s.fibLoadingState.rank < 3
  · rw [if_pos early]
    exact (audioProceeds (Nat.le_of_lt_succ early)).trans (packet _ (le_refl 3))
  · rw [if_neg early]
    exact packet s (not_lt.mp early)

variable (toQString : Nat → List Nat → List Nat)

def Resets (s : FibDecoder) : Event → Prop
  | .connectChannel => True
  | .fib bits => (processFib toQString s bits).restartFibDecoding = true
  | _ => False

def Undisturbed : FibDecoder → List Event → Prop
  | _, [] => True
  | s, event :: events => ¬ Resets toQString s event ∧ Undisturbed (step toQString s event) events

theorem stepProceeds {event : Event} (calm : ¬ Resets toQString s event) : Proceeds s (step toQString s event) := by
  cases event with
  | fib bits =>
    have steps := passedCalm (fibPassed toQString s bits) (Bool.eq_false_iff.mpr calm)
    exact (beginProceeds s).trans (stepsProceed steps)
  | connectChannel => exact absurd trivial calm
  | disconnectChannel => exact silentProceeds (silentSame rfl rfl)
  | setSIdForFastAudioSelection sId =>
    refine silentProceeds ?_
    show Silent s (s.setSIdForFastAudioSelection sId)
    unfold setSIdForFastAudioSelection
    split <;> exact silentSame rfl rfl
  | timerDataConsistencyCheck => exact consistencyProceeds s
  | timerCheckStateAndPrintFigs => exact checkProceeds s

theorem runProceeds {events : List Event} (calm : Undisturbed toQString s events) : Proceeds s (run toQString s events) := by
  induction events generalizing s with
  | nil => exact proceedsRefl s
  | cons event events ih => exact (stepProceeds toQString calm.1).trans (ih calm.2)

theorem undisturbedAppend {first second : List Event} (calm : Undisturbed toQString s (first ++ second)) :
    Undisturbed toQString s first ∧ Undisturbed toQString (run toQString s first) second := by
  induction first generalizing s with
  | nil => exact ⟨trivial,calm⟩
  | cons event first ih => exact ⟨⟨calm.1,(ih calm.2).1⟩,(ih calm.2).2⟩

theorem sinceOrdered {old : List Signal} (since : Since old s) : ∃ new, s.signals = old ++ new ∧ Ordered (loadedStates new) := by
  obtain ⟨new,signals,signalled⟩ := since
  exact ⟨new,signals,signalledOrdered signalled⟩

theorem freshSince (fresh : s.fibLoadingState = .s0Init) : Since s.signals s := ⟨[],(append_nil _).symm,by rw [fresh]; exact .init⟩

theorem loadingOrdered {s : FibDecoder} (fresh : s.fibLoadingState = .s0Init) {events : List Event}
    (calm : Undisturbed toQString s events) : (∀ first second, events = first ++ second →
      (run toQString s first).fibLoadingState.rank ≤ (run toQString s events).fibLoadingState.rank) ∧
    (∃ new, (run toQString s events).signals = s.signals ++ new ∧ Ordered (loadedStates new)) ∧
    ∀ bits, (processFib toQString (run toQString s events) bits).restartFibDecoding = true →
      ∃ last, Steps (figsOf bits) { run toQString s events with restartFibDecoding := false } last ∧
        processFib toQString (run toQString s events) bits = last.restart ∧
        (run toQString s events).fibLoadingState.rank ≤ last.fibLoadingState.rank ∧
        ∃ new, last.signals = s.signals ++ new ∧ Ordered (loadedStates new) := by
  have since := (runProceeds toQString calm).since _ (freshSince fresh)
  refine ⟨?_,sinceOrdered since,?_⟩
  · intro first second parts
    subst parts
    rw [show run toQString s (first ++ second) = run toQString (run toQString s first) second from foldl_append]
    exact (runProceeds toQString (undisturbedAppend toQString calm).2).forward
  · intro bits restarts
    obtain ⟨last,steps,same⟩ := passedRestarted (fibPassed toQString _ bits) rfl restarts
    have proceeds := (beginProceeds _).trans (stepsProceed steps)
    exact ⟨last,steps,same,proceeds.forward,sinceOrdered (proceeds.since _ since)⟩

def timersFire : List Event := [.fib (fun _ => true),.timerDataConsistencyCheck,.timerCheckStateAndPrintFigs]

theorem timersFireOrdered : Undisturbed (fun _ text => text) {} timersFire ∧
    loadedStates (run (fun _ text => text) {} timersFire).signals = [.s3FullyAudioDataLoaded,.s4FullyPacketDataLoaded] ∧
    ∃ new, (run (fun _ text => text) {} timersFire).signals = [] ++ new ∧ Ordered (loadedStates new) := by
  have calm : Undisturbed (fun _ text => text) {} timersFire := ⟨by unfold Resets; decide,id,id,trivial⟩
  exact ⟨calm,by decide,(loadingOrdered _ rfl calm).2.1⟩

end Runs

end DabStar.Fib.FibDecoder
