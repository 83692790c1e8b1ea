import DabStar.EpgDecoder

/-! When the EPG decoder returns: when no walk over its frames (an element, its end, an index)
is infinite. Every step but that of a relative time in a location moves the index forward. -/
namespace DabStar.EpgDecoder
open Relation (ReflTransGen)
variable {after : EpgState}

structure Frame where
  element : Element
  given : Bool
  last : Nat
  index : Nat
  deriving DecidableEq, Repr

inductive Next (v : List U8) : Frame → Frame → Prop where
  | attr {e : Element} {given : Bool} {last index : Nat} {a : Attribute} (within : index < last)
      (known : child e (byte v index) = some (.attr a)) : Next v ⟨e,given,last,index⟩ ⟨e,given,last,endPoint v index⟩
  | inner {e inner : Element} {given : Bool} {last index : Nat} (within : index < last)
      (known : child e (byte v index) = some (.element inner)) (enters : inner.enters given = true) :
      Next v ⟨e,given,last,index⟩ ⟨inner,inner.given given,endPoint v index,startOf v index⟩
  | after {e inner : Element} {given : Bool} {last index : Nat} (within : index < last)
      (known : child e (byte v index) = some (.element inner)) :
      Next v ⟨e,given,last,index⟩ ⟨e,given,last,nextIndex v e inner index⟩

inductive Entered (v : List U8) : Frame → Prop where
  | epg (tag : byte v 0 = 0x02) : Entered v ⟨.epg,false,endPoint v 0,startOf v 0⟩
  | service {inner : Element} (tag : byte v 0 = 0x03) (known : serviceChild (byte v (startOf v 0)) = some (.element inner)) :
      Entered v ⟨inner,inner.given false,endPoint v (startOf v 0),startOf v (startOf v 0)⟩

structure Stuck (v : List U8) (f : Frame) : Prop where
  location : f.element = .location
  within : f.index < f.last
  relativeTime : byte v f.index = 0x2F

variable {v : List U8} {fuel : Nat} {e inner : Element} {last index : Nat} {s : EpgState} {f : Frame}

theorem givenAttribute (a : Attribute) : (s.processAttribute v a index).p.isSome = s.p.isSome := by
  cases a with
  | p474 t => cases t <;> simp [EpgState.processAttribute]
  | token =>
    simp only [EpgState.processAttribute]
    split <;> rfl
  | _ => rfl

theorem givenText (text : Text) : (s.setText e text).p.isSome = s.p.isSome := by simp [EpgState.setText]

theorem givenRecord : s.record.p = s.p := by
  unfold EpgState.record
  split
  · rfl
  · split
    · rfl
    · split <;> rfl

theorem givenFinish : (s.finish e).p.isSome = s.p.isSome := by
  unfold EpgState.finish
  split
  · rw [givenRecord]
  · rw [givenRecord]
  · exact givenText _

theorem givenEnter : (s.enter e).p.isSome = e.given s.p.isSome := by
  unfold EpgState.enter Element.given
  split
  · rfl
  · cases e.owns <;> rfl

theorem givenLeave (kept : after.p.isSome = (s.enter e).p.isSome) : (s.leave e after).p.isSome = s.p.isSome := by
  unfold EpgState.leave
  split
  · rename_i shares
    rw [kept,givenEnter,Element.given,if_pos shares]
  · rfl

theorem runEnded (behind : ¬ index < last) : run v (fuel + 1) e last index s = some (s.finish e) := by simp only [run,if_neg behind]

theorem runAttribute {a : Attribute} (within : index < last) (known : child e (byte v index) = some (.attr a)) :
    run v (fuel + 1) e last index s = run v fuel e last (endPoint v index) (s.processAttribute v a index) := by
  simp only [run,if_pos within,known]

def called (v : List U8) (fuel : Nat) (inner : Element) (index : Nat) (s : EpgState) : Option EpgState :=
  if inner.enters s.p.isSome then (run v fuel inner (endPoint v index) (startOf v index) (s.enter inner)).map (s.leave inner) else some s

theorem runElement (within : index < last) (known : child e (byte v index) = some (.element inner)) :
    run v (fuel + 1) e last index s = (called v fuel inner index s).bind (run v fuel e last (nextIndex v e inner index)) := by
  simp only [run,if_pos within,known,called]

theorem runLeft (within : index < last) (noAttr : ∀ a, child e (byte v index) ≠ some (.attr a))
    (noElement : ∀ inner, child e (byte v index) ≠ some (.element inner)) :
    ∃ after, (∀ fuel, run v (fuel + 1) e last index s = some after) ∧ after.p.isSome = s.p.isSome := by
  cases known : child e (byte v index) with
  | none => exact ⟨s.setText e [],fun fuel => by simp only [run,if_pos within,known],givenText _⟩
  | some c =>
    cases c with
    | element inner => exact absurd known (noElement inner)
    | attr a => exact absurd known (noAttr a)
    | cdata => exact ⟨s.setText e (getCData v s.stringTable index),fun fuel => by simp only [run,if_pos within,known],givenText _⟩
    | last => exact ⟨s,fun fuel => by simp only [run,if_pos within,known],rfl⟩

theorem frameCases (v : List U8) (e : Element) (last index : Nat) : ¬ index < last ∨
    index < last ∧ ((∃ a, child e (byte v index) = some (.attr a)) ∨ (∃ inner, child e (byte v index) = some (.element inner)) ∨
      (∀ a, child e (byte v index) ≠ some (.attr a)) ∧ ∀ inner, child e (byte v index) ≠ some (.element inner)) := by
  by_cases within : index < last
  · refine .inr ⟨within,?_⟩
    cases known : child e (byte v index) with
    | none => exact .inr (.inr ⟨fun _ => nofun,fun _ => nofun⟩)
    | some c =>
      cases c with
      | element inner => exact .inr (.inl ⟨inner,rfl⟩)
      | attr a => exact .inl ⟨a,rfl⟩
      | cdata | last => exact .inr (.inr ⟨fun _ => nofun,fun _ => nofun⟩)
  · exact .inl within

theorem runGiven (returned : run v fuel e last index s = some after) : after.p.isSome = s.p.isSome := by
  induction fuel generalizing e last index s after with
  | zero => exact nomatch returned
  | succ fuel ih =>
    rcases frameCases v e last index with behind | ⟨within,⟨a,known⟩ | ⟨inner,known⟩ | ⟨noAttr,noElement⟩⟩
    · rw [runEnded behind] at returned
      obtain rfl := Option.some.inj returned
      exact givenFinish
    · rw [runAttribute within known] at returned
      exact (ih returned).trans (givenAttribute a)
    · rw [runElement within known,Option.bind_eq_some_iff] at returned
      obtain ⟨mid,call,rest⟩ := returned
      refine (ih rest).trans ?_
      unfold called at call
      split at call
      · obtain ⟨body,ran,rfl⟩ := Option.map_eq_some_iff.mp call
        exact givenLeave (ih ran)
      · rw [Option.some.inj call]
    · obtain ⟨left,atOnce,same⟩ := @runLeft v e last index s within noAttr noElement
      obtain rfl := Option.some.inj ((atOnce fuel).symm.trans returned)
      exact same

theorem calledGiven {mid : EpgState} (call : called v fuel inner index s = some mid) : mid.p.isSome = s.p.isSome := by
  unfold called at call
  split at call
  · obtain ⟨body,ran,rfl⟩ := Option.map_eq_some_iff.mp call
    exact givenLeave (runGiven ran)
  · rw [Option.some.inj call]

theorem runMore (returned : run v fuel e last index s = some after) : run v (fuel + 1) e last index s = some after := by
  induction fuel generalizing e last index s after with
  | zero => exact nomatch returned
  | succ fuel ih =>
    rcases frameCases v e last index with behind | ⟨within,⟨a,known⟩ | ⟨inner,known⟩ | ⟨noAttr,noElement⟩⟩
    · rw [runEnded behind] at returned ⊢
      exact returned
    · rw [runAttribute within known] at returned ⊢
      exact ih returned
    · rw [runElement within known,Option.bind_eq_some_iff] at returned ⊢
      obtain ⟨mid,call,rest⟩ := returned
      refine ⟨mid,?_,ih rest⟩
      unfold called at call ⊢
      split at call
      · rename_i enters
        obtain ⟨body,ran,left⟩ := Option.map_eq_some_iff.mp call
        rw [if_pos enters]
        exact Option.map_eq_some_iff.mpr ⟨body,ih ran,left⟩
      · rename_i passes
        rw [if_neg passes]
        exact call
    · obtain ⟨left,atOnce,-⟩ := @runLeft v e last index s within noAttr noElement
      rw [atOnce] at returned ⊢
      exact returned

theorem runEnough {more : Nat} (enough : fuel ≤ more) (returned : run v fuel e last index s = some after) :
    run v more e last index s = some after := by
  induction enough with
  | refl => exact returned
  | step _ ih => exact runMore ih

theorem accessibleOfRun (given : s.p.isSome = f.given) (returned : run v fuel f.element f.last f.index s = some after) :
    Acc (flip (Next v)) f := by
  induction fuel generalizing f s after with
  | zero => exact nomatch returned
  | succ fuel ih =>
    refine Acc.intro _ fun next step => ?_
    cases step with
    | attr within known =>
      rw [runAttribute within known] at returned
      exact ih ((givenAttribute _).trans given) returned
    | inner within known enters =>
      rw [runElement within known,Option.bind_eq_some_iff] at returned
      obtain ⟨mid,call,-⟩ := returned
      unfold called at call
      rw [given,if_pos enters] at call
      obtain ⟨body,ran,-⟩ := Option.map_eq_some_iff.mp call
      exact ih (givenEnter.trans (by rw [given])) ran
    | after within known =>
      rw [runElement within known,Option.bind_eq_some_iff] at returned
      obtain ⟨mid,call,rest⟩ := returned
      exact ih ((calledGiven call).trans given) rest

theorem runOfAccessible (ends : Acc (flip (Next v)) f) :
    ∃ fuel, ∀ s : EpgState, s.p.isSome = f.given → ∃ after, run v fuel f.element f.last f.index s = some after := by
  induction ends with
  | intro f _ ih =>
    obtain ⟨e,given,last,index⟩ := f
    rcases frameCases v e last index with behind | ⟨within,⟨a,known⟩ | ⟨inner,known⟩ | ⟨noAttr,noElement⟩⟩
    · exact ⟨1,fun s _ => ⟨_,runEnded behind⟩⟩
    · obtain ⟨fuel,rest⟩ := ih _ (.attr within known)
      refine ⟨fuel + 1,fun s same => ?_⟩
      obtain ⟨after,ran⟩ := rest (s.processAttribute v a index) ((givenAttribute a).trans same)
      exact ⟨after,(runAttribute within known).trans ran⟩
    · obtain ⟨restFuel,rest⟩ := ih _ (.after within known)
      by_cases enters : inner.enters given = true
      · obtain ⟨bodyFuel,body⟩ := ih _ (.inner within known enters)
        refine ⟨max bodyFuel restFuel + 1,fun s same => ?_⟩
        obtain ⟨mid,ran⟩ := body (s.enter inner) (givenEnter.trans (by rw [same]))
        obtain ⟨after,finished⟩ := rest (s.leave inner mid) ((givenLeave (runGiven ran)).trans same)
        refine ⟨after,?_⟩
        rw [runElement within known,called,same,if_pos enters,runEnough (Nat.le_max_left bodyFuel restFuel) ran]
        exact runEnough (Nat.le_max_right bodyFuel restFuel) finished
      · refine ⟨restFuel + 1,fun s same => ?_⟩
        obtain ⟨after,finished⟩ := rest s same
        refine ⟨after,?_⟩
        rw [runElement within known,called,same,if_neg enters]
        exact finished
    · refine ⟨1,fun s _ => ?_⟩
      obtain ⟨left,atOnce,-⟩ := @runLeft v e last index s within noAttr noElement
      exact ⟨left,atOnce 0⟩

theorem startBeyond (v : List U8) (index : Nat) : index + 2 ≤ startOf v index := by
  unfold startOf
  split
  · omega
  · split <;> omega

theorem endBeyond (v : List U8) (index : Nat) : index + 2 ≤ endPoint v index := (startBeyond v index).trans (Nat.le_add_right _ _)

theorem zeroUnknown (other : e ≠ .tokenTable) : child e 0 = none := by
  cases e <;> first | rfl | exact absurd rfl other

theorem knownWithin {c : Child} (other : e ≠ .tokenTable) (known : child e (byte v index) = some c) : index < v.length := by
  by_contra behind
  have zero : byte v index = 0 := by simp [byte,Nat.le_of_not_lt behind]
  rw [zero,zeroUnknown other] at known
  exact nomatch known

theorem relativeTimeTag {tag : Nat} (known : child .location tag = some (.element .relativeTime)) : tag = 0x2F := by
  simp only [child] at known
  split at known
  · exact nomatch Option.some.inj known
  · exact nomatch Option.some.inj known
  · rfl
  · exact nomatch known

theorem tokensEnd (given : Bool) (last index : Nat) : Acc (flip (Next v)) ⟨.tokenTable,given,last,index⟩ := by
  induction left : last - index using Nat.strong_induction_on generalizing index with
  | _ left ih =>
    refine Acc.intro _ fun next step => ?_
    cases step with
    | attr within known =>
      have beyond := endBeyond v index
      exact ih (last - endPoint v index) (by omega) _ rfl
    | inner within known | after within known => exact nomatch known

theorem accessibleOfUnstuck (free : ∀ g, ReflTransGen (Next v) f g → ¬ Stuck v g) : Acc (flip (Next v)) f := by
  induction left : v.length - f.index using Nat.strong_induction_on generalizing f with
  | _ left ih =>
    by_cases token : f.element = .tokenTable
    · obtain ⟨e,given,last,index⟩ := f
      obtain rfl : e = .tokenTable := token
      exact tokensEnd given last index
    · refine Acc.intro _ fun next step => ?_
      have forward : f.index < next.index ∧ f.index < v.length := by
        cases step with
        | @attr e given last index a within known =>
          have beyond := endBeyond v index
          exact ⟨by dsimp only; omega,knownWithin token known⟩
        | @inner e inner given last index within known =>
          have beyond := startBeyond v index
          exact ⟨by dsimp only; omega,knownWithin token known⟩
        | @after e inner given last index within known =>
          have moves : ¬ (e = .location ∧ inner = .relativeTime) := by
            rintro ⟨rfl,rfl⟩
            exact free _ .refl ⟨rfl,within,relativeTimeTag known⟩
          have beyond := endBeyond v index
          refine ⟨?_,knownWithin token known⟩
          dsimp only [nextIndex]
          rw [if_neg moves]
          omega
      exact ih (v.length - next.index) (by omega) (fun g walk => free g (.head step walk)) rfl

theorem noLoop (ends : Acc (flip (Next v)) f) : ¬ Next v f f := by
  induction ends with
  | intro f _ ih => exact fun again => ih f again again

theorem unstuckOfAccessible (ends : Acc (flip (Next v)) f) : ∀ g, ReflTransGen (Next v) f g → ¬ Stuck v g := by
  intro g walk
  have onward : Acc (flip (Next v)) g := by
    induction walk with
    | refl => exact ends
    | tail _ step ih => exact ih.inv step
  rintro ⟨location,within,tag⟩
  obtain ⟨e,given,last,index⟩ := g
  obtain rfl : e = .location := location
  have known : child .location (byte v index) = some (.element .relativeTime) := by
    rw [show byte v index = 0x2F from tag]
    rfl
  have again : Next v ⟨.location,given,last,index⟩ ⟨.location,given,last,index⟩ := .after within known
  exact noLoop onward again

theorem enteredReturns (v : List U8) (eLength : Int) (sId : Nat) (subType : Int) (theDay : Nat) :
    (∃ fuel, (processEpg fuel v eLength sId subType theDay).isSome) ↔ ∀ f, Entered v f → Acc (flip (Next v)) f := by
  constructor
  · rintro ⟨fuel,returned⟩ f entered
    unfold processEpg at returned
    cases entered with
    | epg tag =>
      rw [if_pos tag,Option.isSome_map] at returned
      obtain ⟨after,ran⟩ := Option.isSome_iff_exists.mp returned
      exact accessibleOfRun rfl ran
    | service tag known =>
      rw [if_neg (by omega),if_pos tag,known] at returned
      dsimp only at returned
      rw [Option.isSome_map] at returned
      obtain ⟨after,ran⟩ := Option.isSome_iff_exists.mp returned
      exact accessibleOfRun givenEnter ran
  · intro all
    unfold processEpg
    by_cases epg : byte v 0 = 0x02
    · obtain ⟨fuel,returns⟩ := runOfAccessible (all _ (.epg epg))
      obtain ⟨after,ran⟩ := returns (newState sId subType theDay) rfl
      exact ⟨fuel,by simp only [if_pos epg,ran,Option.map_some,Option.isSome_some]⟩
    by_cases service : byte v 0 = 0x03
    · cases known : serviceChild (byte v (startOf v 0)) with
      | none => exact ⟨0,by simp [service]⟩
      | some c =>
        cases c with
        | element inner =>
          obtain ⟨fuel,returns⟩ := runOfAccessible (all _ (.service service known))
          obtain ⟨after,ran⟩ := returns ((newState sId subType theDay).enter inner) givenEnter
          exact ⟨fuel,by simp only [if_neg epg,if_pos service,ran,Option.map_some,Option.isSome_some]⟩
        | attr a | cdata | last => exact ⟨0,by simp [service]⟩
    · exact ⟨0,by simp [epg,service]⟩

theorem epgReturns (v : List U8) (eLength : Int) (sId : Nat) (subType : Int) (theDay : Nat) :
    (∃ fuel, (processEpg fuel v eLength sId subType theDay).isSome) ↔ ∀ f g, Entered v f → ReflTransGen (Next v) f g → ¬ Stuck v g := by
  rw [enteredReturns]
  constructor
  · exact fun all f g entered => unstuckOfAccessible (all f entered) g
  · exact fun free f entered => accessibleOfUnstuck fun g => free f g entered

def relativeProgramme : List U8 := [0x02#8,0x08#8,0x21#8,0x06#8,0x1C#8,0x04#8,0x19#8,0x02#8,0x2F#8,0x00#8]

theorem relativeProgrammeStuck : relativeProgramme.length = 10 ∧ ∀ fuel, processEpg fuel relativeProgramme 10 0 0 0 = none := by
  refine ⟨rfl,fun fuel => ?_⟩
  have schedule : Next relativeProgramme ⟨.epg,false,10,2⟩ ⟨.schedule,true,10,4⟩ := .inner (by decide) rfl rfl
  have programme : Next relativeProgramme ⟨.schedule,true,10,4⟩ ⟨.program,true,10,6⟩ := .inner (by decide) rfl rfl
  have location : Next relativeProgramme ⟨.program,true,10,6⟩ ⟨.location,true,10,8⟩ := .inner (by decide) rfl rfl
  have walk : ReflTransGen (Next relativeProgramme) ⟨.epg,false,10,2⟩ ⟨.location,true,10,8⟩ :=
    .head schedule (.head programme (.single location))
  by_contra returned
  have all := (enteredReturns relativeProgramme 10 0 0 0).mp ⟨fuel,Option.isSome_iff_ne_none.mpr returned⟩
  exact unstuckOfAccessible (all _ (.epg rfl)) _ walk ⟨rfl,by decide,rfl⟩

end DabStar.EpgDecoder
