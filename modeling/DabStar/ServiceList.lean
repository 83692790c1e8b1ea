import DabStar.Multiplex

/-! The list of services (decoder/fib_decoder.cpp, get_service_list) as a function of what was
received. It depends on the order of arrival only where two labels or two service descriptions
contradict each other. -/
namespace DabStar.Fib.FibDecoder
open List

structure ServiceId where
  serviceLabel : List Nat
  sId : Nat
  isAudioChannel : Bool
  hasSpiEpgData : Bool := false
  deriving DecidableEq, Repr

/- The map is kept in the order of insertion; the source has it in the order of the
labels, which orders the list and nothing else. -/
def getServiceList (s : FibDecoder) : List ServiceId :=
  (s.fig1.serviceLabelMap.filter (fun e => e.2.2 ≤ 0)).map (fun e =>
    { serviceLabel := e.1, sId := e.2.1, isAudioChannel := (s.fig0Curr.getFig0s2OfSIdTMId e.2.1 0).isSome })

section Received
variable (toQString : Nat → List Nat → List Nat)

abbrev ServiceLabel := List Nat × Nat × Int

def labelOf (d : Bits) : Option ServiceLabel :=
  if getBits3 d 0 = 1 then
    match getBits3 d 13 with
    | 1 => (extractCharacterSetLabel toQString d 32).map (fun label => (label.name, getBits d 16 16, -1))
    | 4 =>
      let long := getBits1 d 16 ≠ 0
      (extractCharacterSetLabel toQString d (if long then 56 else 40)).map (fun label =>
        (label.name, if long then getLBits d 24 32 else getLBits d 24 16, getBits4 d 20))
    | 5 => (extractCharacterSetLabel toQString d 48).map (fun label => (label.name, getLBits d 16 32, -5))
    | _ => none
  else none

structure Component where
  sId : Nat
  index : Nat
  tmId : Nat
  deriving DecidableEq, Repr

def componentsAt (d : Bits) (pdFlag used : Nat) : List Component :=
  let width := if pdFlag = 1 then 32 else 16
  (range (getBits4 d (8 * used + width + 4))).map (fun i =>
    ⟨getLBits d (8 * used) width,i,getBits2 d (8 * used + width + 8 + 16 * i)⟩)

def componentsFrom (d : Bits) (fh : FigHeader) : Nat → Nat → List Component
  | 0, _ => []
  | fuel + 1, used =>
    if used ≤ fh.length then
      let width := if fh.pdFlag = 1 then 32 else 16
      componentsAt d fh.pdFlag used ++
        componentsFrom d fh fuel ((8 * used + width + 8 + 16 * getBits4 d (8 * used + width + 4)) / 8)
    else []

def componentsOf (d : Bits) : List Component :=
  if getBits3 d 0 = 0 ∧ getBits5 d 11 = 2 ∧ getBits1 d 8 = 0 then componentsFrom d (getFigHeader d) 32 2 else []

def Concerned (d : Bits) : Prop :=
  (getBits3 d 0 = 1 ∧ (getBits3 d 13 = 1 ∨ getBits3 d 13 = 4 ∨ getBits3 d 13 = 5)) ∨ (getBits3 d 0 = 0 ∧ getBits5 d 11 = 2)
  deriving Decidable

end Received

def storedLabels (c : FibConfigFig1) : List ServiceLabel :=
  c.fig1s1Vec.map (fun e => (e.label.name, e.sId, -1)) ++ c.fig1s4Vec.map (fun e => (e.label.name, e.sId, e.scIdS)) ++
    c.fig1s5Vec.map (fun e => (e.label.name, e.sId, -5))

structure Book (labels : List ServiceLabel) (c : FibConfigFig1) : Prop where
  mapped : ∀ x ∈ c.serviceLabelMap, x ∈ labels
  stored : ∀ x ∈ storedLabels c, x ∈ labels ∧ ∃ y ∈ c.serviceLabelMap, y.1 = x.1
  known : ∀ l ∈ labels, ∃ x ∈ storedLabels c, x.2 = l.2

inductive Entered (l : ServiceLabel) (c : FibConfigFig1) : FibConfigFig1 → Prop where
  | known (x : ServiceLabel) (stored : x ∈ storedLabels c) (same : x.2 = l.2) : Entered l c c
  | new (c' : FibConfigFig1) (stored : ∀ x, x ∈ storedLabels c' ↔ x ∈ storedLabels c ∨ x = l)
      (mapped : c'.serviceLabelMap = c.serviceLabelMap) : Entered l c (c'.tryEmplace l.1 l.2.1 l.2.2)

theorem emplacedStores (c : FibConfigFig1) (l : ServiceLabel) : storedLabels (c.tryEmplace l.1 l.2.1 l.2.2) = storedLabels c := by
  unfold FibConfigFig1.tryEmplace
  split <;> rfl

theorem emplacedMap (c : FibConfigFig1) (l : ServiceLabel) :
    (∀ x ∈ (c.tryEmplace l.1 l.2.1 l.2.2).serviceLabelMap, x ∈ c.serviceLabelMap ∨ x = l) ∧
    (∀ x ∈ c.serviceLabelMap, x ∈ (c.tryEmplace l.1 l.2.1 l.2.2).serviceLabelMap) ∧
    ∃ y ∈ (c.tryEmplace l.1 l.2.1 l.2.2).serviceLabelMap, y.1 = l.1 := by
  unfold FibConfigFig1.tryEmplace
  split
  · rename_i there
    obtain ⟨y,member,same⟩ := any_eq_true.mp there
    exact ⟨fun x inside => .inl inside,fun x inside => inside,y,member,of_decide_eq_true same⟩
  · refine ⟨fun x inside => ?_,fun x inside => mem_append_left _ inside,l,mem_append_right _ ?_,rfl⟩
    · rcases mem_append.mp inside with old | new
      · exact .inl old
      · exact .inr (mem_singleton.mp new)
    · exact mem_singleton_self _

theorem enteredBook {labels : List ServiceLabel} {l : ServiceLabel} {c c' : FibConfigFig1} (book : Book labels c)
    (entered : Entered l c c') : Book (labels ++ [l]) c' := by
  cases entered with
  | known x stored same =>
    refine ⟨fun y inside => mem_append_left _ (book.mapped y inside),fun y inside => ?_,fun m member => ?_⟩
    · exact ⟨mem_append_left _ (book.stored y inside).1,(book.stored y inside).2⟩
    · rcases mem_append.mp member with old | new
      · exact book.known m old
      · rw [mem_singleton.mp new]
        exact ⟨x,stored,same⟩
  | new c' stored mapped =>
    obtain ⟨fromMap,keptMap,text⟩ := emplacedMap c' l
    rw [mapped] at fromMap keptMap
    refine ⟨fun y inside => ?_,fun y inside => ?_,fun m member => ?_⟩
    · rcases fromMap y inside with old | rfl
      · exact mem_append_left _ (book.mapped y old)
      · exact mem_append_right _ (mem_singleton_self y)
    · rw [emplacedStores,stored] at inside
      rcases inside with old | rfl
      · obtain ⟨came,z,here,same⟩ := book.stored y old
        exact ⟨mem_append_left _ came,z,keptMap z here,same⟩
      · exact ⟨mem_append_right _ (mem_singleton_self y),text⟩
    · rw [emplacedStores]
      rcases mem_append.mp member with old | new
      · obtain ⟨x,here,same⟩ := book.known m old
        exact ⟨x,(stored x).mpr (.inl here),same⟩
      · rw [mem_singleton.mp new]
        exact ⟨l,(stored l).mpr (.inr rfl),rfl⟩

section Handlers
variable (toQString : Nat → List Nat → List Nat) {d : Bits}

structure LabelHandled (s t : FibDecoder) (label : Option ServiceLabel) : Prop where
  services : t.fig0Curr = s.fig0Curr
  going : t.restartFibDecoding = s.restartFibDecoding
  entered : match label with
    | none => t.fig1 = s.fig1
    | some l => Entered l s.fig1 t.fig1

theorem labelKnown {s : FibDecoder} {label : Option ServiceLabel}
    (known : ∀ l, label = some l → ∃ x ∈ storedLabels s.fig1, x.2 = l.2) : LabelHandled s s label := by
  refine ⟨rfl,rfl,?_⟩
  cases label with
  | none => rfl
  | some l =>
    obtain ⟨x,stored,same⟩ := known l rfl
    exact .known x stored same

theorem labelNew {s : FibDecoder} {l : ServiceLabel} (c : FibConfigFig1)
    (stored : ∀ x, x ∈ storedLabels c ↔ x ∈ storedLabels s.fig1 ∨ x = l) (mapped : c.serviceLabelMap = s.fig1.serviceLabelMap) :
    LabelHandled s { s with fig1 := c.tryEmplace l.1 l.2.1 l.2.2 }.retriggerTimerDataLoaded (some l) := by
  have kept := retriggerStores { s with fig1 := c.tryEmplace l.1 l.2.1 l.2.2 }
  refine ⟨kept.curr,retriggerFlag _,?_⟩
  dsimp only
  rw [kept.fig1]
  exact .new c stored mapped

theorem fig1s1Handled (s : FibDecoder) : LabelHandled s (processFig1s1 toQString s d)
    ((extractCharacterSetLabel toQString d 32).map (fun label => (label.name, getBits d 16 16, -1))) := by
  unfold processFig1s1
  dsimp only
  cases extractCharacterSetLabel toQString d 32 with
  | none => exact labelKnown (fun l none => nomatch none)
  | some label =>
    dsimp only [Option.map_some]
    cases found : s.fig1.getFig1s1OfSId (getBits d 16 16) with
    | some e =>
      refine labelKnown (fun l read => ?_)
      cases Option.some.inj read
      have key := List.find?_some found
      simp only [decide_eq_true_eq] at key
      refine ⟨(e.label.name, e.sId, -1),?_,by rw [key]⟩
      exact mem_append_left _ (mem_append_left _ (mem_map.mpr ⟨e,mem_of_find?_eq_some found,rfl⟩))
    | none =>
      refine labelNew (l := (label.name, getBits d 16 16, -1))
        { s.fig1 with fig1s1Vec := s.fig1.fig1s1Vec ++ [⟨label,getBits d 16 16⟩] } (fun x => ?_) rfl
      simp only [storedLabels,map_append,map_cons,map_nil,mem_append,mem_singleton]
      tauto

theorem fig1s4Handled (s : FibDecoder) : LabelHandled s (processFig1s4 toQString s d)
    ((extractCharacterSetLabel toQString d (if getBits1 d 16 ≠ 0 then 56 else 40)).map (fun label =>
      (label.name, if getBits1 d 16 ≠ 0 then getLBits d 24 32 else getLBits d 24 16, getBits4 d 20))) := by
  unfold processFig1s4
  dsimp only
  generalize (if getBits1 d 16 ≠ 0 then getLBits d 24 32 else getLBits d 24 16) = sId
  cases found : s.fig1.getFig1s4OfSIdSCIdS sId (getBits4 d 20) with
  | some e =>
    refine labelKnown (fun l read => ?_)
    obtain ⟨label,-,rfl⟩ := Option.map_eq_some_iff.mp read
    have key := List.find?_some found
    simp only [decide_eq_true_eq] at key
    refine ⟨(e.label.name, e.sId, e.scIdS),?_,by rw [key.1,key.2]⟩
    exact mem_append_left _ (mem_append_right _ (mem_map.mpr ⟨e,mem_of_find?_eq_some found,rfl⟩))
  | none =>
    cases extractCharacterSetLabel toQString d (if getBits1 d 16 ≠ 0 then 56 else 40) with
    | none => exact labelKnown (fun l none => nomatch none)
    | some label =>
      refine labelNew (l := (label.name, sId, getBits4 d 20))
        { s.fig1 with fig1s4Vec := s.fig1.fig1s4Vec ++ [⟨label,getBits1 d 16,getBits4 d 20,sId⟩] } (fun x => ?_) rfl
      simp only [storedLabels,map_append,map_cons,map_nil,mem_append,mem_singleton]
      tauto

theorem fig1s5Handled (s : FibDecoder) : LabelHandled s (processFig1s5 toQString s d)
    ((extractCharacterSetLabel toQString d 48).map (fun label => (label.name, getLBits d 16 32, -5))) := by
  unfold processFig1s5
  dsimp only
  cases found : s.fig1.getFig1s5OfSId (getLBits d 16 32) with
  | some e =>
    refine labelKnown (fun l read => ?_)
    obtain ⟨label,-,rfl⟩ := Option.map_eq_some_iff.mp read
    have key := List.find?_some found
    simp only [decide_eq_true_eq] at key
    refine ⟨(e.label.name, e.sId, -5),?_,by rw [key]⟩
    exact mem_append_right _ (mem_map.mpr ⟨e,mem_of_find?_eq_some found,rfl⟩)
  | none =>
    cases extractCharacterSetLabel toQString d 48 with
    | none => exact labelKnown (fun l none => nomatch none)
    | some label =>
      refine labelNew (l := (label.name, getLBits d 16 32, -5))
        { s.fig1 with fig1s5Vec := s.fig1.fig1s5Vec ++ [⟨label,getLBits d 16 32⟩] } (fun x => ?_) rfl
      simp only [storedLabels,map_append,map_cons,map_nil,mem_append,mem_singleton]
      tauto

theorem fig1Handled (typed : getBits3 d 0 = 1) (extension : getBits3 d 13 = 1 ∨ getBits3 d 13 = 4 ∨ getBits3 d 13 = 5)
    (s : FibDecoder) : LabelHandled s (processFig toQString s d) (labelOf toQString d) := by
  unfold processFig processFig1 labelOf
  rw [typed,if_pos rfl]
  rcases extension with e | e | e
  · rw [e]
    exact fig1s1Handled toQString s
  · rw [e]
    exact fig1s4Handled toQString s
  · rw [e]
    exact fig1s5Handled toQString s

end Handlers

section Services
variable {d : Bits} {components : List Component}

structure Directory (components : List Component) (l : List Fig0s2) : Prop where
  stored : ∀ e ∈ l, ∃ c ∈ components, e.sId = c.sId ∧ e.serviceCompCIndex = c.index ∧ e.serviceCompC.tmId = c.tmId
  known : ∀ c ∈ components, ∃ e ∈ l, e.sId = c.sId ∧ e.serviceCompCIndex = c.index

theorem directoryKnown {l : List Fig0s2} {c : Component} (directory : Directory components l)
    (known : ∃ e ∈ l, e.sId = c.sId ∧ e.serviceCompCIndex = c.index) : Directory (components ++ [c]) l := by
  refine ⟨fun e inside => ?_,fun c' member => ?_⟩
  · obtain ⟨came,member,same⟩ := directory.stored e inside
    exact ⟨came,mem_append_left _ member,same⟩
  · rcases mem_append.mp member with old | new
    · exact directory.known c' old
    · rw [mem_singleton.mp new]
      exact known

theorem directoryStored {l : List Fig0s2} {c : Component} (directory : Directory components l) (e : Fig0s2)
    (read : e.sId = c.sId ∧ e.serviceCompCIndex = c.index ∧ e.serviceCompC.tmId = c.tmId) : Directory (components ++ [c]) (l ++ [e]) := by
  refine ⟨fun e' inside => ?_,fun c' member => ?_⟩
  · rcases mem_append.mp inside with old | new
    · obtain ⟨came,member,same⟩ := directory.stored e' old
      exact ⟨came,mem_append_left _ member,same⟩
    · rw [mem_singleton.mp new]
      exact ⟨c,mem_append_right _ (mem_singleton_self c),read⟩
  · rcases mem_append.mp member with old | new
    · obtain ⟨e',inside,same⟩ := directory.known c' old
      exact ⟨e',mem_append_left _ inside,same⟩
    · rw [mem_singleton.mp new]
      exact ⟨e,mem_append_right _ (mem_singleton_self e),read.1,read.2.1⟩

theorem componentDirectory (bitOffset : Nat) (acc : FibDecoder × Fig0s2)
    (directory : Directory components acc.1.fig0Curr.fig0s2Vec) (i : Nat) :
    Directory (components ++ [⟨acc.2.sId,i,getBits2 d (bitOffset + 16 * i)⟩])
      (fig0s2Component d 0 bitOffset acc i).1.fig0Curr.fig0s2Vec := by
  unfold fig0s2Component
  dsimp only
  split
  next e found =>
    have key := List.find?_some found
    simp only [decide_eq_true_eq] at key
    exact directoryKnown directory ⟨e,mem_of_find?_eq_some found,key⟩
  · rw [(retriggerStores _).curr]
    exact directoryStored directory _ ⟨rfl,rfl,rfl⟩

theorem componentsDirectory (bitOffset : Nat) (is : List Nat) (acc : FibDecoder × Fig0s2)
    (directory : Directory components acc.1.fig0Curr.fig0s2Vec) :
    Directory (components ++ is.map (fun i => ⟨acc.2.sId,i,getBits2 d (bitOffset + 16 * i)⟩))
      (is.foldl (fig0s2Component d 0 bitOffset) acc).1.fig0Curr.fig0s2Vec := by
  induction is generalizing acc components with
  | nil => simpa using directory
  | cons i is ih =>
    have rest := ih (fig0s2Component d 0 bitOffset acc i) (componentDirectory bitOffset acc directory i)
    rw [fig0s2ComponentSId,append_assoc] at rest
    exact rest

structure Framed (cnFlag : Nat) (s t : FibDecoder) : Prop where
  labels : t.fig1 = s.fig1
  going : t.restartFibDecoding = s.restartFibDecoding
  other : cnFlag ≠ 0 → t.fig0Curr = s.fig0Curr

theorem Framed.trans {cnFlag : Nat} {s t u : FibDecoder} (first : Framed cnFlag s t) (second : Framed cnFlag t u) : Framed cnFlag s u :=
  ⟨second.labels.trans first.labels,second.going.trans first.going,fun next => (second.other next).trans (first.other next)⟩

theorem componentFramed (cnFlag bitOffset : Nat) (acc : FibDecoder × Fig0s2) (i : Nat) :
    Framed cnFlag acc.1 (fig0s2Component d cnFlag bitOffset acc i).1 := by
  unfold fig0s2Component
  dsimp only
  split
  · exact ⟨rfl,rfl,fun _ => rfl⟩
  · refine ⟨(retriggerStores _).fig1.trans ?_,(retriggerFlag _).trans ?_,fun next => (retriggerStores _).curr.trans ?_⟩
    · unfold setConfig
      split <;> rfl
    · unfold setConfig
      split <;> rfl
    · unfold setConfig
      rw [if_neg next]

theorem componentsFramed (cnFlag bitOffset : Nat) (is : List Nat) (acc : FibDecoder × Fig0s2) :
    Framed cnFlag acc.1 (is.foldl (fig0s2Component d cnFlag bitOffset) acc).1 := by
  induction is generalizing acc with
  | nil => exact ⟨rfl,rfl,fun _ => rfl⟩
  | cons i is ih => exact (componentFramed cnFlag bitOffset acc i).trans (ih _)

theorem roundsFramed (fh : FigHeader) (fuel : Nat) (s : FibDecoder) (used : Nat) :
    Framed fh.cnFlag s (fig0Rounds subprocessFig0s2 d fh fuel s used) := by
  induction fuel generalizing s used with
  | zero => exact ⟨rfl,rfl,fun _ => rfl⟩
  | succ fuel ih =>
    unfold fig0Rounds
    split
    · have first : Framed fh.cnFlag s (subprocessFig0s2 s d used fh).1 := componentsFramed fh.cnFlag _ _ (s, _)
      dsimp only
      split
      · exact first
      · exact first.trans (ih _ _)
    · exact ⟨rfl,rfl,fun _ => rfl⟩

theorem roundsDirectory (fh : FigHeader) (curr : fh.cnFlag = 0) (fuel : Nat) (s : FibDecoder) (used : Nat)
    (going : s.restartFibDecoding = false) (directory : Directory components s.fig0Curr.fig0s2Vec) :
    Directory (components ++ componentsFrom d fh fuel used) (fig0Rounds subprocessFig0s2 d fh fuel s used).fig0Curr.fig0s2Vec := by
  induction fuel generalizing s used components with
  | zero => simpa [componentsFrom,fig0Rounds] using directory
  | succ fuel ih =>
    unfold fig0Rounds componentsFrom
    by_cases more : used ≤ fh.length
    · have first : Framed fh.cnFlag s (subprocessFig0s2 s d used fh).1 := componentsFramed fh.cnFlag _ _ (s, _)
      have entry : Directory (components ++ componentsAt d fh.pdFlag used) (subprocessFig0s2 s d used fh).1.fig0Curr.fig0s2Vec := by
        let width := if fh.pdFlag = 1 then 32 else 16
        let number := getBits4 d (8 * used + width + 4)
        let service : Fig0s2 := { pdFlag := fh.pdFlag, sId := getLBits d (8 * used) width, numServiceComp := number }
        unfold subprocessFig0s2
        rw [curr]
        exact componentsDirectory (8 * used + width + 8) (range number) (s, service) directory
      have calm := first.going.trans going
      rw [if_pos more,if_pos more]
      dsimp only
      rw [calm,if_neg Bool.false_ne_true,← append_assoc]
      exact ih _ _ calm entry
    · rw [if_neg more,if_neg more,append_nil]
      exact directory

theorem fig0s2Handled (typed : getBits3 d 0 = 0) (extension : getBits5 d 11 = 2) {s : FibDecoder}
    (toQString : Nat → List Nat → List Nat) (going : s.restartFibDecoding = false) (directory : Directory components s.fig0Curr.fig0s2Vec) :
    (processFig toQString s d).fig1 = s.fig1 ∧ (processFig toQString s d).restartFibDecoding = false ∧
    Directory (components ++ componentsOf d) (processFig toQString s d).fig0Curr.fig0s2Vec := by
  have loop : Framed (getBits1 d 8) s (processFig0Extension s d 2) := roundsFramed (getFigHeader d) 32 s 2
  have entries : Directory (components ++ componentsOf d) (processFig0Extension s d 2).fig0Curr.fig0s2Vec := by
    unfold componentsOf
    by_cases curr : getBits1 d 8 = 0
    · rw [if_pos ⟨typed,extension,curr⟩]
      exact roundsDirectory (getFigHeader d) curr 32 s 2 going directory
    · rw [if_neg (fun all => curr all.2.2),append_nil,loop.other curr]
      exact directory
  have calm := loop.going.trans going
  unfold processFig
  rw [typed]
  show (processFig0 s d).fig1 = _ ∧ (processFig0 s d).restartFibDecoding = _ ∧ Directory _ (processFig0 s d).fig0Curr.fig0s2Vec
  unfold processFig0
  rw [extension]
  dsimp only
  generalize processFig0Extension s d 2 = t at loop entries calm ⊢
  split
  · have same := (fastAudioAside t).stores
    rw [same.fig1,same.curr,microFlag (d := d) .fastAudio]
    exact ⟨loop.labels,calm,entries⟩
  · exact ⟨loop.labels,calm,entries⟩

end Services

section Runs
variable (toQString : Nat → List Nat → List Nat) {figs : List Bits} {s : FibDecoder}

def labelsIn (figs : List Bits) : List ServiceLabel := figs.filterMap (labelOf toQString)

def componentsIn (figs : List Bits) : List Component := figs.flatMap componentsOf

theorem labelsSnoc (figs : List Bits) (d : Bits) :
    labelsIn toQString (figs ++ [d]) = labelsIn toQString figs ++ (labelOf toQString d).toList := by
  unfold labelsIn
  rw [filterMap_append]
  cases read : labelOf toQString d <;> simp [read]

theorem componentsSnoc (figs : List Bits) (d : Bits) : componentsIn (figs ++ [d]) = componentsIn figs ++ componentsOf d := by
  unfold componentsIn
  rw [flatMap_append,flatMap_singleton]

structure Heard (figs : List Bits) (s : FibDecoder) : Prop where
  book : Book (labelsIn toQString figs) s.fig1
  directory : Directory (componentsIn figs) s.fig0Curr.fig0s2Vec

theorem figHeard (heard : Heard toQString figs s) (going : s.restartFibDecoding = false) {d : Bits} (concerned : Concerned d) :
    Heard toQString (figs ++ [d]) (processFig toQString s d) ∧ (processFig toQString s d).restartFibDecoding = false := by
  rcases concerned with ⟨typed,extension⟩ | ⟨typed,extension⟩
  · have handled := fig1Handled toQString typed extension s
    have noComponents : componentsOf d = [] := by simp [componentsOf,typed]
    refine ⟨⟨?_,?_⟩,handled.going.trans going⟩
    · have entered := handled.entered
      rw [labelsSnoc]
      cases read : labelOf toQString d with
      | none =>
        rw [read] at entered
        rw [show (processFig toQString s d).fig1 = s.fig1 from entered,Option.toList_none,append_nil]
        exact heard.book
      | some l =>
        rw [read] at entered
        exact enteredBook heard.book entered
    · rw [componentsSnoc,handled.services,noComponents,append_nil]
      exact heard.directory
  · obtain ⟨labels,flag,directory⟩ := fig0s2Handled typed extension toQString going heard.directory
    have noLabel : labelOf toQString d = none := by simp [labelOf,typed]
    refine ⟨⟨?_,?_⟩,flag⟩
    · rw [labelsSnoc,noLabel,labels,Option.toList_none,append_nil]
      exact heard.book
    · rw [componentsSnoc]
      exact directory

theorem fibRoundsHeard (fib : Bits) (fuel : Nat) {figs : List Bits} {s : FibDecoder} (heard : Heard toQString figs s)
    (going : s.restartFibDecoding = false) (processedBytes : Nat) (concerned : ∀ d ∈ figsFrom fib fuel processedBytes, Concerned d) :
    Heard toQString (figs ++ figsFrom fib fuel processedBytes) (fibRounds toQString fib fuel s processedBytes) := by
  induction fuel generalizing figs s processedBytes with
  | zero => simpa [figsFrom,fibRounds] using heard
  | succ fuel ih =>
    unfold fibRounds
    unfold figsFrom at concerned ⊢
    by_cases within : processedBytes < 30
    · rw [if_pos within] at concerned ⊢
      rw [if_pos within]
      dsimp only at concerned ⊢
      by_cases marker : isEndMarker (figAt fib processedBytes) = true
      · rw [if_pos marker,if_pos marker,append_nil]
        exact heard
      · rw [if_neg marker,forall_mem_cons] at concerned
        rw [if_neg marker,if_neg marker]
        obtain ⟨next,calm⟩ := figHeard toQString heard going concerned.1
        rw [calm,if_neg Bool.false_ne_true,append_cons]
        exact ih next calm _ concerned.2
    · rw [if_neg within,if_neg within,append_nil]
      exact heard

def figsReceived (fibs : List Bits) : List Bits := fibs.flatMap figsOf

def received (fibs : List Bits) : FibDecoder := run toQString {} (fibs.map Event.fib)

theorem runHeard (fibs : List Bits) (heard : Heard toQString figs s) (concerned : ∀ d ∈ figsReceived fibs, Concerned d) :
    Heard toQString (figs ++ figsReceived fibs) (run toQString s (fibs.map Event.fib)) := by
  induction fibs generalizing figs s with
  | nil => simpa [figsReceived,run] using heard
  | cons fib fibs ih =>
    unfold figsReceived at concerned ⊢
    rw [flatMap_cons,forall_mem_append] at concerned
    rw [flatMap_cons,← append_assoc]
    refine ih ?_ concerned.2
    exact @fibRoundsHeard toQString fib 30 figs { s with restartFibDecoding := false } ⟨heard.book,heard.directory⟩ rfl 0 concerned.1

theorem receivedHeard (fibs : List Bits) (concerned : ∀ d ∈ figsReceived fibs, Concerned d) :
    Heard toQString (figsReceived fibs) (received toQString fibs) := by
  have empty : Heard toQString [] {} := ⟨⟨by simp,by simp [storedLabels],by simp [labelsIn]⟩,⟨by simp,by simp [componentsIn]⟩⟩
  exact runHeard toQString fibs empty concerned

/- A listed service has one label of each kind, its text is no other service's or component's,
and a component is described once and for all as audio or not. -/
structure Agreeing (figs : List Bits) : Prop where
  oneLabel : ∀ l ∈ labelsIn toQString figs, ∀ other ∈ labelsIn toQString figs, l.2 = other.2 → l.2.2 ≤ 0 → l.1 = other.1
  oneService : ∀ l ∈ labelsIn toQString figs, ∀ other ∈ labelsIn toQString figs, l.1 = other.1 → l.2.2 ≤ 0 →
    other.2.2 ≤ 0 ∧ other.2.1 = l.2.1
  oneMode : ∀ c ∈ componentsIn figs, ∀ other ∈ componentsIn figs, c.sId = other.sId → c.index = other.index → c.tmId = 0 →
    other.tmId = 0

theorem audioExact (heard : Heard toQString figs s) (agreeing : Agreeing toQString figs)
    (sId : Nat) : (s.fig0Curr.getFig0s2OfSIdTMId sId 0).isSome = true ↔ ∃ c ∈ componentsIn figs, c.sId = sId ∧ c.tmId = 0 := by
  unfold FibConfigFig0.getFig0s2OfSIdTMId
  rw [List.find?_isSome]
  constructor
  · rintro ⟨e,stored,audio⟩
    simp only [decide_eq_true_eq] at audio
    obtain ⟨c,came,service,-,mode⟩ := heard.directory.stored e stored
    exact ⟨c,came,service.symm.trans audio.1,Int.natCast_eq_zero.mp (mode.symm.trans audio.2)⟩
  · rintro ⟨c,came,service,mode⟩
    obtain ⟨e,stored,sameService,sameIndex⟩ := heard.directory.known c came
    obtain ⟨c',came',service',index',mode'⟩ := heard.directory.stored e stored
    have audio := agreeing.oneMode c came c' came' (sameService.symm.trans service')
      (Int.ofNat.inj (sameIndex.symm.trans index')) mode
    refine ⟨e,stored,decide_eq_true ⟨sameService.trans service,?_⟩⟩
    rw [mode',audio]
    rfl

theorem serviceListExact (heard : Heard toQString figs s)
    (agreeing : Agreeing toQString figs) (entry : ServiceId) : entry ∈ s.getServiceList ↔
      ∃ l ∈ labelsIn toQString figs, l.2.2 ≤ 0 ∧ entry.serviceLabel = l.1 ∧ entry.sId = l.2.1 ∧ entry.hasSpiEpgData = false ∧
        (entry.isAudioChannel = true ↔ ∃ c ∈ componentsIn figs, c.sId = l.2.1 ∧ c.tmId = 0) := by
  unfold getServiceList
  rw [mem_map]
  constructor
  · rintro ⟨l,inside,rfl⟩
    obtain ⟨mapped,listed⟩ := mem_filter.mp inside
    exact ⟨l,heard.book.mapped l mapped,of_decide_eq_true listed,rfl,rfl,rfl,audioExact toQString heard agreeing l.2.1⟩
  · rintro ⟨l,came,listed,text,service,spi,audio⟩
    obtain ⟨x,stored,sameKey⟩ := heard.book.known l came
    obtain ⟨stays,y,mapped,sameText⟩ := heard.book.stored x stored
    -- the label of the map may be another one, but of the same text
    have equalText : l.1 = y.1 := (agreeing.oneLabel l came x stays sameKey.symm listed).trans sameText.symm
    obtain ⟨also,sameService⟩ := agreeing.oneService l came y (heard.book.mapped y mapped) equalText listed
    refine ⟨y,mem_filter.mpr ⟨mapped,decide_eq_true also⟩,?_⟩
    have flag : (s.fig0Curr.getFig0s2OfSIdTMId y.2.1 0).isSome = entry.isAudioChannel := by
      rw [Bool.eq_iff_iff,audioExact toQString heard agreeing,audio,sameService]
    rw [flag,sameService,← equalText,← text,← service,← spi]

theorem serviceListOrder (fibs other : List Bits) (concerned : ∀ d ∈ figsReceived fibs ++ figsReceived other, Concerned d)
    (sameLabels : ∀ l, l ∈ labelsIn toQString (figsReceived fibs) ↔ l ∈ labelsIn toQString (figsReceived other))
    (sameComponents : ∀ c, c ∈ componentsIn (figsReceived fibs) ↔ c ∈ componentsIn (figsReceived other))
    (agreeing : Agreeing toQString (figsReceived fibs)) :
    (∀ entry, entry ∈ (received toQString fibs).getServiceList ↔ entry ∈ (received toQString other).getServiceList) ∧
    ∀ l ∈ labelsIn toQString (figsReceived fibs), l.2.2 = -1 ∨ l.2.2 = -5 →
      ∃ entry ∈ (received toQString fibs).getServiceList, entry.serviceLabel = l.1 ∧ entry.sId = l.2.1 := by
  rw [forall_mem_append] at concerned
  have heard := receivedHeard toQString fibs concerned.1
  have heardOther := receivedHeard toQString other concerned.2
  have agreeingOther : Agreeing toQString (figsReceived other) := by
    refine ⟨fun l came l' came' => ?_,fun l came l' came' => ?_,fun c came c' came' => ?_⟩
    · exact agreeing.oneLabel l ((sameLabels l).mpr came) l' ((sameLabels l').mpr came')
    · exact agreeing.oneService l ((sameLabels l).mpr came) l' ((sameLabels l').mpr came')
    · exact agreeing.oneMode c ((sameComponents c).mpr came) c' ((sameComponents c').mpr came')
  refine ⟨fun entry => ?_,fun l came primary => ?_⟩
  · rw [serviceListExact toQString heard agreeing,serviceListExact toQString heardOther agreeingOther]
    simp only [sameLabels,sameComponents]
  · let entry : ServiceId :=
      { serviceLabel := l.1, sId := l.2.1, isAudioChannel := decide (∃ c ∈ componentsIn (figsReceived fibs), c.sId = l.2.1 ∧ c.tmId = 0) }
    refine ⟨entry,(serviceListExact toQString heard agreeing entry).mpr ⟨l,came,?_,rfl,rfl,rfl,decide_eq_true_iff⟩,rfl,rfl⟩
    rcases primary with one | five <;> omega

end Runs

section Orders
open Multiplex (fibOf plainText)

def labelFib (low letter : Nat) : Bits := fibOf ([0x35,0x01,0x10,low,letter] ++ replicate 15 0x20 ++ [0x80,0x00,0xFF])

def audioFib : Bits := fibOf [0x06,0x02,0x10,0x01,0x01,0x3F,0x06,0xFF]

theorem labelsAndServiceOrdered :
    (received plainText [labelFib 1 0x41,labelFib 2 0x42,audioFib]).getServiceList.map ServiceId.sId = [0x1001,0x1002] ∧
    ∀ entry, entry ∈ (received plainText [labelFib 1 0x41,labelFib 2 0x42,audioFib]).getServiceList ↔
      entry ∈ (received plainText [audioFib,labelFib 2 0x42,labelFib 1 0x41]).getServiceList := by
  refine ⟨by decide,(serviceListOrder plainText [labelFib 1 0x41,labelFib 2 0x42,audioFib]
    [audioFib,labelFib 2 0x42,labelFib 1 0x41] (by decide) (fun l => ?_) (fun c => ?_)
    ⟨by decide,by decide,by decide⟩).1⟩
  · simp only [figsReceived,labelsIn,flatMap_cons,flatMap_nil,append_nil,filterMap_append,mem_append]
    tauto
  · simp only [figsReceived,componentsIn,flatMap_cons,flatMap_nil,append_nil,flatMap_append,mem_append]
    tauto

theorem equalLabelsOrdered : (received plainText [labelFib 1 0x41,labelFib 2 0x41]).getServiceList.map ServiceId.sId = [0x1001] ∧
    (received plainText [labelFib 2 0x41,labelFib 1 0x41]).getServiceList.map ServiceId.sId = [0x1002] := by decide

end Orders

end DabStar.Fib.FibDecoder
