import DabStar.AudioPipeline
import DabStar.Lib.Groups

/-! The rate adaption across blocks. At a border of groups nothing is open, but a whole group
is taken for the rest of one, and a block that is shorter than the open rest is read behind its
end. -/
namespace DabStar.AudioPipeline
open List Lib.Groups

section Specification
variable (mode : ESampleAdaptMode)

def adaptGroup (group : List I16) : List I16 :=
  match mode with
  | .addSamples => group.take 2 ++ group
  | .removeSamples => group.drop 2
  | .idle | .noChange => group

def adapt (input : List I16) : List I16 := (groups 200 input).flatMap (adaptGroup mode)

def samples (transfers : List Transfer) : List I16 := transfers.flatMap (·.samples)

def Inside (block : List I16) (transfers : List Transfer) : Prop := ∀ t ∈ transfers, t.first + t.samples.length ≤ block.length
  deriving Decidable

def pushAll (s : AudioPipeline) (blocks : List (List I16)) : AudioPipeline × List I16 :=
  blocks.foldl (fun (s, output) block =>
    let (s, transfers) := s.pushRateAdaptiveSamplesToAudioBuffer block
    (s, output ++ samples transfers)) (s, [])

def Adapted (s : AudioPipeline) (blocks : List (List I16)) : Prop :=
  ∀ front block, front ++ [block] <+: blocks →
    (s.pushAll (front ++ [block])).2 = adapt s.mSampleAdaptMode (front ++ [block]).flatten ∧
      Inside block ((s.pushAll front).1.pushRateAdaptiveSamplesToAudioBuffer block).2

/- A block begins inside a group and reaches to the end of that group. -/
def CutInside (blocks : List (List I16)) : Prop :=
  ∀ front block, front ++ [block] <+: blocks → front ≠ [] →
    front.flatten.length % 200 ≠ 0 ∧ 200 - front.flatten.length % 200 ≤ block.length

end Specification

section Groups
variable {mode : ESampleAdaptMode}

def Adapting (mode : ESampleAdaptMode) : Prop := mode = .addSamples ∨ mode = .removeSamples

theorem adaptNil : adapt mode [] = [] := by rw [adapt,groupsNil (by decide),flatMap_nil]

theorem adaptWhole {first : List I16} (whole : first.length = 200) (rest : List I16) :
    adapt mode (first ++ rest) = adaptGroup mode first ++ adapt mode rest := by
  rw [adapt,groupsWhole (by decide) whole,flatMap_cons,adapt]

theorem adaptShort {l : List I16} (some : 0 < l.length) (short : l.length ≤ 200) : adapt mode l = adaptGroup mode l := by
  rw [adapt,groupsShort some short,flatMap_singleton]

theorem adaptAppend {front : List I16} {k : Nat} (border : front.length = 200 * k) (rest : List I16) :
    adapt mode (front ++ rest) = adapt mode front ++ adapt mode rest := by
  rw [adapt,groupsAppend (by decide) border,flatMap_append,adapt,adapt]

theorem adaptGroupAppend {part : List I16} (begun : 2 ≤ part.length) (rest : List I16) :
    adaptGroup mode (part ++ rest) = adaptGroup mode part ++ rest := by
  cases mode with
  | addSamples => rw [adaptGroup,adaptGroup,take_append_of_le_length begun,append_assoc]
  | removeSamples => rw [adaptGroup,adaptGroup,drop_append_of_le_length begun]
  | idle | noChange => rfl

theorem adaptComplete {front rest : List I16} (begun : 2 ≤ front.length % 200) (fits : front.length % 200 + rest.length ≤ 200) :
    adapt mode (front ++ rest) = adapt mode front ++ rest := by
  have border : (front.take (200 * (front.length / 200))).length = 200 * (front.length / 200) := by
    rw [length_take]
    omega
  have part : (front.drop (200 * (front.length / 200))).length = front.length % 200 := by
    rw [length_drop]
    omega
  have cut := take_append_drop (200 * (front.length / 200)) front
  have last : adapt mode (front.drop (200 * (front.length / 200)) ++ rest) =
      adapt mode (front.drop (200 * (front.length / 200))) ++ rest := by
    rw [adaptShort (by rw [length_append]; omega) (by rw [length_append]; omega),adaptShort (by omega) (by omega),
      adaptGroupAppend (by omega)]
  rw [← cut,append_assoc,adaptAppend border,adaptAppend border,last,append_assoc]

theorem adaptGroupLength (adapting : Adapting mode) {group : List I16} (whole : group.length = 200) :
    (adaptGroup mode group).length ≠ 200 := by
  rcases adapting with add | remove
  · rw [add,adaptGroup,length_append,length_take]
    omega
  · rw [remove,adaptGroup,length_drop]
    omega

end Groups

section Loop
variable {mode : ESampleAdaptMode} (block : List I16) {loc : Nat}

theorem transferInside {first count : Nat} (inside : first + count ≤ block.length) :
    transfer block first count = ⟨first,(block.drop first).take count⟩ := by
  rw [transfer,Int.toNat_natCast,Int.toNat_natCast,stretch block 0#16 inside]

theorem samplesAppend (front rest : List Transfer) : samples (front ++ rest) = samples front ++ samples rest := flatMap_append

theorem insideAppend (front rest : List Transfer) : Inside block (front ++ rest) ↔ Inside block front ∧ Inside block rest :=
  forall_mem_append

theorem groupPut (adapting : Adapting mode) (whole : loc + 200 ≤ block.length) :
    samples (putGroup mode block loc) = adaptGroup mode ((block.drop loc).take 200) ∧ Inside block (putGroup mode block loc) := by
  rcases adapting with add | remove
  · have first : transfer block loc 2 = ⟨loc,(block.drop loc).take 2⟩ := transferInside block (show loc + 2 ≤ block.length by omega)
    have all : transfer block loc cInsertSamplesToPatchSampleRelation = ⟨loc,(block.drop loc).take 200⟩ := transferInside block whole
    subst add
    rw [putGroup,first,all]
    simp [samples,adaptGroup,Inside,take_take]
    omega
  · have rest : transfer block (loc + 2) (cInsertSamplesToPatchSampleRelation - 2) =
        ⟨loc + 2,(block.drop (loc + 2)).take 198⟩ := transferInside block (show loc + 2 + 198 ≤ block.length by omega)
    subst remove
    rw [putGroup,rest]
    simp [samples,adaptGroup,Inside,drop_take]
    omega

theorem remainingPut (adapting : Adapting mode) (begins : loc ≤ block.length) (even : (block.length - loc) % 2 = 0)
    (short : block.length - loc < 200) : samples (putRemaining mode block loc (block.length - loc)) = adapt mode (block.drop loc) ∧
      Inside block (putRemaining mode block loc (block.length - loc)) := by
  have count : (block.length : Int) - loc = (block.length - loc : Nat) := by omega
  have all : (block.drop loc).take (block.length - loc) = block.drop loc := take_of_length_le (by simp)
  by_cases none : block.length - loc = 0
  · have empty : block.drop loc = [] := drop_eq_nil_of_le (by omega)
    rw [count,none,empty,adaptNil]
    rcases adapting with add | remove
    · subst add
      exact ⟨rfl,forall_mem_nil _⟩
    · subst remove
      exact ⟨rfl,forall_mem_nil _⟩
  · rw [adaptShort (by rw [length_drop]; omega) (by rw [length_drop]; omega),count]
    rcases adapting with add | remove
    · have first : transfer block loc 2 = ⟨loc,(block.drop loc).take 2⟩ := transferInside block (show loc + 2 ≤ block.length by omega)
      have rest := transferInside block (show loc + (block.length - loc) ≤ block.length by omega)
      subst add
      rw [putRemaining]
      rw [if_pos (by omega),first,rest,all]
      simp [samples,adaptGroup,Inside]
      omega
    · subst remove
      rw [putRemaining]
      split
      · have rest : transfer block (loc + 2) ((block.length - loc : Nat) - 2) =
            ⟨loc + 2,(block.drop (loc + 2)).take (block.length - loc - 2)⟩ := by
          have fewer : ((block.length - loc : Nat) : Int) - 2 = (block.length - loc - 2 : Nat) := by omega
          rw [fewer]
          exact transferInside block (show loc + 2 + (block.length - loc - 2) ≤ block.length by omega)
        have last : (block.drop (loc + 2)).take (block.length - loc - 2) = block.drop (loc + 2) :=
          take_of_length_le (by rw [length_drop]; omega)
        rw [rest,last]
        simp [samples,adaptGroup,Inside]
        omega
      · have two : (block.drop loc).length ≤ 2 := by
          rw [length_drop]
          omega
        rw [adaptGroup,drop_eq_nil_of_le two]
        exact ⟨rfl,forall_mem_nil _⟩

theorem groupsPut (adapting : Adapting mode) (fuel : Nat) (begins : loc ≤ block.length)
    (even : (block.length - loc) % 2 = 0) (enough : block.length - loc < 200 * (fuel + 1)) :
    ∃ last : Nat, (putGroups mode block fuel loc).2 = last ∧ last ≤ block.length ∧ block.length - last = (block.length - loc) % 200 ∧
      samples ((putGroups mode block fuel loc).1 ++ putRemaining mode block last (block.length - last)) = adapt mode (block.drop loc) ∧
      Inside block ((putGroups mode block fuel loc).1 ++ putRemaining mode block last (block.length - last)) := by
  induction fuel generalizing loc with
  | zero =>
    have short : block.length - loc < 200 := by omega
    exact ⟨loc,rfl,begins,(Nat.mod_eq_of_lt short).symm,remainingPut block adapting begins even short⟩
  | succ fuel ih =>
    by_cases whole : loc + 200 ≤ block.length
    · have go : (block.length : Int) - loc ≥ cInsertSamplesToPatchSampleRelation := by
        rw [cInsertSamplesToPatchSampleRelation]
        omega
      obtain ⟨last,stops,ends,left,output,inside⟩ := @ih (loc + 200) whole (by omega) (by omega)
      obtain ⟨first,read⟩ := groupPut block adapting whole
      have cut : block.drop loc = (block.drop loc).take 200 ++ block.drop (loc + 200) := by rw [← drop_drop,take_append_drop]
      have group : ((block.drop loc).take 200).length = 200 := by
        rw [length_take,length_drop]
        omega
      have step : putGroups mode block (fuel + 1) loc = (putGroup mode block loc ++ (putGroups mode block fuel (loc + 200 : Nat)).1,
            (putGroups mode block fuel (loc + 200 : Nat)).2) := by
        rw [putGroups,if_pos go]
        rfl
      rw [step,cut,adaptWhole group]
      refine ⟨last,stops,ends,by omega,?_,?_⟩
      · rw [append_assoc,samplesAppend,output,first]
      · rw [append_assoc,insideAppend]
        exact ⟨read,inside⟩
    · have stop : ¬ (block.length : Int) - loc ≥ cInsertSamplesToPatchSampleRelation := by
        rw [cInsertSamplesToPatchSampleRelation]
        omega
      have short : block.length - loc < 200 := by omega
      rw [putGroups,if_neg stop]
      exact ⟨loc,rfl,begins,(Nat.mod_eq_of_lt short).symm,remainingPut block adapting begins even short⟩

end Loop

section Blocks
variable {s : AudioPipeline} {block : List I16}

theorem adaptingMode (adapting : Adapting s.mSampleAdaptMode) : ¬ (s.mSampleAdaptMode = .noChange ∨ s.mSampleAdaptMode = .idle) := by
  rcases adapting with add | remove
  · simp [add]
  · simp [remove]

theorem pushComplete (adapting : Adapting s.mSampleAdaptMode) {r : Nat} (remaining : s.mRemainingSampleCount = r)
    (fits : r ≤ block.length) (even : (block.length - r) % 2 = 0) : (s.pushRateAdaptiveSamplesToAudioBuffer block).1 =
        { s with mRemainingSampleCount := 200 - ((block.length - r) % 200 : Nat) } ∧
      samples (s.pushRateAdaptiveSamplesToAudioBuffer block).2 = block.take r ++ adapt s.mSampleAdaptMode (block.drop r) ∧
      Inside block (s.pushRateAdaptiveSamplesToAudioBuffer block).2 := by
  obtain ⟨last,stops,ends,left,output,inside⟩ := groupsPut block adapting block.length fits even (by omega)
  have loc : (if s.mRemainingSampleCount > 0 then s.mRemainingSampleCount else 0) = r := by
    rw [remaining]
    split <;> omega
  have first : samples (if s.mRemainingSampleCount > 0 then [transfer block 0 s.mRemainingSampleCount] else []) = block.take r ∧
      Inside block (if s.mRemainingSampleCount > 0 then [transfer block 0 s.mRemainingSampleCount] else []) := by
    have rest : transfer block 0 r = ⟨0,block.take r⟩ := transferInside block (show 0 + r ≤ block.length by omega)
    rw [remaining]
    split
    · rw [rest]
      simp [samples,Inside]
    · rename_i none
      have zero : r = 0 := by omega
      rw [zero,take_zero]
      exact ⟨rfl,forall_mem_nil _⟩
  rw [pushRateAdaptiveSamplesToAudioBuffer,if_neg (adaptingMode adapting)]
  dsimp only
  rw [loc,stops,append_assoc,samplesAppend,insideAppend,first.1,output]
  refine ⟨?_,rfl,first.2,inside⟩
  rw [← left,cInsertSamplesToPatchSampleRelation]
  congr 1
  omega

theorem pushBehind (adapting : Adapting s.mSampleAdaptMode) (behind : s.mRemainingSampleCount > block.length) :
    ¬ Inside block (s.pushRateAdaptiveSamplesToAudioBuffer block).2 := by
  intro inside
  rw [pushRateAdaptiveSamplesToAudioBuffer,if_neg (adaptingMode adapting)] at inside
  dsimp only at inside
  rw [if_pos (by omega)] at inside
  have first := inside (transfer block 0 s.mRemainingSampleCount) (by simp)
  simp only [transfer,length_map,length_range] at first
  omega

end Blocks

section Runs
variable (s : AudioPipeline) {blocks : List (List I16)}

theorem pushAllConcat (front : List (List I16)) (block : List I16) : s.pushAll (front ++ [block]) =
      (((s.pushAll front).1.pushRateAdaptiveSamplesToAudioBuffer block).1,
        (s.pushAll front).2 ++ samples ((s.pushAll front).1.pushRateAdaptiveSamplesToAudioBuffer block).2) := by
  rw [pushAll,foldl_append]
  rfl

def carry (n : Nat) : Nat := if n = 0 then 0 else 200 - n % 200

structure Carried (front : List (List I16)) : Prop where
  state : (s.pushAll front).1 = { s with mRemainingSampleCount := carry front.flatten.length }
  output : (s.pushAll front).2 = adapt s.mSampleAdaptMode front.flatten

def Stereo (blocks : List (List I16)) : Prop := ∀ block ∈ blocks, block ≠ [] ∧ block.length % 2 = 0

theorem evenFlatten (even : Stereo blocks) : blocks.flatten.length % 2 = 0 := by
  induction blocks with
  | nil => rfl
  | cons block blocks ih =>
    have first := (even block mem_cons_self).2
    have rest := ih (fun b member => even b (mem_cons_of_mem _ member))
    rw [flatten_cons,length_append]
    omega

theorem someFlatten (even : Stereo blocks) (some : blocks ≠ []) : blocks.flatten.length ≠ 0 := by
  obtain ⟨block,rest,rfl⟩ := exists_cons_of_ne_nil some
  have first := length_pos_of_ne_nil (even block mem_cons_self).1
  rw [flatten_cons,length_append]
  omega

variable {s} {front : List (List I16)} {block : List I16}

theorem flattenConcat : (front ++ [block]).flatten = front.flatten ++ block := by simp

theorem carryEven {n : Nat} (even : n % 2 = 0) : carry n % 2 = 0 := by
  unfold carry
  split <;> omega

theorem carryNext {n m : Nat} (some : n + m ≠ 0) (fits : carry n ≤ m) : carry (n + m) = 200 - (m - carry n) % 200 := by
  rw [carry,if_neg some]
  by_cases none : n = 0
  · rw [carry,if_pos none]
    omega
  · rw [carry,if_neg none] at fits ⊢
    omega

theorem adaptAcross {mode : ESampleAdaptMode} {input : List I16} (begun : input = [] ∨ 2 ≤ input.length % 200)
    (fits : carry input.length ≤ block.length) :
    adapt mode (input ++ block) = adapt mode input ++ (block.take (carry input.length) ++ adapt mode (block.drop (carry input.length))) := by
  rcases begun with none | some
  · rw [none,length_nil,carry,if_pos rfl,take_zero,drop_zero,adaptNil,nil_append,nil_append,nil_append]
  · have rest : carry input.length = 200 - input.length % 200 := if_neg (by omega)
    have taken : (block.take (carry input.length)).length = carry input.length := by
      rw [length_take]
      omega
    have border : (input ++ block.take (carry input.length)).length = 200 * (input.length / 200 + 1) := by
      rw [length_append,taken,rest]
      omega
    have cut := take_append_drop (carry input.length) block
    conv_lhs => rw [← cut,← append_assoc,adaptAppend border,adaptComplete some (by omega),append_assoc]

theorem carriedNext (adapting : Adapting s.mSampleAdaptMode) (carried : s.Carried front) (even : Stereo (front ++ [block]))
    (fits : carry front.flatten.length ≤ block.length) :
    (s.pushAll (front ++ [block])).1 = { s with mRemainingSampleCount := carry (front ++ [block]).flatten.length } ∧
      (s.pushAll (front ++ [block])).2 = adapt s.mSampleAdaptMode front.flatten ++
        (block.take (carry front.flatten.length) ++ adapt s.mSampleAdaptMode (block.drop (carry front.flatten.length))) ∧
      Inside block ((s.pushAll front).1.pushRateAdaptiveSamplesToAudioBuffer block).2 := by
  have total := evenFlatten even
  have before : front.flatten.length % 2 = 0 := evenFlatten (fun b member => even b (mem_append_left _ member))
  have some := someFlatten even (by simp)
  have rest := carryEven before
  rw [flattenConcat,length_append] at total some
  obtain ⟨state,output,inside⟩ := pushComplete (s := { s with mRemainingSampleCount := carry front.flatten.length })
    adapting rfl fits (by omega)
  rw [pushAllConcat,carried.state,carried.output,state,output]
  refine ⟨?_,rfl,inside⟩
  rw [flattenConcat,length_append]
  have next := carryNext some fits
  congr 1
  omega

theorem nextAdapted (adapting : Adapting s.mSampleAdaptMode) (carried : s.Carried front) (even : Stereo (front ++ [block])) :
    (s.pushAll (front ++ [block])).2 = adapt s.mSampleAdaptMode (front ++ [block]).flatten ∧
        Inside block ((s.pushAll front).1.pushRateAdaptiveSamplesToAudioBuffer block).2 ↔
      (front ≠ [] → front.flatten.length % 200 ≠ 0 ∧ 200 - front.flatten.length % 200 ≤ block.length) := by
  have stereo : Stereo front := fun b member => even b (mem_append_left _ member)
  have before := evenFlatten stereo
  by_cases fits : carry front.flatten.length ≤ block.length
  · obtain ⟨-,output,inside⟩ := carriedNext adapting carried even fits
    rw [output,flattenConcat]
    by_cases border : front ≠ [] ∧ front.flatten.length % 200 = 0
    · obtain ⟨some,whole⟩ := border
      -- a whole group goes out as it is
      have all : carry front.flatten.length = 200 := by rw [carry,if_neg (someFlatten stereo some),whole]
      have first : (block.take 200).length = 200 := by
        rw [length_take]
        omega
      refine ⟨fun right => ?_,fun inner => absurd whole (inner some).1⟩
      have cut := take_append_drop 200 block
      have expected : adapt s.mSampleAdaptMode (front.flatten ++ block) = adapt s.mSampleAdaptMode front.flatten ++
          (adaptGroup s.mSampleAdaptMode (block.take 200) ++ adapt s.mSampleAdaptMode (block.drop 200)) := by
        rw [adaptAppend (show front.flatten.length = 200 * (front.flatten.length / 200) by omega)]
        conv_lhs => rw [← cut,adaptWhole first]
      have lengths := congrArg List.length right.1
      rw [all,expected,length_append,length_append,length_append,length_append,first] at lengths
      have other := adaptGroupLength adapting first
      omega
    · refine iff_of_true ⟨?_,inside⟩ (fun some => ⟨fun whole => border ⟨some,whole⟩,?_⟩)
      · rw [adaptAcross ?_ fits]
        by_cases none : front = []
        · exact .inl (by rw [none]; rfl)
        · have inner : front.flatten.length % 200 ≠ 0 := fun whole => border ⟨none,whole⟩
          exact .inr (by omega)
      · rwa [carry,if_neg (someFlatten stereo some)] at fits
  · have some : front ≠ [] := by
      intro none
      rw [none,flatten_nil,length_nil,carry,if_pos rfl] at fits
      omega
    have long : 200 - front.flatten.length % 200 > block.length := by
      rw [carry,if_neg (someFlatten stereo some)] at fits
      omega
    refine iff_of_false (fun right => ?_) (fun inner => absurd (inner some).2 (by omega))
    refine pushBehind ?_ ?_ right.2
    · rw [carried.state]
      exact adapting
    · rw [carried.state]
      dsimp only
      omega

theorem cutConcat : CutInside (blocks ++ [block]) ↔ CutInside blocks ∧
      (blocks ≠ [] → blocks.flatten.length % 200 ≠ 0 ∧ 200 - blocks.flatten.length % 200 ≤ block.length) := by
  constructor
  · intro cut
    exact ⟨fun front b before => cut front b (before.trans (prefix_append _ _)),cut blocks block (prefix_refl _)⟩
  · rintro ⟨cut,last⟩ front b before
    rcases prefix_concat_iff.mp before with whole | inner
    · obtain ⟨rfl,one⟩ := append_inj' whole rfl
      cases one
      exact last
    · exact cut front b inner

theorem adaptedConcat : s.Adapted (blocks ++ [block]) ↔ s.Adapted blocks ∧
      ((s.pushAll (blocks ++ [block])).2 = adapt s.mSampleAdaptMode (blocks ++ [block]).flatten ∧
        Inside block ((s.pushAll blocks).1.pushRateAdaptiveSamplesToAudioBuffer block).2) := by
  constructor
  · intro adapted
    exact ⟨fun front b before => adapted front b (before.trans (prefix_append _ _)),adapted blocks block (prefix_refl _)⟩
  · rintro ⟨adapted,last⟩ front b before
    rcases prefix_concat_iff.mp before with whole | inner
    · obtain ⟨rfl,one⟩ := append_inj' whole rfl
      cases one
      exact last
    · exact adapted front b inner

theorem adaptedCarried (adapting : Adapting s.mSampleAdaptMode) (start : s.mRemainingSampleCount = 0)
    (blocks : List (List I16)) (even : Stereo blocks) : (s.Adapted blocks ↔ CutInside blocks) ∧ (CutInside blocks → s.Carried blocks) := by
  induction blocks using List.reverseRecOn with
  | nil =>
    refine ⟨iff_of_true (fun front block before => ?_) (fun front block before => ?_),fun _ => ⟨?_,adaptNil.symm⟩⟩
    · exact absurd (prefix_nil.mp before) (by simp)
    · exact absurd (prefix_nil.mp before) (by simp)
    · cases s
      cases start
      rfl
  | append_singleton blocks block ih =>
    obtain ⟨same,state⟩ := ih (fun b member => even b (mem_append_left _ member))
    rw [adaptedConcat,cutConcat,same]
    refine ⟨and_congr_right fun cut => nextAdapted adapting (state cut) even,?_⟩
    rintro ⟨cut,last⟩
    have right := (nextAdapted adapting (state cut) even).mpr last
    have fits : carry blocks.flatten.length ≤ block.length := by
      unfold carry
      split
      · exact Nat.zero_le _
      · rename_i some
        exact (last (fun none => some (by rw [none]; rfl))).2
    exact ⟨(carriedNext adapting (state cut) even fits).1,right.1⟩

theorem adaptedCut (s : AudioPipeline) (blocks : List (List I16)) (adapting : Adapting s.mSampleAdaptMode)
    (start : s.mRemainingSampleCount = 0) (even : Stereo blocks) : s.Adapted blocks ↔ CutInside blocks :=
  (adaptedCarried adapting start blocks even).1

def adding : AudioPipeline := { new with mSampleAdaptMode := .addSamples }

theorem adaptedCutTwice : adding.Adapted [replicate 100 0#16,replicate 102 1#16] ↔ CutInside [replicate 100 0#16,replicate 102 1#16] := by
  apply adaptedCut
  · exact .inl rfl
  · rfl
  · simp only [Stereo,forall_mem_cons,length_replicate]
    decide

theorem blocksMisadapted : ¬ adding.Adapted [[1#16,2#16],[3#16,4#16]] ∧ ¬ adding.Adapted [replicate 200 0#16,replicate 200 0#16] := by
  constructor
  · intro adapted
    have inside := (adapted [[1#16,2#16]] [3#16,4#16] (prefix_refl _)).2
    revert inside
    decide +kernel
  · intro adapted
    have output := congrArg List.length (adapted [replicate 200 0#16] (replicate 200 0#16) (prefix_refl _)).1
    revert output
    decide +kernel

end Runs

end DabStar.AudioPipeline
