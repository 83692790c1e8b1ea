import DabStar.FibReturns

/-! Which bits a FIG is read from. Nothing compares the length a FIG announces with what its
handler reads; the reads stay inside if and only if the FIG has the length the handler needs in
its state. -/
namespace DabStar.Fib.FibReads
open List Lib.BitReader Lib.BitReader.Reader
open FibDecoder (EntryFig sIdWidth figAt isEndMarker)

def room (d : Bits) : Nat := 8 * (getBits5 d 3 + 1)

section Entries

def appOffsets (d : Bits) : Nat → Nat → List Nat
  | 0, _ => []
  | count + 1, bitOffset => bitOffset :: appOffsets d count (bitOffset + (16 + 8 * getBits5 d (bitOffset + 11)))

def appBits (d : Bits) (pdFlag bitOffset : Nat) : Nat := if pdFlag = 0 ∧ getBits5 d (bitOffset + 11) ≥ 2 then 32 else 16

def EntryComplete (f : EntryFig) (s : FibDecoder) (d : Bits) (fh : FigHeader) (behind used : Nat) : Prop :=
  let idBytes := sIdWidth fh.pdFlag / 8
  match f with
  | .fig0s1 => (s.getConfig fh.cnFlag).getFig0s1OfSubChId (getBits6 d (used * 8)) = none →
      used + FibDecoder.entryBytes (FibDecoder.readFig0s1 d (used * 8)) ≤ behind
  | .fig0s2 => used + idBytes + 1 ≤ behind ∧ ∀ i < getBits4 d (8 * used + sIdWidth fh.pdFlag + 4),
      (s.getConfig fh.cnFlag).getFig0s2OfSIdScIdx (getLBits d (8 * used) (sIdWidth fh.pdFlag)) i = none →
        used + idBytes + 1 + 2 * (i + 1) ≤ behind
  | .fig0s3 => used + 2 ≤ behind ∧ ((s.getConfig fh.cnFlag).getFig0s3OfSCId (getBits d (used * 8) 12) = none →
      used + (if getBits1 d (used * 8 + 15) = 1 then 12 else 5) ≤ behind)
  | .fig0s5 => used + (if getBits1 d (used * 8) = 0 then 2 else 3) ≤ behind
  | .fig0s8 => used + idBytes + (if getBits1 d (used * 8 + sIdWidth fh.pdFlag + 8) = 0 then 2 else 3) ≤ behind
  | .fig0s13 => used + idBytes + 1 ≤ behind ∧
      (s.fig0Curr.getFig0s13OfSIdSCIdS (getLBits d (used * 8) (sIdWidth fh.pdFlag)) (getBits4 d (used * 8 + sIdWidth fh.pdFlag)) = none →
        ∀ o ∈ appOffsets d (min (getBits4 d (used * 8 + sIdWidth fh.pdFlag + 4)) 6) (used * 8 + sIdWidth fh.pdFlag + 8),
          o + appBits d fh.pdFlag o ≤ 8 * behind)
  | .fig0s14 => True

instance (f : EntryFig) (s : FibDecoder) (d : Bits) (fh : FigHeader) (behind used : Nat) :
    Decidable (EntryComplete f s d fh behind used) := by
  cases f <;> (unfold EntryComplete; infer_instance)

variable (d : Bits) (s : FibDecoder) (fh : FigHeader) {behind used : Nat}

theorem fig0s1FieldsWithin (bitOffset subChId size : Nat) : (readFig0s1 bitOffset subChId).Within (getBits d) size ↔
      bitOffset + 8 * FibDecoder.entryBytes (FibDecoder.readFig0s1 d bitOffset) ≤ size := by
  have form : FibDecoder.entryBytes (FibDecoder.readFig0s1 d bitOffset) = if getBits d (bitOffset + 16) 1 = 0 then 3 else 4 := by
    unfold FibDecoder.entryBytes FibDecoder.readFig0s1
    delta getBits1 getBits2 getBits3 getBits6
    dsimp only
    split_ifs <;> first | rfl | contradiction
  rw [form]
  simp only [readFig0s1,withinFieldBind,withinIf,withinPure]
  split_ifs with short
  · simp only [short,true_implies,not_true_eq_false,false_implies,and_true]
    omega
  · simp only [short,false_implies,not_false_eq_true,true_implies,implies_true,and_true,true_and]
    omega

theorem fig0s1Within (inside : used < behind) : (subprocessFig0s1 s used fh).Within (getBits d) (8 * behind) ↔
    EntryComplete .fig0s1 s d fh behind used := by
  have value : (readFig0s1 (used * 8) (getBits d (used * 8) 6)).run (getBits d) = _ := fig0s1FieldsValue d (used * 8)
  have key : used * 8 + 6 ≤ 8 * behind := by omega
  unfold subprocessFig0s1 EntryComplete
  delta getBits6
  rw [withinFieldBind,and_iff_right key]
  dsimp only
  cases (s.getConfig fh.cnFlag).getFig0s1OfSubChId (getBits d (used * 8) 6) with
  | some known => simp
  | none =>
    simp only [withinBindOf value,fig0s1FieldsWithin,withinIf,true_implies]
    cases FibDecoder.findCollidingFig0s1 (s.getConfig fh.cnFlag).fig0s1Vec (FibDecoder.readFig0s1 d (used * 8)) <;>
      simp only [withinPure,implies_true,and_true] <;> omega

theorem fig0s3Within (inside : used < behind) : (subprocessFig0s3 s used fh).Within (getBits d) (8 * behind) ↔
    EntryComplete .fig0s3 s d fh behind used := by
  unfold subprocessFig0s3 EntryComplete
  delta getBits1
  dsimp only
  rw [withinFieldBind]
  cases (s.getConfig fh.cnFlag).getFig0s3OfSCId (getBits d (used * 8) 12) with
  | some known =>
    simp only [withinPure,and_true,reduceCtorEq,false_implies]
    omega
  | none =>
    simp only [withinFieldBind,withinIf,withinPure,and_true,true_implies,implies_true,pure_bind]
    split_ifs with flagged
    · simp only [flagged,true_implies]
      omega
    · simp only [flagged,false_implies,and_true]
      omega

theorem fig0s5Within : (subprocessFig0s5 s used fh).Within (getBits d) (8 * behind) ↔ EntryComplete .fig0s5 s d fh behind used := by
  unfold subprocessFig0s5 EntryComplete
  delta getBits1
  dsimp only
  simp only [withinFieldBind,withinIf]
  split_ifs with short
  · simp only [short,true_implies,not_true_eq_false,false_implies,and_true]
    cases s.fig0Curr.getFig0s5OfSubChId (getBits d (used * 8 + 2) 6) <;> simp only [withinPure,and_true] <;> omega
  · simp only [short,false_implies,not_false_eq_true,true_implies,true_and]
    cases s.fig0Curr.getFig0s5OfSCId (getBits d (used * 8 + 4) 12) <;> simp only [withinPure,and_true] <;> omega

theorem fig0s8Within : (subprocessFig0s8 s used fh).Within (getBits d) (8 * behind) ↔ EntryComplete .fig0s8 s d fh behind used := by
  have bytes := FibDecoder.sIdWidthBytes fh.pdFlag
  unfold subprocessFig0s8 EntryComplete
  delta getBits1
  dsimp only
  simp only [withinFieldBind,withinIf,pure_bind]
  cases (s.getConfig fh.cnFlag).getFig0s8OfSIdSCIdS (getBits d (used * 8) (sIdWidth fh.pdFlag))
    (getBits d (used * 8 + sIdWidth fh.pdFlag + 4) 4) <;> simp only [withinPure,and_true] <;> split_ifs with short <;>
    simp only [short,true_implies,not_true_eq_false,false_implies,and_true,not_false_eq_true,true_and] <;> omega

theorem componentFieldsWithin (bitOffset size : Nat) (before : Fig0s2Component) :
    (readFig0s2Component bitOffset before).Within (getBits d) size ↔ bitOffset + 16 ≤ size := by
  simp only [readFig0s2Component,withinFieldBind,withinIf,pure_bind,withinPure,and_true]
  omega

theorem otherComponent (cnFlag bitOffset : Nat) (acc : FibDecoder × Fig0s2) {i j : Nat} (other : j ≠ i) :
    ((FibDecoder.fig0s2Component d cnFlag bitOffset acc i).1.getConfig cnFlag).getFig0s2OfSIdScIdx acc.2.sId j =
      (acc.1.getConfig cnFlag).getFig0s2OfSIdScIdx acc.2.sId j := by
  unfold FibDecoder.fig0s2Component
  dsimp only
  split
  · rfl
  · rw [FibDecoder.retriggerConfig,FibDecoder.getSet]
    refine Lib.KeyedStore.otherFound (decide_eq_false fun same => other ?_)
    exact (Int.ofNat_inj.mp same.2).symm

theorem fig0s2Within : (subprocessFig0s2 s used fh).Within (getBits d) (8 * behind) ↔ EntryComplete .fig0s2 s d fh behind used := by
  have bytes := FibDecoder.sIdWidthBytes fh.pdFlag
  unfold subprocessFig0s2 EntryComplete
  delta getBits4 getLBits
  dsimp only
  rw [withinFieldBind,withinFieldBind,withinBindOf (runFold (fig0s2ComponentValue d fh.cnFlag _) _ _),withinPure,and_true]
  generalize getBits d (8 * used) (sIdWidth fh.pdFlag) = sId
  generalize getBits d (8 * used + sIdWidth fh.pdFlag + 4) 4 = numServiceComp
  -- the components that are still to come are known or not as they were before the entry
  rw [withinFold (fig0s2ComponentValue d fh.cnFlag _)
    (F := fun rest acc => rest.Nodup ∧ acc.2.sId = sId ∧ ∀ i ∈ rest,
      (acc.1.getConfig fh.cnFlag).getFig0s2OfSIdScIdx sId i = (s.getConfig fh.cnFlag).getFig0s2OfSIdScIdx sId i)
    (N := fun i => (s.getConfig fh.cnFlag).getFig0s2OfSIdScIdx sId i = none → 8 * used + sIdWidth fh.pdFlag + 8 + 16 * i + 16 ≤ 8 * behind)]
  · rw [← and_assoc]
    refine and_congr (by omega) ?_
    simp only [mem_range]
    refine forall₂_congr fun i _ => imp_congr_right fun _ => ?_
    omega
  · rintro acc i rest ⟨different,service,before⟩
    obtain ⟨fresh,different⟩ := nodup_cons.mp different
    refine ⟨different,(FibDecoder.fig0s2ComponentSId d fh.cnFlag _ acc i).trans service,fun j later => ?_⟩
    have other := otherComponent d fh.cnFlag (8 * used + sIdWidth fh.pdFlag + 8) acc (show j ≠ i from fun same => fresh (same ▸ later))
    rw [service] at other
    exact other.trans (before j (mem_cons_of_mem i later))
  · rintro acc i rest ⟨-,service,before⟩
    rw [fig0s2Component,service,before i mem_cons_self]
    cases (s.getConfig fh.cnFlag).getFig0s2OfSIdScIdx sId i with
    | some known => simp
    | none =>
      simp only [withinBindOf (fig0s2FieldsValue d _ acc.2.serviceCompC),componentFieldsWithin,withinPure,and_true,true_implies]
  · exact ⟨nodup_range,rfl,fun _ _ => rfl⟩

theorem userAppWithin (pdFlag size : Nat) (acc : List UserApp × Nat) (i : Nat) :
    (readUserApp pdFlag acc i).Within (getBits d) size ↔ acc.2 + appBits d pdFlag acc.2 ≤ size := by
  unfold appBits
  delta getBits5
  simp only [readUserApp,withinFieldBind,withinIf,pure_bind,withinPure,and_true]
  split_ifs with padded
  · simp only [padded,and_self,true_implies,not_true_eq_false,false_implies,and_true]
    omega
  · simp only [padded,false_implies,implies_true,and_true]
    omega

theorem userAppsWithin (pdFlag size : Nat) (is : List Nat) (acc : List UserApp × Nat) :
    (fold (readUserApp pdFlag) is acc).Within (getBits d) size ↔ ∀ o ∈ appOffsets d is.length acc.2, o + appBits d pdFlag o ≤ size := by
  induction is generalizing acc with
  | nil => simp [fold,appOffsets]
  | cons i is ih =>
    rw [fold,withinBindOf (userAppValue d pdFlag acc i),userAppWithin,ih,length_cons,appOffsets,forall_mem_cons]
    rfl

theorem fig0s13Within : (subprocessFig0s13 s used fh).Within (getBits d) (8 * behind) ↔ EntryComplete .fig0s13 s d fh behind used := by
  have bytes := FibDecoder.sIdWidthBytes fh.pdFlag
  unfold subprocessFig0s13 EntryComplete
  delta getBits4 getLBits
  dsimp only
  rw [withinFieldBind,withinFieldBind]
  cases s.fig0Curr.getFig0s13OfSIdSCIdS (getBits d (used * 8) (sIdWidth fh.pdFlag))
    (getBits d (used * 8 + sIdWidth fh.pdFlag) 4) with
  | some known =>
    simp only [withinPure,and_true,reduceCtorEq,false_implies]
    omega
  | none =>
    simp only [withinFieldBind,withinBindOf (runFold (userAppValue d fh.pdFlag) _ _),userAppsWithin,length_range,
      withinPure,and_true,true_implies]
    rw [← and_assoc,← and_assoc]
    refine and_congr_left fun _ => ?_
    omega

theorem fig0s14Within (inside : used < behind) : (subprocessFig0s14 s used fh).Within (getBits d) (8 * behind) ↔
    EntryComplete .fig0s14 s d fh behind used := by
  unfold subprocessFig0s14 EntryComplete
  simp only [withinFieldBind,iff_true]
  cases (s.getConfig fh.cnFlag).getFig0s14OfSubChId (getBits d (used * 8) 6) with
  | some known => exact ⟨by omega,trivial⟩
  | none => exact ⟨by omega,by omega,trivial⟩

theorem entryWithin (f : EntryFig) (inside : used < behind) : (entryReads f s used fh).Within (getBits d) (8 * behind) ↔
    EntryComplete f s d fh behind used := by
  cases f with
  | fig0s1 => exact fig0s1Within d s fh inside
  | fig0s2 => exact fig0s2Within d s fh
  | fig0s3 => exact fig0s3Within d s fh inside
  | fig0s5 => exact fig0s5Within d s fh
  | fig0s8 => exact fig0s8Within d s fh
  | fig0s13 => exact fig0s13Within d s fh
  | fig0s14 => exact fig0s14Within d s fh inside

end Entries

section Figs

def entryRounds (f : EntryFig) (s : FibDecoder) (d : Bits) : List (FibDecoder × Nat) :=
  visited (getBits d) (entryStep (entryReads f) (Fib.getFigHeader d)) 32 (s, 2)

def typeRounds (s : FibDecoder) (d : Bits) : List (FibDecoder × Nat) := visited (getBits d) (fig0s17Step (getBits5 d 3)) 32 (s, 16)

def supportRounds (s : FibDecoder) (d : Bits) : List (FibDecoder × Nat) := visited (getBits d) (fig0s18Step (Fib.getFigHeader d)) 32 (s, 16)

def switchRounds (s : FibDecoder) (d : Bits) : List (FibDecoder × Nat) := visited (getBits d) (fig0s19Step (Fib.getFigHeader d)) 32 (s, 16)

def EntriesComplete (f : EntryFig) (s : FibDecoder) (d : Bits) : Prop :=
  ∀ x ∈ entryRounds f s d, x.2 ≤ getBits5 d 3 → EntryComplete f x.1 d (Fib.getFigHeader d) (getBits5 d 3 + 1) x.2

instance (f : EntryFig) (s : FibDecoder) (d : Bits) : Decidable (EntriesComplete f s d) := by unfold EntriesComplete; infer_instance

def ExtensionComplete (s : FibDecoder) (d : Bits) : Nat → Prop
  | 0 => 6 ≤ getBits5 d 3
  | 1 => EntriesComplete .fig0s1 s d
  | 2 => EntriesComplete .fig0s2 s d
  | 3 => EntriesComplete .fig0s3 s d
  | 5 => EntriesComplete .fig0s5 s d
  | 7 => (s.getConfig (getBits1 d 8)).fig0s7Vec = [] → 3 ≤ getBits5 d 3
  | 8 => EntriesComplete .fig0s8 s d
  | 9 => s.fig0Curr.fig0s9Vec = [] → 4 ≤ getBits5 d 3
  | 10 => (if getBits1 d 36 = 1 then 7 else 5) ≤ getBits5 d 3
  | 13 => EntriesComplete .fig0s13 s d
  | 14 => EntriesComplete .fig0s14 s d
  | 15 => getBits5 d 3 ≠ 1 → (if getBits1 d 9 = 0 ∧ getBits2 d 16 ≠ 0 then 2 else 3) ≤ getBits5 d 3
  | 17 => ∀ x ∈ typeRounds s d, x.2 < getBits5 d 3 * 8 →
      x.2 + (if x.1.fig0Curr.getFig0s17OfSId (getBits d x.2 16) = none then 32 else 16) ≤ room d
  | 18 => ∀ x ∈ supportRounds s d, x.2 ≤ getBits5 d 3 * 8 → x.2 + 40 + 8 * getBits3 d (x.2 + 37) ≤ room d
  | 19 => ∀ x ∈ switchRounds s d, x.2 ≤ getBits5 d 3 * 8 → x.2 + (if getBits1 d (x.2 + 25) = 1 then 40 else 32) ≤ room d
  | _ => True

def LabelComplete (s : FibDecoder) (d : Bits) : Nat → Prop
  | 0 | 1 => (if FibDecoder.isCharsetValid (getBits4 d 8) then 21 else 3) ≤ getBits5 d 3
  | 4 =>
    let idBytes := if getBits1 d 16 ≠ 0 then 6 else 4
    idBytes ≤ getBits5 d 3 ∧
      (s.fig1.getFig1s4OfSIdSCIdS (getLBits d 24 (if getBits1 d 16 ≠ 0 then 32 else 16)) (getBits4 d 20) = none →
        FibDecoder.isCharsetValid (getBits4 d 8) → idBytes + 18 ≤ getBits5 d 3)
  | 5 => 5 ≤ getBits5 d 3 ∧
      (s.fig1.getFig1s5OfSId (getLBits d 16 32) = none → FibDecoder.isCharsetValid (getBits4 d 8) → 23 ≤ getBits5 d 3)
  | _ => True

def Complete (s : FibDecoder) (d : Bits) : Prop :=
  match getBits3 d 0 with
  | 0 => 1 ≤ getBits5 d 3 ∧ ExtensionComplete s d (getBits5 d 11)
  | 1 => 1 ≤ getBits5 d 3 ∧ LabelComplete s d (getBits3 d 13)
  | _ => True

instance (s : FibDecoder) (d : Bits) (extension : Nat) : Decidable (ExtensionComplete s d extension) := by
  unfold ExtensionComplete
  split <;> infer_instance

instance (s : FibDecoder) (d : Bits) (extension : Nat) : Decidable (LabelComplete s d extension) := by
  unfold LabelComplete
  split <;> infer_instance

instance (s : FibDecoder) (d : Bits) : Decidable (Complete s d) := by
  unfold Complete
  split <;> infer_instance

variable (d : Bits) (s : FibDecoder)

theorem headerWithin {size : Nat} (header : 16 ≤ size) : getFigHeader.Within (getBits d) size :=
  ⟨by omega,by omega,by omega,by omega,trivial⟩

theorem entriesWithin (f : EntryFig) (header : 1 ≤ getBits5 d 3) :
    (processFig0Loop 32 (entryReads f) s).Within (getBits d) (room d) ↔ EntriesComplete f s d := by
  have returns : ∀ x, ∃ r, (entryStep (entryReads f) (Fib.getFigHeader d) x).run (getBits d) = some r :=
    fun x => ⟨_,entryStepValue d f _ x.1 x.2⟩
  rw [processFig0Loop,withinBindOf (headerValue d),and_iff_right (headerWithin d (by unfold room; omega)),withinLoop returns]
  refine forall₂_congr fun x _ => ?_
  simp only [entryStep,withinIf,withinBindOf (entryValue f d x.1 x.2 _),withinPure,implies_true,and_true]
  refine imp_congr_right fun inside => ?_
  exact entryWithin d x.1 (Fib.getFigHeader d) f (Nat.lt_succ_of_le inside)

theorem fig0s17Within : (processFig0s17 32 s).Within (getBits d) (room d) ↔ ExtensionComplete s d 17 := by
  have length : 8 ≤ room d := by unfold room; omega
  rw [processFig0s17,withinFieldBind,and_iff_right length,withinLoop fun x => ⟨_,fig0s17StepValue d _ x.1 x.2⟩]
  refine forall₂_congr fun x _ => ?_
  simp only [fig0s17Step,withinIf,withinFieldBind,withinPure,implies_true,and_true]
  refine imp_congr_right fun inside => ?_
  cases x.1.fig0Curr.getFig0s17OfSId (getBits d x.2 16) with
  | some known => simp
  | none =>
    simp only [withinFieldBind,withinPure,and_true,if_true]
    omega

theorem clusterWithin (cnFlag bitOffset sId asuFlags size : Nat) (s : FibDecoder) (i : Nat) :
    (fig0s18Cluster cnFlag bitOffset sId asuFlags s i).Within (getBits d) size ↔ bitOffset + 8 * i + 8 ≤ size := by
  simp only [fig0s18Cluster,withinFieldBind,withinIf,withinPure,implies_true,true_and,and_true]
  exact ⟨And.left,fun fits => ⟨fits,fun _ => fits⟩⟩

theorem fig0s18Within (header : 1 ≤ getBits5 d 3) : (processFig0s18 32 s).Within (getBits d) (room d) ↔ ExtensionComplete s d 18 := by
  rw [processFig0s18,withinBindOf (headerValue d),and_iff_right (headerWithin d (by unfold room; omega)),
    withinLoop fun x => ⟨_,fig0s18StepValue d _ x.1 x.2⟩]
  refine forall₂_congr fun x _ => ?_
  simp only [fig0s18Step,withinIf,withinFieldBind,withinBindOf (runFold (clusterValue d _ x.2) _ _),withinPure,implies_true,and_true]
  refine imp_congr_right fun inside => ?_
  rw [withinFold (clusterValue d _ x.2) (F := fun _ _ => True) (fun _ _ _ _ => trivial)
    (fun t i _ _ => clusterWithin d _ _ _ _ _ t i) trivial]
  simp only [mem_range]
  change _ ↔ x.2 + 40 + 8 * getBits d (x.2 + 37) 3 ≤ room d
  constructor
  · rintro ⟨-,-,entry,clusters⟩
    rcases Nat.eq_zero_or_pos (getBits d (x.2 + 37) 3) with none | some
    · omega
    · have last := clusters (getBits d (x.2 + 37) 3 - 1) (by omega)
      omega
  · intro fits
    exact ⟨by omega,by omega,by omega,fun i few => by omega⟩

theorem fig0s19Within (header : 1 ≤ getBits5 d 3) : (processFig0s19 32 s).Within (getBits d) (room d) ↔ ExtensionComplete s d 19 := by
  rw [processFig0s19,withinBindOf (headerValue d),and_iff_right (headerWithin d (by unfold room; omega)),
    withinLoop fun x => ⟨_,fig0s19StepValue d _ x.1 x.2⟩]
  refine forall₂_congr fun x _ => ?_
  simp only [fig0s19Step,withinIf,withinFieldBind,pure_bind,withinPure,implies_true,and_true]
  refine imp_congr_right fun inside => ?_
  change _ ↔ x.2 + (if getBits d (x.2 + 25) 1 = 1 then 40 else 32) ≤ room d
  split_ifs with regional
  · simp only [regional,true_implies]
    omega
  · simp only [regional,false_implies,and_true]
    omega

theorem locationWithin (bitOffset endOffset : Nat) : (getEwsLocationCode bitOffset endOffset).Within (getBits d) endOffset := by
  simp only [getEwsLocationCode,withinIf,withinFieldBind,withinBindOf (runFields 4 _),withinFields,withinPure,implies_true,
    and_true,true_and,mem_map,mem_range]
  intro first
  refine ⟨by omega,by omega,by omega,by omega,by omega,fun few fits => ⟨?_,?_⟩⟩
  · rintro place ⟨i,digit,rfl⟩
    omega
  · intro coded
    rw [if_pos coded] at fits
    omega

theorem locationsWithin (bitOffset endOffset : Nat) : (loop (ewsLocationStep endOffset) 32 bitOffset).Within (getBits d) endOffset := by
  rw [withinLoop fun x => (locationStepValue d endOffset x).imp fun _ => And.left]
  intro x _
  obtain ⟨code,value,-⟩ := locationValue d x endOffset
  simp only [ewsLocationStep,withinIf,withinBindOf value,locationWithin,true_and,withinPure,implies_true,and_true]
  intro _
  cases code <;> trivial

theorem ewsStartWithin (oeFlag : Nat) : (ewsStart oeFlag).Within (getBits d) (room d) ↔
    (if oeFlag = 0 ∧ getBits d 16 2 ≠ 0 then 2 else 3) ≤ getBits5 d 3 := by
  simp only [ewsStart,withinIf,withinFieldBind,withinPure,and_true,implies_true,room]
  by_cases here : oeFlag = 0
  · by_cases phase : getBits d 16 2 = 0
    · simp only [here,phase,true_implies,not_true_eq_false,false_implies,and_true,ne_eq,and_false,if_false]
      omega
    · simp only [here,phase,true_implies,not_true_eq_false,false_implies,and_true,ne_eq,not_false_eq_true,and_self,if_true]
      omega
  · simp only [here,false_implies,not_false_eq_true,true_implies,true_and,false_and,if_false]
    omega

theorem fig0s15Within (header : 1 ≤ getBits5 d 3) : (processFig0s15 32 s).Within (getBits d) (room d) ↔ ExtensionComplete s d 15 := by
  have short := lengthLt d
  have last : ((Fib.getFigHeader d).length + 1) * 8 = room d := Nat.mul_comm _ 8
  obtain ⟨start,begins⟩ := ewsStartValue d (Fib.getFigHeader d).oeFlag
  have ends : ∀ bitOffset, (loop (ewsLocationStep (room d)) 32 bitOffset).run (getBits d) = some () :=
    fun bitOffset => locationsValue d (by omega)
  have inside := fun bitOffset => locationsWithin d bitOffset (room d)
  simp only [processFig0s15,withinBindOf (headerValue d),withinIf,withinBindOf begins,ewsStartWithin,withinFieldBind,last,
    withinBindOf (ends _),inside,withinPure,implies_true,and_true,true_and]
  rw [and_iff_right (headerWithin d (by unfold room; omega))]
  refine imp_congr_right fun _ => and_iff_left ?_
  rintro ⟨-,fits⟩
  exact ⟨by omega,by omega,by omega⟩

theorem extensionWithin (header : 1 ≤ getBits5 d 3) (extension : Nat) :
    (processFig0Extension 32 s extension).Within (getBits d) (room d) ↔ ExtensionComplete s d extension := by
  match extension with
  | 0 =>
    simp only [processFig0Extension,processFig0s0,ExtensionComplete,withinFieldBind,withinPure,and_true,room]
    omega
  | 1 => exact entriesWithin d s .fig0s1 header
  | 2 => exact entriesWithin d s .fig0s2 header
  | 3 => exact entriesWithin d s .fig0s3 header
  | 5 => exact entriesWithin d s .fig0s5 header
  | 7 =>
    simp only [processFig0Extension,processFig0s7,ExtensionComplete,withinBindOf (headerValue d)]
    change _ ↔ ((s.getConfig (Fib.getFigHeader d).cnFlag).fig0s7Vec = [] → 3 ≤ getBits5 d 3)
    rw [and_iff_right (headerWithin d (by unfold room; omega))]
    cases (s.getConfig (Fib.getFigHeader d).cnFlag).fig0s7Vec with
    | cons e rest => simp
    | nil =>
      simp only [withinFieldBind,withinPure,and_true,true_implies,room]
      omega
  | 8 => exact entriesWithin d s .fig0s8 header
  | 9 =>
    simp only [processFig0Extension,processFig0s9,ExtensionComplete]
    cases s.fig0Curr.fig0s9Vec with
    | cons e rest => simp
    | nil =>
      simp only [withinFieldBind,withinPure,and_true,true_implies,room]
      omega
  | 10 =>
    simp only [processFig0Extension,processFig0s10,ExtensionComplete,withinFieldBind,room]
    change _ ↔ (if getBits d 36 1 = 1 then 7 else 5) ≤ getBits5 d 3
    cases s.fig0Curr.fig0s9Vec <;> simp only [withinPure,and_true] <;> split_ifs <;> omega
  | 13 => exact entriesWithin d s .fig0s13 header
  | 14 => exact entriesWithin d s .fig0s14 header
  | 15 => exact fig0s15Within d s header
  | 17 => exact fig0s17Within d s
  | 18 => exact fig0s18Within d s header
  | 19 => exact fig0s19Within d s header
  | 4 | 6 | 11 | 12 | 16 | _ + 20 => exact Iff.rfl

section
variable (toQString : Nat → List Nat → List Nat)

theorem labelWithin (labelOffs : Nat) (header : 1 ≤ getBits5 d 3) :
    (extractCharacterSetLabel toQString labelOffs).Within (getBits d) (room d) ↔
      (FibDecoder.isCharsetValid (getBits4 d 8) → labelOffs + 144 ≤ room d) := by
  have charset : 8 + 4 ≤ room d := by unfold room; omega
  simp only [extractCharacterSetLabel,withinFieldBind,withinIf,withinBindOf (runFields 8 _),withinFields,withinPure,implies_true,
    and_true,and_iff_right charset,mem_map,mem_range]
  refine imp_congr_right fun _ => ?_
  constructor
  · rintro ⟨-,flags⟩
    omega
  · intro fits
    refine ⟨?_,by omega⟩
    rintro place ⟨i,letter,rfl⟩
    omega

theorem fig1s4Within (header : 1 ≤ getBits5 d 3) : (processFig1s4 toQString s).Within (getBits d) (room d) ↔ LabelComplete s d 4 := by
  unfold LabelComplete
  delta getBits1 getLBits
  simp only [processFig1s4,withinFieldBind]
  change _ ∧ _ ∧ _ ∧ _ ↔ _ ∧ (s.fig1.getFig1s4OfSIdSCIdS _ (getBits d 20 4) = none → _)
  cases s.fig1.getFig1s4OfSIdSCIdS (getBits d 24 (if getBits d 16 1 ≠ 0 then 32 else 16)) (getBits d 20 4) with
  | some known =>
    simp only [withinPure,and_true,reduceCtorEq,false_implies,room]
    split_ifs <;> omega
  | none =>
    simp only [withinBindOf (labelValue d toQString _),labelWithin d toQString _ header,true_implies]
    cases FibDecoder.extractCharacterSetLabel toQString d (if getBits d 16 1 ≠ 0 then 56 else 40) <;>
      simp only [withinPure,and_true] <;> rw [← and_assoc,← and_assoc] <;>
      refine and_congr ?_ (imp_congr_right fun _ => ?_) <;> simp only [room] <;> split_ifs <;> omega

theorem fig1s5Within (header : 1 ≤ getBits5 d 3) : (processFig1s5 toQString s).Within (getBits d) (room d) ↔ LabelComplete s d 5 := by
  unfold LabelComplete
  delta getLBits
  simp only [processFig1s5,withinFieldBind]
  cases s.fig1.getFig1s5OfSId (getBits d 16 32) with
  | some known =>
    simp only [withinPure,and_true,reduceCtorEq,false_implies,room]
    omega
  | none =>
    simp only [withinBindOf (labelValue d toQString _),labelWithin d toQString _ header,true_implies]
    cases FibDecoder.extractCharacterSetLabel toQString d 48 <;> simp only [withinPure,and_true] <;>
      refine and_congr ?_ (imp_congr_right fun _ => ?_) <;> simp only [room] <;> omega

theorem fig1Within : (processFig1 toQString s).Within (getBits d) (room d) ↔ 1 ≤ getBits5 d 3 ∧ LabelComplete s d (getBits3 d 13) := by
  have header : 13 + 3 ≤ room d ↔ 1 ≤ getBits5 d 3 := by unfold room; omega
  have named : 16 + 16 ≤ room d ∧ (FibDecoder.isCharsetValid (getBits4 d 8) → 32 + 144 ≤ room d) ↔ LabelComplete s d 0 := by
    simp only [LabelComplete,room]
    split_ifs with valid
    · simp only [valid,true_implies]
      omega
    · simp only [valid,Bool.false_eq_true,false_implies,and_true]
      omega
  rw [processFig1,withinFieldBind,header]
  refine and_congr_right fun long => ?_
  rw [show getBits d 13 3 = getBits3 d 13 from rfl]
  rcases getBits3 d 13 with _ | _ | _ | _ | _ | _ | extension
  · simp only [processFig1s0,withinFieldBind,withinBindOf (labelValue d toQString 32),labelWithin d toQString 32 long]
    rw [← named,← and_assoc]
    refine and_iff_left ?_
    cases FibDecoder.extractCharacterSetLabel toQString d 32 with
    | none => trivial
    | some label => cases s.fig1.fig1s0Vec <;> trivial
  · simp only [processFig1s1,withinFieldBind,withinBindOf (labelValue d toQString 32),labelWithin d toQString 32 long]
    refine Iff.trans ?_ named
    rw [← and_assoc]
    refine and_iff_left ?_
    cases FibDecoder.extractCharacterSetLabel toQString d 32 with
    | none => trivial
    | some label => cases s.fig1.getFig1s1OfSId (getBits d 16 16) <;> trivial
  · exact Iff.rfl
  · exact Iff.rfl
  · exact fig1s4Within d s toQString long
  · exact fig1s5Within d s toQString long
  · exact Iff.rfl

end

variable {s} (sized : Sized s)
include sized

theorem fig0Within (typed : getBits3 d 0 = 0) : (processFig0 32 s).Within (getBits d) (room d) ↔
    1 ≤ getBits5 d 3 ∧ ExtensionComplete s d (getBits5 d 11) := by
  have value : (processFig0Extension 32 s (getBits d 11 5)).run (getBits d) = _ := extensionValue d sized typed
  rw [processFig0,withinFieldBind,withinBindOf value]
  simp only [withinIf,withinPure,implies_true,and_true]
  have header : 11 + 5 ≤ room d ↔ 1 ≤ getBits5 d 3 := by unfold room; omega
  rw [header]
  exact and_congr_right fun long => extensionWithin d s long _

theorem figWithin (toQString : Nat → List Nat → List Nat) :
    (processFig toQString 32 s (getBits3 d 0)).Within (getBits d) (room d) ↔ Complete s d := by
  unfold Complete
  generalize typed : getBits3 d 0 = figType
  match figType with
  | 0 => exact fig0Within d sized typed
  | 1 => exact fig1Within d s toQString
  | _ + 2 => exact Iff.rfl

end Figs

section Fibs
variable (toQString : Nat → List Nat → List Nat)

def figRounds (s : FibDecoder) (fib : Bits) : List (FibDecoder × Nat) :=
  (visited (getBits fib) (fibStep toQString 32) 32 ({ s with restartFibDecoding := false }, 0)).filter
    fun x => x.2 < 30 ∧ ¬ isEndMarker (figAt fib x.2)

def FieldInside (fib : Bits) (processedBytes : Nat) : Prop := processedBytes + getBits5 (figAt fib processedBytes) 3 + 1 ≤ 30

instance (fib : Bits) (processedBytes : Nat) : Decidable (FieldInside fib processedBytes) := by unfold FieldInside; infer_instance

structure InBounds (s : FibDecoder) (fib : Bits) : Prop where
  returns : (processFib toQString 32 s).run (getBits fib) = some (s.processFib toQString fib)
  fields : ∀ x ∈ figRounds toQString s fib, FieldInside fib x.2
  reads : ∀ x ∈ figRounds toQString s fib,
    (processFig toQString 32 x.1 (getBits3 (figAt fib x.2) 0)).Within (getBits (figAt fib x.2)) (room (figAt fib x.2))

theorem roundsSized {s : FibDecoder} (sized : Sized s) (fib : Bits) : ∀ x ∈ figRounds toQString s fib, Sized x.1 := by
  have all := @visitedKeep _ _ (getBits fib) (fibStep toQString 32) (fun x => Sized x.1) ?_ 32
    ({ s with restartFibDecoding := false }, 0) sized
  · exact fun x member => all x (mem_filter.mp member).1
  · rintro ⟨t,processedBytes⟩ y sizedNow value
    rw [fibStepValue toQString fib sizedNow] at value
    split_ifs at value with inside marker restarts <;> cases value
    exact figSized _ sizedNow toQString

theorem fibInBounds (events : List FibDecoder.Event) (fib : Bits) : InBounds toQString (FibDecoder.run toQString {} events) fib ↔
      ∀ x ∈ figRounds toQString (FibDecoder.run toQString {} events) fib, FieldInside fib x.2 ∧ Complete x.1 (figAt fib x.2) := by
  have sized : Sized (FibDecoder.run toQString {} events) :=
    FibDecoder.startKeeps sizedAppsKept toQString fun _ _ _ _ => trivial
  have each := roundsSized toQString sized fib
  constructor
  · intro bounded x member
    exact ⟨bounded.fields x member,(figWithin _ (each x member) toQString).mp (bounded.reads x member)⟩
  · intro complete
    refine ⟨fibValue toQString fib sized,fun x member => (complete x member).1,fun x member => ?_⟩
    exact (figWithin _ (each x member) toQString).mpr (complete x member).2

def regularEnsembleFib : Bits := Multiplex.fibOf [0x05,0x00,0x10,0x01,0x00,0x00,0xFF]
def cutLabelFib : Bits := Multiplex.fibOf ([0x5B] ++ replicate 27 0 ++ [0x35,0x00])

theorem occurrenceChangeOutside : ¬ InBounds (fun _ text => text) {} regularEnsembleFib ∧
    ¬ InBounds (fun _ text => text) {} cutLabelFib := by
  constructor
  · intro bounded
    have outside : ∃ x ∈ figRounds (fun _ text => text) {} regularEnsembleFib,
        ¬ (processFig (fun _ text => text) 32 x.1 (getBits3 (figAt regularEnsembleFib x.2) 0)).Within
          (getBits (figAt regularEnsembleFib x.2)) (room (figAt regularEnsembleFib x.2)) := by decide
    obtain ⟨x,member,reads⟩ := outside
    exact reads (bounded.reads x member)
  · intro bounded
    have outside : ∃ x ∈ figRounds (fun _ text => text) {} cutLabelFib, ¬ FieldInside cutLabelFib x.2 := by decide
    obtain ⟨x,member,field⟩ := outside
    exact field (bounded.fields x member)

end Fibs

end DabStar.Fib.FibReads
