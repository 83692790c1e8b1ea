import DabStar.FibSteps

/-! One entry of the FIGs that are lists. An entry that is known is stepped over, by the
length of the stored one; one that is not known is stored as it was read. -/
namespace DabStar.Fib.FibDecoder

/- The outcome at a byte: the stored entry, the one its own bits describe, where it goes,
and the bytes of an entry. Only a sub-channel can be refused. -/
inductive Entry {σ : Type} (lookup : Option σ) (own : σ) (store : σ → FibDecoder) (bytes : σ → Nat) (refused : Prop)
    (s : FibDecoder) (used : Nat) : FibDecoder × Nat → Prop where
  | known {e : σ} (found : lookup = some e) : Entry lookup own store bytes refused s used (s, used + bytes e)
  | stored (unknown : lookup = none) (taken : ¬ refused) :
      Entry lookup own store bytes refused s used ((store own).retriggerTimerDataLoaded, used + bytes own)
  | restarts (unknown : lookup = none) (untrusted : refused) :
      Entry lookup own store bytes refused s used (s.restart, used + bytes own)

def readFig0s3 (d : Bits) (bitOffset : Nat) : Fig0s3 :=
  { scId := getBits d bitOffset 12, caOrgFlag := getBits1 d (bitOffset + 15), dgFlag := getBits1 d (bitOffset + 16)
    dscTy := getBits6 d (bitOffset + 18), subChId := getBits6 d (bitOffset + 24)
    packetAddress := getBits d (bitOffset + 30) 10
    caOrg := if getBits1 d (bitOffset + 15) = 1 then getBits d (bitOffset + 80) 16 else 65535 }

def readFig0s5 (d : Bits) (bitOffset : Nat) : Fig0s5 :=
  if getBits1 d bitOffset = 0 then
    { lsFlag := 0, subChId := getBits6 d (bitOffset + 2), language := getBits8 d (bitOffset + 8) }
  else { lsFlag := 1, scId := getBits d (bitOffset + 4) 12, language := getBits8 d (bitOffset + 16) }

def sIdWidth (pdFlag : Nat) : Nat := if pdFlag = 1 then 32 else 16

theorem sIdWidthBytes (pdFlag : Nat) : sIdWidth pdFlag = 8 * (sIdWidth pdFlag / 8) := by
  unfold sIdWidth
  split <;> rfl

def readFig0s8 (d : Bits) (pdFlag bitOffset : Nat) : Fig0s8 :=
  let behind := bitOffset + sIdWidth pdFlag
  let lsFlag := getBits1 d (behind + 8)
  { pdFlag := pdFlag, sId := getLBits d bitOffset (sIdWidth pdFlag), extFlag := getBits1 d behind
    scIdS := getBits4 d (behind + 4), lsFlag := lsFlag
    subChId := if lsFlag = 0 then (getBits6 d (behind + 10) : Int) else -1
    scId := if lsFlag = 0 then -1 else (getBits d (behind + 12) 12 : Int) }

def readFig0s13 (d : Bits) (pdFlag bitOffset : Nat) : Fig0s13 :=
  let behind := bitOffset + sIdWidth pdFlag
  let numUserApps := min (getBits4 d (behind + 4)) 6
  let (apps, last) := (List.range numUserApps).foldl (readUserApp d pdFlag) ([], behind + 8)
  ⟨pdFlag,getLBits d bitOffset (sIdWidth pdFlag),getBits4 d behind,numUserApps,apps,last - bitOffset⟩

def readFig0s14 (d : Bits) (bitOffset : Nat) : Fig0s14 := ⟨getBits6 d bitOffset,getBits2 d (bitOffset + 6)⟩

def fig0s3Bytes (e : Fig0s3) : Nat := if e.caOrgFlag ≠ 0 then 7 else 5
def fig0s5Bytes (e : Fig0s5) : Nat := if e.lsFlag = 0 then 2 else 3
def fig0s8Bytes (pdFlag : Nat) (e : Fig0s8) : Nat :=
  sIdWidth pdFlag / 8 + (if e.lsFlag = 0 then 2 else 3) + if e.extFlag ≠ 0 then 1 else 0
def fig0s13Bytes (e : Fig0s13) : Nat := e.sizeBits / 8

def lookupFig0s5 (c : FibConfigFig0) (d : Bits) (bitOffset : Nat) : Option Fig0s5 :=
  if getBits1 d bitOffset = 0 then c.getFig0s5OfSubChId (getBits6 d (bitOffset + 2))
  else c.getFig0s5OfSCId (getBits d (bitOffset + 4) 12)

def Refused (l : List Fig0s1) (cand : Fig0s1) : Prop :=
  cand.startAddr + cand.subChannelSize > cNumCuPerCif ∨ (findCollidingFig0s1 l cand).isSome

section Entries
variable (s : FibDecoder) (d : Bits) (used : Nat) (fh : FigHeader)

theorem fig0s1Entry : Entry ((s.getConfig fh.cnFlag).getFig0s1OfSubChId (getBits6 d (used * 8))) (readFig0s1 d (used * 8))
    (fun e => s.setConfig fh.cnFlag { s.getConfig fh.cnFlag with fig0s1Vec := (s.getConfig fh.cnFlag).fig0s1Vec ++ [e] })
    entryBytes (Refused (s.getConfig fh.cnFlag).fig0s1Vec (readFig0s1 d (used * 8))) s used (subprocessFig0s1 s d used fh) := by
  unfold subprocessFig0s1
  split
  · rename_i found
    exact .known found
  · rename_i unknown
    dsimp only
    split
    · rename_i outside
      exact .restarts unknown (.inl outside)
    · rename_i inside
      split
      · rename_i colliding
        exact .restarts unknown (.inr (colliding ▸ rfl))
      · rename_i free
        refine .stored unknown (fun refused => ?_)
        rcases refused with outside | collides
        · exact inside outside
        · rw [free] at collides
          cases collides

theorem fig0s3Entry : Entry ((s.getConfig fh.cnFlag).getFig0s3OfSCId (getBits d (used * 8) 12)) (readFig0s3 d (used * 8))
    (fun e => s.setConfig fh.cnFlag { s.getConfig fh.cnFlag with fig0s3Vec := (s.getConfig fh.cnFlag).fig0s3Vec ++ [e] })
    fig0s3Bytes False s used (subprocessFig0s3 s d used fh) := by
  have flag := getBitsLt d (used * 8 + 15) 1
  unfold subprocessFig0s3
  dsimp only
  split
  · rename_i known found
    have behind : (used * 8 + 40 + if known.caOrgFlag ≠ 0 then 16 else 0) / 8 = used + fig0s3Bytes known := by
      unfold fig0s3Bytes
      split <;> omega
    rw [behind]
    exact .known found
  · rename_i unknown
    have behind : (used * 8 + 40 + if getBits1 d (used * 8 + 15) = 1 then 16 else 0) / 8 =
        used + fig0s3Bytes (readFig0s3 d (used * 8)) := by
      unfold fig0s3Bytes readFig0s3 getBits1
      dsimp only
      split <;> split <;> omega
    rw [behind]
    unfold readFig0s3
    split <;> exact .stored unknown id

theorem fig0s5Entry : Entry (lookupFig0s5 s.fig0Curr d (used * 8)) (readFig0s5 d (used * 8))
    (fun e => { s with fig0Curr := { s.fig0Curr with fig0s5Vec := s.fig0Curr.fig0s5Vec ++ [e] } })
    (fun _ => fig0s5Bytes (readFig0s5 d (used * 8))) False s used (subprocessFig0s5 s d used fh) := by
  unfold subprocessFig0s5 lookupFig0s5 readFig0s5
  dsimp only
  split
  · split
    · rename_i found
      exact .known found
    · rename_i unknown
      exact .stored unknown id
  · split
    · rename_i found
      exact .known found
    · rename_i unknown
      exact .stored unknown id

theorem fig0s8Entry : Entry ((s.getConfig fh.cnFlag).getFig0s8OfSIdSCIdS (getLBits d (used * 8) (sIdWidth fh.pdFlag))
      (getBits4 d (used * 8 + sIdWidth fh.pdFlag + 4))) (readFig0s8 d fh.pdFlag (used * 8))
    (fun e => s.setConfig fh.cnFlag { s.getConfig fh.cnFlag with fig0s8Vec := (s.getConfig fh.cnFlag).fig0s8Vec ++ [e] })
    (fun _ => fig0s8Bytes fh.pdFlag (readFig0s8 d fh.pdFlag (used * 8))) False s used (subprocessFig0s8 s d used fh) := by
  have bytes := sIdWidthBytes fh.pdFlag
  unfold subprocessFig0s8
  rw [show (if fh.pdFlag = 1 then 32 else 16) = sIdWidth fh.pdFlag from rfl]
  dsimp only
  have behind : (used * 8 + sIdWidth fh.pdFlag + ((if getBits1 d (used * 8 + sIdWidth fh.pdFlag + 8) = 0 then 16 else 24) +
      if getBits1 d (used * 8 + sIdWidth fh.pdFlag) ≠ 0 then 8 else 0)) / 8 =
      used + fig0s8Bytes fh.pdFlag (readFig0s8 d fh.pdFlag (used * 8)) := by
    unfold fig0s8Bytes readFig0s8
    simp only [ne_eq,Int.natCast_eq_zero]
    split <;> split <;> omega
  rw [behind]
  split
  · rename_i found
    exact .known found
  · rename_i unknown
    unfold readFig0s8
    dsimp only
    split <;> exact .stored unknown id

theorem fig0s13Entry : Entry (s.fig0Curr.getFig0s13OfSIdSCIdS (getLBits d (used * 8) (sIdWidth fh.pdFlag))
      (getBits4 d (used * 8 + sIdWidth fh.pdFlag))) (readFig0s13 d fh.pdFlag (used * 8))
    (fun e => s.setConfig fh.cnFlag { s.getConfig fh.cnFlag with fig0s13Vec := (s.getConfig fh.cnFlag).fig0s13Vec ++ [e] })
    fig0s13Bytes False s used (subprocessFig0s13 s d used fh) := by
  unfold subprocessFig0s13
  rw [show (if fh.pdFlag = 1 then 32 else 16) = sIdWidth fh.pdFlag from rfl]
  dsimp only
  split
  · rename_i known found
    have behind : (known.sizeBits + used * 8) / 8 = used + fig0s13Bytes known := by
      unfold fig0s13Bytes
      omega
    rw [behind]
    exact .known found
  · rename_i unknown
    have forward := userAppsForward d fh.pdFlag (List.range (min (getBits4 d (used * 8 + sIdWidth fh.pdFlag + 4)) 6))
      ([], used * 8 + sIdWidth fh.pdFlag + 8)
    have behind : ((List.range (min (getBits4 d (used * 8 + sIdWidth fh.pdFlag + 4)) 6)).foldl (readUserApp d fh.pdFlag)
        ([], used * 8 + sIdWidth fh.pdFlag + 8)).2 / 8 = used + fig0s13Bytes (readFig0s13 d fh.pdFlag (used * 8)) := by
      unfold fig0s13Bytes readFig0s13
      dsimp only at forward ⊢
      omega
    rw [behind]
    exact .stored unknown id

theorem fig0s14Entry : Entry ((s.getConfig fh.cnFlag).getFig0s14OfSubChId (getBits6 d (used * 8))) (readFig0s14 d (used * 8))
    (fun e => s.setConfig fh.cnFlag { s.getConfig fh.cnFlag with fig0s14Vec := (s.getConfig fh.cnFlag).fig0s14Vec ++ [e] })
    (fun _ => 1) False s used (subprocessFig0s14 s d used fh) := by
  unfold subprocessFig0s14
  dsimp only
  split
  · rename_i found
    exact .known found
  · rename_i unknown
    exact .stored unknown id

end Entries

end DabStar.Fib.FibDecoder
