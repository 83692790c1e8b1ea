import DabStar.Protection
import DabStar.ViterbiExact

/-! De-puncturing and the Viterbi decoder together: the words a protection handler and the FIC
decoder (decoder/fic_decoder.cpp) return when every sent bit arrives. -/
namespace DabStar.ChannelDecoding
open Lib ProtTables Puncture ViterbiSpiral ViterbiExact Protection

structure FicDecoder where
  viterbiBlock : List Int
  viterbiBlockAddresses : List Nat
  deriving DecidableEq, Repr

def ficBlocks : List (Int × Nat) := [(21, 16),(3, 15)]

def newFicDecoder : FicDecoder := ⟨List.replicate (3072 + 24) 0,(extractBlocks ficBlocks).2⟩

namespace FicDecoder

def depuncture (fic : FicDecoder) (softInput : Nat → Int) : FicDecoder :=
  { fic with viterbiBlock := (scatter softInput fic.viterbiBlockAddresses (fic.viterbiBlock, 0)).1 }

def deconvolve (fic : FicDecoder) (softInput : Nat → Int) : FicDecoder × List Bool :=
  let fic := fic.depuncture softInput
  (fic, ViterbiSpiral.deconvolve 768 fic.viterbiBlock)

def after (fic : FicDecoder) (calls : List (Nat → Int)) : FicDecoder := calls.foldl (fun fic softInput => (fic.deconvolve softInput).1) fic

def ofProtection (p : Protection) : FicDecoder := ⟨p.viterbiBlock,p.viterbiBlockAddresses⟩

theorem newOfBlocks : newFicDecoder = ofProtection (ofBlocks 32 ficBlocks) := by
  have size : 24 * 32 * 4 + 24 = 3072 + 24 := rfl
  unfold newFicDecoder ofProtection ofBlocks
  rw [size]

theorem ofProtectionAddresses (p : Protection) : (ofProtection p).viterbiBlockAddresses = p.viterbiBlockAddresses := rfl

theorem ofProtectionDepuncture (p : Protection) (v : Nat → Int) : (ofProtection p).depuncture v = ofProtection (p.depuncture v).1 := rfl

theorem afterOfProtection (p : Protection) (calls : List (Nat → Int)) : (ofProtection p).after calls = ofProtection (p.after calls) := by
  induction calls generalizing p with
  | nil => rfl
  | cons v calls ih => exact ih (p.deconvolve v).1

end FicDecoder

def transmit (addresses : List Nat) (word : List Bool) (k : Nat) : Int := soft ((convolve word).getD (addresses.getD k 0) false)

def Transmitted (addresses : List Nat) (word : List Bool) (v : Nat → Int) : Prop := ∀ k < addresses.length, v k = transmit addresses word k

theorem depunctureReceived {bitRate : Nat} {blocks : List (Int × Nat)} (fills : Fills bitRate blocks)
    {word : List Bool} (length : word.length = 24 * bitRate) (calls : List (Nat → Int)) {v : Nat → Int}
    (sent : Transmitted (ofBlocks bitRate blocks).viterbiBlockAddresses word v) : Received word (fun a => (profileMask blocks).getD a false)
      (((ofBlocks bitRate blocks).after calls).depuncture v).1.viterbiBlock := by
  have filled := fills.2
  have total := profileMaskLength blocks
  have registered : (ofBlocks bitRate blocks).viterbiBlockAddresses = positions 0 (profileMask blocks) := by
    unfold ofBlocks
    rw [extractBlocksMask]
  obtain ⟨_,addresses,size,silent⟩ := afterKeeps (ofBlocks bitRate blocks) calls
  have increasing := positionsIncreasing 0 (profileMask blocks)
  have inside := ofBlocksInside fills
  rw [registered] at addresses sent silent inside
  refine ⟨fun a bound first => coversProfile fills.1 a (by omega) first,?_⟩
  intro a bound
  unfold depuncture
  dsimp only
  rw [addresses]
  cases keep : (profileMask blocks).getD a false with
  | true =>
    have kept : a ∈ positions 0 (profileMask blocks) := (positionsMem 0 a _).mpr ⟨Nat.zero_le a,keep⟩
    rw [if_pos rfl]
    exact scatterWord v 0 increasing (((ofBlocks bitRate blocks).after calls).viterbiBlock, 0) rfl
      (by rw [size]; exact inside) (fun a => soft ((convolve word).getD a false)) sent kept
  | false =>
    have punctured : a ∉ positions 0 (profileMask blocks) := by
      intro kept
      have again := ((positionsMem 0 a _).mp kept).2
      rw [Nat.sub_zero,keep] at again
      exact Bool.false_ne_true again
    rw [if_neg Bool.false_ne_true,scatterOther v 0 punctured,silent a punctured]
    unfold ofBlocks
    simp

theorem ofBlocksExact {bitRate : Nat} {blocks : List (Int × Nat)} (fills : Fills bitRate blocks)
    {word : List Bool} (length : word.length = 24 * bitRate) (calls : List (Nat → Int)) {v : Nat → Int}
    (sent : Transmitted (ofBlocks bitRate blocks).viterbiBlockAddresses word v) :
    (((ofBlocks bitRate blocks).after calls).deconvolve v).2 = word := by
  have exact := deconvolveExact (depunctureReceived fills length calls sent)
  rw [length] at exact
  unfold Protection.deconvolve
  have rate : (((ofBlocks bitRate blocks).after calls).depuncture v).1.bitRate = bitRate := (afterKeeps (ofBlocks bitRate blocks) calls).1
  dsimp only
  rw [rate]
  exact exact

theorem ficFills : Fills 32 ficBlocks := by
  unfold Fills
  decide

theorem errorFreeDecoding (n level : Nat) (positive : 1 ≤ n) (small : level < 4) (word : List Bool)
    (calls : List (Nat → Int)) (v : Nat → Int) : (∀ p, eepProtection (8 * n : Nat) level = some p → word.length = 24 * (8 * n) →
      Transmitted p.viterbiBlockAddresses word v → ((p.after calls).deconvolve v).2 = word) ∧
    (∀ p, eepProtection (32 * n : Nat) (level + 4) = some p → word.length = 24 * (32 * n) →
      Transmitted p.viterbiBlockAddresses word v → ((p.after calls).deconvolve v).2 = word) ∧
    (word.length = 768 → Transmitted newFicDecoder.viterbiBlockAddresses word v → ((newFicDecoder.after calls).deconvolve v).2 = word) := by
  refine ⟨?_,?_,?_⟩
  · intro p built length sent
    rw [eepOfBlocks] at built
    rw [← Option.some.inj built] at sent ⊢
    exact ofBlocksExact (eepBlocksA positive small).1 length calls sent
  · intro p built length sent
    rw [eepOfBlocks] at built
    rw [← Option.some.inj built] at sent ⊢
    exact ofBlocksExact (eepBlocksB positive small).1 length calls sent
  · intro length sent
    rw [FicDecoder.newOfBlocks] at sent ⊢
    rw [FicDecoder.ofProtectionAddresses] at sent
    have exact := deconvolveExact (depunctureReceived ficFills length calls sent)
    rw [length] at exact
    unfold FicDecoder.deconvolve
    dsimp only
    rw [FicDecoder.afterOfProtection,FicDecoder.ofProtectionDepuncture]
    exact exact

theorem onesDecoded : ∃ p, eepProtection (8 * 1 : Nat) (3 : Nat) = some p ∧
    ((p.after []).deconvolve (transmit p.viterbiBlockAddresses (List.replicate 192 true))).2 = List.replicate 192 true :=
  ⟨_,eepOfBlocks _ _,(errorFreeDecoding 1 3 (by decide) (by decide) (List.replicate 192 true) [] _).1 _
    (eepOfBlocks _ _) (List.length_replicate) (fun _ _ => rfl)⟩

end DabStar.ChannelDecoding
