import DabStar.Backend
import DabStar.ChannelDecoding

/-! A sub-channel from the transmitter to the driver: energy dispersal, convolutional code,
puncturing and time interleaving on one side, the backend for its FIG 0/1 entry on the other. -/
namespace DabStar.Transmission
open List Fib Fib.FibDecoder Protection SubChannel Backend Deinterleaver ChannelDecoding

def descriptor (e : Fig0s1) : DescriptorType := ⟨e.startAddr,e.subChannelSize,e.bitRate,e.shortForm,e.protectionLevel⟩

/- CIF s carries element i of the word that is depth i CIFs older. -/
def air (b : Backend) (words : Nat → List Bool) (s i : Nat) : Int :=
  transmit b.deconvolver.viterbiBlockAddresses (reverseDispersal (words (s - depth i)) b.disperse) i

theorem transmissionDelivered {d : Bits} {bitOffset : Nat} {b : Backend} (rated : 0 < (readFig0s1 d bitOffset).bitRate)
    (built : newBackend (descriptor (readFig0s1 d bitOffset)) = some b) {words : Nat → List Bool}
    (sized : ∀ t, (words t).length = 24 * b.bitRate) {x : Nat → Nat → Int}
    (sent : ∀ s i, depth i ≤ s → i < b.deconvolver.viterbiBlockAddresses.length → x s i = air b words s i) :
    (∀ t < 16, b.delivered x t = none) ∧ ∀ t, 16 ≤ t → b.delivered x t = some (words (t - 16)) := by
  have start := newStreams built x
  refine ⟨fun t early => deliveredEarly start early,fun t late => ?_⟩
  obtain ⟨rate,blocks,bitRate,handled,fills,most⟩ := readFills rated
  obtain ⟨p,found,same⟩ := Option.map_eq_some_iff.mp built
  obtain rfl := Option.some.inj (handled.symm.trans found)
  have fields : b.deconvolver = ofBlocks rate blocks ∧ b.fragmentSize = ((readFig0s1 d bitOffset).subChannelSize * 64).toNat ∧
      b.bitRate = rate ∧ b.disperse = disperseVector (24 * rate) := by
    have whole : (descriptor (readFig0s1 d bitOffset)).bitRate.toNat = rate := by
      show (readFig0s1 d bitOffset).bitRate.toNat = rate
      rw [bitRate,Int.toNat_natCast]
    rw [← same,whole]
    exact ⟨rfl,rfl,rfl,rfl⟩
  obtain ⟨deconvolver,fragment,rated,disperse⟩ := fields
  have length : (reverseDispersal (words (t - 16)) b.disperse).length = 24 * rate := by
    simp [reverseDispersal,sized,disperse,disperseVectorLength,rated]
  have registered := ofBlocksRegistered fills.1 rate
  obtain ⟨kept,calls,after⟩ := beforeKeeps b x t
  have arrives : Transmitted (ofBlocks rate blocks).viterbiBlockAddresses (reverseDispersal (words (t - 16)) b.disperse)
      (fun k => (b.passed x t).getD k 0) := by
    intro k small
    have read : (b.passed x t).getD k 0 = x (t - 16 + depth k) k := segmentReads (beforeStreams start t) late (by omega)
    dsimp only
    rw [read,sent _ k (Nat.le_add_left _ _) (by rwa [deconvolver]),air,Nat.add_sub_cancel,deconvolver]
  rw [deliveredLate start late,kept,after,deconvolver,ofBlocksExact fills length calls arrives,
    dispersalUndone (by rw [sized,disperse,disperseVectorLength,rated])]

/- Six capacity units with profile 3-A: 8 kbit/s. -/
def smallEntry : Bits := fun k => k = 16 ∨ k = 20 ∨ k = 29 ∨ k = 30

theorem onesDelivered : ∃ b, newBackend (descriptor (readFig0s1 smallEntry 0)) = some b ∧
    b.delivered (air b fun _ => replicate 192 true) 16 = some (replicate 192 true) := by
  have handled : handler (readFig0s1 smallEntry 0) = some (ofBlocks 8 (eepBlocks 8 2)) := eepOfBlocks 8 2
  obtain ⟨b,built,rate⟩ : ∃ b, newBackend (descriptor (readFig0s1 smallEntry 0)) = some b ∧ b.bitRate = 8 :=
    ⟨_,congrArg (Option.map _) handled,rfl⟩
  exact ⟨b,built,(transmissionDelivered (by decide) built (fun _ => by rw [rate,length_replicate]) fun _ _ _ _ => rfl).2 16 (le_refl _)⟩

end DabStar.Transmission
