import Mathlib.Data.Fintype.EquivFin
import Mathlib.Data.UInt

namespace Resocks5.Foundation

/-! Maps of machine words that lose nothing. -/

open Function

theorem xorShift_injective {w k : Nat} (hk : 0 < k) :
    Injective fun word : BitVec w => word ^^^ (word >>> k) := by
  intro first second hmixed
  have hbit : ∀ above i, w ≤ i + above → first.getLsbD i = second.getLsbD i := by
    intro above
    induction above using Nat.strongRecOn with
    | ind above ih =>
        intro i hi
        by_cases hout : w ≤ i
        · rw [BitVec.getLsbD_of_ge _ _ hout, BitVec.getLsbD_of_ge _ _ hout]
        · have hhigher := ih (above - 1) (by omega) (k + i) (by omega)
          have hsame := congrArg (fun word => word.getLsbD i) hmixed
          dsimp only at hsame
          rw [BitVec.getLsbD_xor, BitVec.getLsbD_xor, BitVec.getLsbD_ushiftRight,
            BitVec.getLsbD_ushiftRight, hhigher] at hsame
          exact Bool.xor_left_inj.mp hsame
  exact BitVec.eq_of_getLsbD_eq fun i _ => hbit w i (Nat.le_add_left _ _)

theorem shiftMix_injective {k : Nat} (hk : 0 < k) (hsmall : k < 64) :
    Injective fun word : UInt64 => word ^^^ (word >>> UInt64.ofNat k) := by
  have hshift (word : UInt64) : (word ^^^ (word >>> UInt64.ofNat k)).toBitVec =
      word.toBitVec ^^^ (word.toBitVec >>> k) := by
    have hmod : k % 2 ^ 64 % 64 = k := by omega
    rw [UInt64.toBitVec_xor, UInt64.toBitVec_shiftRight, BitVec.ushiftRight_eq', BitVec.toNat_umod,
      UInt64.toBitVec_ofNat', BitVec.toNat_ofNat]
    exact congrArg (word.toBitVec ^^^ word.toBitVec >>> ·) hmod
  intro first second hmixed
  refine UInt64.toBitVec_inj.mp (xorShift_injective hk ?_)
  dsimp only at hmixed ⊢
  rw [← hshift, ← hshift, hmixed]

theorem mul_injective {factor inverse : UInt64} (hinverse : factor * inverse = 1) :
    Injective fun word : UInt64 => word * factor := by
  intro first second hproducts
  have hundone := congrArg (· * inverse) hproducts
  simpa only [UInt64.mul_assoc, hinverse, UInt64.mul_one] using hundone

theorem stride_injective {stride inverse : UInt64} (hinverse : stride * inverse = 1)
    (origin : UInt64) {m n : Nat} (hm : m < 2 ^ 64) (hn : n < 2 ^ 64)
    (hsame : origin + UInt64.ofNat m * stride = origin + UInt64.ofNat n * stride) : m = n := by
  have hcounts := mul_injective hinverse ((UInt64.add_right_inj origin).mp hsame)
  have hvalues := congrArg UInt64.toNat hcounts
  rwa [UInt64.toNat_ofNat_of_lt' hm, UInt64.toNat_ofNat_of_lt' hn] at hvalues

theorem word_enumerated {word : Nat → UInt64}
    (hdistinct : ∀ m n, m < 2 ^ 64 → n < 2 ^ 64 → word m = word n → m = n) (value : UInt64) :
    ∃! n, n < 2 ^ 64 ∧ word n = value := by
  have hinjective : Injective fun n : Fin (2 ^ 64) => (word n).toFin := by
    intro m n hsame
    exact Fin.ext (hdistinct m n m.isLt n.isLt (UInt64.toFin_inj.mp hsame))
  obtain ⟨n, hn⟩ := Finite.injective_iff_surjective.mp hinjective value.toFin
  refine ⟨n, ⟨n.isLt, UInt64.toFin_inj.mp hn⟩, fun m hm => ?_⟩
  exact hdistinct m n hm.1 n.isLt (hm.2.trans (UInt64.toFin_inj.mp hn).symm)

end Resocks5.Foundation
