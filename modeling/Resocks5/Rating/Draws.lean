import Mathlib.Data.Set.Card
import Mathlib.Order.Interval.Finset.Nat
import Mathlib.Tactic.NormNum
import Resocks5.Foundation.Mixing
import Resocks5.Rating.Select

namespace Resocks5.Rating

open Resocks5.Foundation

/-! The generator, over a whole period. -/

namespace SmallRng

def after (seed : UInt64) : Nat → UInt64
  | 0 => seed
  | n + 1 => (nextU64 (after seed n)).2

def draw (seed : UInt64) (n : Nat) : UInt64 := (nextU64 (after seed n)).1

theorem after_eq (seed : UInt64) (n : Nat) :
    after seed n = seed + UInt64.ofNat n * 0x9E3779B97F4A7C15 := by
  induction n with
  | zero => exact ((congrArg (seed + ·) UInt64.zero_mul).trans (UInt64.add_zero seed)).symm
  | succ n ih =>
      rw [after, nextU64, ih, UInt64.ofNat_add, UInt64.add_mul, UInt64.add_assoc]
      rfl

theorem nextU64_injective {first second : UInt64}
    (hsame : (nextU64 first).1 = (nextU64 second).1) : first = second := by
  rw [nextU64, nextU64] at hsame
  have hfirst : 0xBF58476D1CE4E5B9 * 0x96DE1B173F119089 = (1 : UInt64) := by decide
  have hsecond : 0x94D049BB133111EB * 0x319642B2D24D8EC3 = (1 : UInt64) := by decide
  have hlow := @shiftMix_injective 31 (by decide) (by decide) _ _ hsame
  have hmiddle := @shiftMix_injective 27 (by decide) (by decide) _ _ (mul_injective hsecond hlow)
  have hhigh := @shiftMix_injective 30 (by decide) (by decide) _ _ (mul_injective hfirst hmiddle)
  exact (UInt64.add_left_inj _).mp hhigh

theorem draw_distinct (seed : UInt64) {m n : Nat} (hm : m < 2 ^ 64) (hn : n < 2 ^ 64)
    (hsame : draw seed m = draw seed n) : m = n := by
  have hstates := nextU64_injective hsame
  rw [after_eq, after_eq] at hstates
  have hstride : 0x9E3779B97F4A7C15 * 0xF1DE83E19937733D = (1 : UInt64) := by decide
  exact stride_injective hstride seed hm hn hstates

theorem draw_period (seed : UInt64) (n : Nat) : draw seed (n + 2 ^ 64) = draw seed n := by
  have hcount : UInt64.ofNat (n + 2 ^ 64) = UInt64.ofNat n := by
    rw [UInt64.ofNat_add]
    exact UInt64.add_zero _
  rw [draw, draw, after_eq, after_eq, hcount]

theorem nextF64_eq (seed : UInt64) (n : Nat) :
    (smallRng.nextF64 (after seed n)).1 =
      .finite (((draw seed n).toNat / 2 ^ 11 : Nat) / 2 ^ 53) := by
  have hshift : ((draw seed n) >>> 11).toNat = (draw seed n).toNat / 2 ^ 11 := by
    rw [UInt64.toNat_shiftRight]
    exact Nat.shiftRight_eq_div_pow _ _
  rw [smallRng, ← hshift]
  rfl

theorem nextF64_eq_iff (seed : UInt64) (n k : Nat) :
    (smallRng.nextF64 (after seed n)).1 = .finite (k / 2 ^ 53) ↔
      (draw seed n).toNat / 2 ^ 11 = k := by
  rw [nextF64_eq]
  constructor
  · intro hvalue
    have hratio := F64.finite.inj hvalue
    have hnumerators := (div_left_inj' (by norm_num : (2 : ℚ) ^ 53 ≠ 0)).mp hratio
    exact_mod_cast hnumerators
  · rintro rfl
    rfl

end SmallRng

open SmallRng

/-- Over `2 ^ 64` draws from any seed each word is drawn once, and each of the `2 ^ 53` values in
`[0, 1)` that a selection can be given `2 ^ 11` times; then the draws repeat. -/
theorem draws_uniform (seed : UInt64) :
    (∀ value, ∃! n, n < 2 ^ 64 ∧ draw seed n = value) ∧
    (∀ n, draw seed (n + 2 ^ 64) = draw seed n) ∧
    ∀ k : Nat, k < 2 ^ 53 →
      {n | n < 2 ^ 64 ∧ (smallRng.nextF64 (after seed n)).1 = .finite (k / 2 ^ 53)}.ncard =
        2 ^ 11 := by
  have honce (value : UInt64) : ∃! n, n < 2 ^ 64 ∧ draw seed n = value :=
    word_enumerated (fun m n hm hn hsame => draw_distinct seed hm hn hsame) value
  refine ⟨honce, draw_period seed, fun k hk => ?_⟩
  let drawn : Set Nat :=
    {n | n < 2 ^ 64 ∧ (smallRng.nextF64 (after seed n)).1 = .finite (k / 2 ^ 53)}
  have hwords : (fun n => (draw seed n).toNat) '' drawn =
      (Finset.Ico (k * 2 ^ 11) ((k + 1) * 2 ^ 11) : Finset Nat) := by
    ext value
    rw [Finset.coe_Ico]
    constructor
    · rintro ⟨n, ⟨-, hn⟩, rfl⟩
      have hquotient := (nextF64_eq_iff seed n k).mp hn
      dsimp only
      rw [Set.mem_Ico]
      omega
    · intro hvalue
      rw [Set.mem_Ico] at hvalue
      have hsmall : value < 2 ^ 64 := by omega
      obtain ⟨n, ⟨hn, hdraw⟩, -⟩ := honce (UInt64.ofNat value)
      have hword : (draw seed n).toNat = value := by
        rw [hdraw, UInt64.toNat_ofNat_of_lt' hsmall]
      exact ⟨n, ⟨hn, (nextF64_eq_iff seed n k).mpr (by omega)⟩, hword⟩
  have hdistinct : Set.InjOn (fun n => (draw seed n).toNat) drawn := by
    intro m hm n hn hsame
    exact draw_distinct seed hm.1 hn.1 (UInt64.toNat_inj.mp hsame)
  rw [← hdistinct.ncard_image, hwords, Set.ncard_coe_finset, Nat.card_Ico]
  omega

end Resocks5.Rating
