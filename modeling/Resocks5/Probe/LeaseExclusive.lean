import Resocks5.Probe.ChainProbes
import Resocks5.Rating.Backoff
import Resocks5.Rating.Selection

namespace Resocks5.Probe

open Resocks5.Foundation
open Resocks5.Rating
open Ratings

/-! One lease after the other. -/

def opTime : Op → Instant
  | .failure _ now | .hardFailure _ now | .quarantineNow _ now | .success _ now
  | .restore _ _ now | .takeProbes now | .pick now | .pickOrder now => now

section

variable {ρ : Type u} (arith : FloatArith) (rng : Rng ρ)

/-- From the lease that `i` gets at `first` to the next one with no report on `i` in between, a
whole lease passes. -/
def LeaseExclusive (ratings : Ratings ρ) (first : Instant) (i : Nat) : Prop :=
  ∀ between later, (∀ op ∈ between, op.settles i = false) →
    (first :: between.map opTime ++ [later]).Pairwise (· ≤ ·) →
    i ∈ (((ratings.takeProbes first).2.applyAll arith rng between).takeProbes later).1 →
    first + ratings.quarantine.probeLease ≤ later

theorem tryLease_again {policy : QuarantinePolicy} {cell : Cell} {now : Instant}
    (hgranted : (cell.tryLease now policy).1 = true)
    (hover : Instant.checkedAdd now policy.probeLease = none) :
    ((cell.tryLease now policy).2.tryLease now policy).1 = true := by
  obtain ⟨hstate, -⟩ := Cell.tryLease_granted hgranted
  have hlease := Cell.tryLease_lease hgranted
  rw [hover, Option.getD_none] at hlease
  have huntil := (tryLease_counters policy cell now).1
  have hstate' : (cell.tryLease now policy).2.state now = .probation := by
    obtain ⟨ending, hending, hle⟩ := Cell.state_probation.mp hstate
    exact Cell.state_probation.mpr ⟨ending, huntil.trans hending, hle⟩
  generalize (cell.tryLease now policy).2 = leased at hlease hstate'
  rw [Cell.tryLease, if_neg (not_not.mpr hstate'), hlease, if_neg (by simp)]

/-- A lease excludes the next one for its whole length exactly where its end can be represented. -/
theorem lease_exclusive (n : Nat) (policy : RatingPolicy) (quarantine : QuarantinePolicy)
    (created : Instant) (seed : ρ) (hvalid : quarantine.validate = true) (ops : List Op)
    (first : Instant) (i : Nat)
    (hfirst : i ∈ (((fresh n policy quarantine created seed).applyAll arith rng
      ops).takeProbes first).1) :
    LeaseExclusive arith rng ((fresh n policy quarantine created seed).applyAll arith rng ops)
        first i ↔
      first + quarantine.probeLease ≤ Instant.max := by
  have hpolicy : ((fresh n policy quarantine created seed).applyAll arith rng ops).quarantine =
      quarantine :=
    (applyAll_cell arith rng (fun _ _ _ => True) ops (fresh n policy quarantine created seed)
      (fun _ _ _ _ _ => trivial) (fun _ _ _ => trivial)).1
  generalize (fresh n policy quarantine created seed).applyAll arith rng ops = ratings
    at hfirst hpolicy ⊢
  obtain ⟨henabled, cell, hcell, hgranted⟩ := mem_takeProbes.mp hfirst
  rw [hpolicy] at henabled
  have hpos := (validate_enabled henabled hvalid).2.2
  constructor
  · intro hexclusive
    by_contra hover
    have hnone : Instant.checkedAdd first quarantine.probeLease = none := if_neg hover
    obtain ⟨hsame, hcells⟩ := takeProbes_cell ratings first i
    rw [hcell, Option.map_some, Op.onCell, hpolicy, if_pos henabled] at hcells
    have hagain : i ∈ ((ratings.takeProbes first).2.takeProbes first).1 := by
      rw [hpolicy] at hsame hgranted
      refine mem_takeProbes.mpr ⟨hsame ▸ henabled, _, hcells, ?_⟩
      rw [hsame]
      exact tryLease_again hgranted hnone
    have hle := hexclusive [] first (by simp) (by simp) hagain
    rw [hpolicy] at hle
    exact absurd (Nat.lt_add_of_pos_right hpos) (Nat.not_lt.mpr hle)
  · intro hfits between later hquiet _ hsecond
    have hending : Instant.checkedAdd first ratings.quarantine.probeLease =
        some (first + ratings.quarantine.probeLease) := by
      rw [hpolicy]
      exact if_pos hfits
    exact probe_after_lease hfirst hending hquiet hsecond

end

theorem lease_exclusive_default :
    LeaseExclusive exactArith smallRng ((fresh 1 ⟨.finite 30, .finite 0, .finite 8, .finite 1,
      .finite 1⟩ ⟨1, 30, 600, 25, by decide⟩ 0 (7 : UInt64)).applyAll exactArith smallRng
        [.hardFailure 0 0]) 30 0 :=
  (lease_exclusive exactArith smallRng 1 _ _ 0 7 (by decide) [.hardFailure 0 0] 30 0
    (by decide +kernel)).mpr (by decide +kernel)

/-- A connect timeout of `u64::MAX` seconds, and the same upstream is probed twice at once. -/
theorem lease_reissued : ¬ ∀ (connectSec handshakeSec gates : Nat),
    connectSec < 2 ^ 64 → handshakeSec < 2 ^ 64 → ∀ (ops : List Op) (first : Instant) (i : Nat),
    let quarantine : QuarantinePolicy := ⟨3, Duration.ofSecs 30, Duration.ofSecs 600,
      probeLease (Duration.ofSecs connectSec) (Duration.ofSecs handshakeSec) gates, by decide⟩
    let ratings := (fresh 1 ⟨.finite 30, .finite 0, .finite 8, .finite 1, .finite 1⟩ quarantine 0
      (7 : UInt64)).applyAll exactArith smallRng ops
    i ∈ (ratings.takeProbes first).1 → LeaseExclusive exactArith smallRng ratings first i := by
  intro hall
  have hexclusive := hall (2 ^ 64 - 1) 10 1 (by decide) (by decide)
    [.hardFailure 0 0, .hardFailure 0 0, .hardFailure 0 0] (Duration.ofSecs 30) 0
    (by decide +kernel) [] (Duration.ofSecs 30) (by simp) (by simp) (by decide +kernel)
  revert hexclusive
  decide +kernel

end Resocks5.Probe
