import Resocks5.Rating.Ops

namespace Resocks5.Rating

open Resocks5.Foundation

/-! How long a quarantine is, and when one begins, over everything that happens to a cell. -/

inductive CellOp where
  | hardFailure (now : Instant)
  | tripNow (now : Instant)
  | restore (quarantined : Bool) (left : Duration) (trips consecutive : Nat) (now : Instant)
  | success
  | tryLease (now : Instant)
  deriving DecidableEq, Repr

namespace CellOp

def apply (policy : QuarantinePolicy) (cell : Cell) : CellOp → Cell
  | hardFailure now => (cell.hardFailure now policy).2
  | tripNow now => (cell.tripNow now policy).2
  | restore quarantined left trips consecutive now =>
    Cell.restore quarantined left trips consecutive now policy
  | success => cell.success
  | tryLease now => (cell.tryLease now policy).2

def count (failures : Nat) : CellOp → Nat
  | hardFailure _ => failures + 1
  | success => 0
  | _ => failures

end CellOp

def Cell.applyAll (policy : QuarantinePolicy) (cell : Cell) (ops : List CellOp) : Cell :=
  ops.foldl (CellOp.apply policy) cell

def failuresSinceSuccess (ops : List CellOp) : Nat := ops.foldl CellOp.count 0

/-! The length. -/

theorem double_capped {cap : Duration} (hcap : cap ≤ Duration.max) (turns : Nat)
    {length : Duration} (hpos : 0 < length) (hlength : length ≤ Duration.max) :
    min (QuarantinePolicy.double cap turns length) cap = min (length * 2 ^ turns) cap := by
  induction turns generalizing length with
  | zero => rw [QuarantinePolicy.double, Nat.pow_zero, Nat.mul_one]
  | succ turns ih =>
      have hgrows : length * 2 ≤ length * 2 ^ (turns + 1) :=
        Nat.mul_le_mul_left _ (Nat.le_self_pow (Nat.succ_ne_zero turns) 2)
      rw [QuarantinePolicy.double]
      split
      · rename_i hstop
        have hreached : cap ≤ Duration.saturatingMul length 2 := by
          rw [Bool.or_eq_true, beq_iff_eq, decide_eq_true_eq] at hstop
          obtain hstuck | hreached := hstop
          · rw [Duration.saturatingMul] at hstuck ⊢
            obtain hle | hle := Nat.le_total (length * 2) Duration.max
            · rw [Nat.min_eq_left hle] at hstuck
              have hmore : length < length * 2 :=
                (Nat.lt_mul_iff_one_lt_right hpos).mpr Nat.one_lt_two
              exact absurd hstuck (Nat.ne_of_gt hmore)
            · rwa [Nat.min_eq_right hle]
          · exact hreached
        have hall : cap ≤ length * 2 ^ (turns + 1) :=
          (hreached.trans (Nat.min_le_left _ _)).trans hgrows
        rw [Nat.min_eq_right hreached, Nat.min_eq_right hall]
      · rename_i hgoes
        rw [Bool.or_eq_true, not_or, decide_eq_true_eq, Nat.not_le] at hgoes
        have hfits : length * 2 ≤ Duration.max := by
          by_contra hover
          have hmax : Duration.saturatingMul length 2 = Duration.max :=
            Nat.min_eq_right (Nat.le_of_lt (Nat.not_le.mp hover))
          exact absurd hcap (Nat.not_le.mpr (hmax ▸ hgoes.2))
        have hdoubled : Duration.saturatingMul length 2 = length * 2 := Nat.min_eq_left hfits
        rw [hdoubled, ih (Nat.mul_pos hpos Nat.two_pos) hfits, Nat.mul_assoc, ← Nat.pow_succ']

theorem durationFor_eq {policy : QuarantinePolicy} (hinitial : 0 < policy.initial)
    (hle : policy.initial ≤ policy.max) (hmax : policy.max ≤ Duration.max) (trips : Nat) :
    policy.durationFor trips = min (policy.initial * 2 ^ (trips - 1)) policy.max :=
  double_capped hmax (trips - 1) hinitial (hle.trans hmax)

theorem validate_enabled {policy : QuarantinePolicy} (henabled : policy.enabled = true)
    (hvalid : policy.validate = true) :
    0 < policy.initial ∧ policy.initial ≤ policy.max ∧ 0 < policy.probeLease := by
  rw [QuarantinePolicy.validate, henabled] at hvalid
  simpa [and_assoc] using hvalid

/-! The counters. -/

/-- What the counters of a cell say of the operations so far. -/
structure Accounted (policy : QuarantinePolicy) (failures : Nat) (cell : Cell) : Prop where
  alive : cell.untilAt = none → cell.consecutive = failures ∧ failures < policy.threshold
  tripped : cell.untilAt ≠ none → 1 ≤ cell.trips ∧ policy.threshold ≤ cell.consecutive

theorem hardFailure_cases (policy : QuarantinePolicy) (cell : Cell) (now : Instant) :
    (cell.state now = .quarantined ∧ cell.hardFailure now policy = (none, cell)) ∨
      (cell.state now ≠ .quarantined ∧ saturatingSucc cell.consecutive < policy.threshold ∧
        cell.hardFailure now policy =
          (none, { cell with consecutive := saturatingSucc cell.consecutive, leaseUntil := none })) ∨
      (cell.state now ≠ .quarantined ∧ policy.threshold ≤ saturatingSucc cell.consecutive ∧
        cell.hardFailure now policy =
          (some (policy.durationFor (saturatingSucc cell.trips)),
            { consecutive := saturatingSucc cell.consecutive
              trips := saturatingSucc cell.trips
              untilAt := some (deadline now (policy.durationFor (saturatingSucc cell.trips)))
              leaseUntil := none })) := by
  by_cases hstate : cell.state now = .quarantined
  · exact .inl ⟨hstate, by rw [Cell.hardFailure, if_pos hstate]⟩
  · refine .inr ?_
    rw [Cell.hardFailure, if_neg hstate]
    dsimp only
    by_cases hbelow : saturatingSucc cell.consecutive < policy.threshold
    · exact .inl ⟨hstate, hbelow, by rw [if_pos hbelow]⟩
    · exact .inr ⟨hstate, Nat.not_lt.mp hbelow, by rw [if_neg hbelow]⟩

theorem hardFailure_accounted {policy : QuarantinePolicy} {failures : Nat} {cell : Cell}
    (haccounted : Accounted policy failures cell) (now : Instant) :
    Accounted policy (failures + 1) (cell.hardFailure now policy).2 := by
  obtain ⟨hstate, heq⟩ | ⟨hstate, hbelow, heq⟩ | ⟨hstate, hreached, heq⟩ :=
    hardFailure_cases policy cell now
  · rw [heq]
    obtain ⟨ending, hending, -⟩ := Cell.state_quarantined.mp hstate
    refine ⟨fun hnone => ?_, haccounted.tripped⟩
    rw [hending] at hnone
    cases hnone
  · rw [heq]
    refine ⟨fun hnone => ?_, fun htripped => ?_⟩
    · obtain ⟨hcount, hlt⟩ := haccounted.alive hnone
      rw [hcount, saturatingSucc_lt policy.bounded hlt] at hbelow
      exact ⟨by rw [hcount, saturatingSucc_lt policy.bounded hlt], hbelow⟩
    · obtain ⟨htrips, hconsecutive⟩ := haccounted.tripped htripped
      exact ⟨htrips, saturatingSucc_le policy.bounded hconsecutive⟩
  · rw [heq]
    exact ⟨nofun, fun _ => ⟨saturatingSucc_one _, hreached⟩⟩

theorem tryLease_counters (policy : QuarantinePolicy) (cell : Cell) (now : Instant) :
    (cell.tryLease now policy).2.untilAt = cell.untilAt ∧
      (cell.tryLease now policy).2.trips = cell.trips ∧
      (cell.tryLease now policy).2.consecutive = cell.consecutive := by
  unfold Cell.tryLease
  split
  · exact ⟨rfl, rfl, rfl⟩
  · split
    · exact ⟨rfl, rfl, rfl⟩
    · exact ⟨rfl, rfl, rfl⟩

theorem CellOp.apply_accounted {policy : QuarantinePolicy} (henabled : policy.enabled = true)
    {failures : Nat} {cell : Cell} (haccounted : Accounted policy failures cell) (op : CellOp) :
    Accounted policy (CellOp.count failures op) (CellOp.apply policy cell op) := by
  cases op with
  | hardFailure now => exact hardFailure_accounted haccounted now
  | tripNow now =>
      exact ⟨nofun, fun _ => ⟨saturatingSucc_one _, Nat.le_max_right _ _⟩⟩
  | restore quarantined left trips consecutive now =>
      exact ⟨nofun, fun _ => ⟨Nat.le_max_right _ _, Nat.le_max_right _ _⟩⟩
  | success =>
      exact ⟨fun _ => ⟨rfl, of_decide_eq_true henabled⟩, fun htripped => absurd rfl htripped⟩
  | tryLease now =>
      obtain ⟨huntil, htrips, hconsecutive⟩ := tryLease_counters policy cell now
      refine ⟨fun hnone => ?_, fun htripped => ?_⟩
      · rw [CellOp.apply, hconsecutive]
        exact haccounted.alive (huntil.symm.trans hnone)
      · rw [CellOp.apply, hconsecutive, htrips]
        exact haccounted.tripped (huntil ▸ htripped)

theorem applyAll_accounted {policy : QuarantinePolicy} (henabled : policy.enabled = true)
    (ops : List CellOp) {failures : Nat} {cell : Cell}
    (haccounted : Accounted policy failures cell) :
    Accounted policy (ops.foldl CellOp.count failures) (cell.applyAll policy ops) := by
  induction ops generalizing failures cell with
  | nil => exact haccounted
  | cons op ops ih => exact ih (CellOp.apply_accounted henabled haccounted op)

theorem fresh_accounted {policy : QuarantinePolicy} (henabled : policy.enabled = true) :
    Accounted policy 0 Cell.fresh :=
  ⟨fun _ => ⟨rfl, of_decide_eq_true henabled⟩, fun htripped => absurd rfl htripped⟩

/-- A trip at `now`: the counter goes up, and the quarantine is as long as the counter says. -/
structure Trips (policy : QuarantinePolicy) (now : Instant) (before : Cell) (length : Duration)
    (after : Cell) : Prop where
  counter : after.trips = min (before.trips + 1) u32Max
  doubled : length = min (policy.initial * 2 ^ (after.trips - 1)) policy.max
  untilAt : after.untilAt = some (deadline now length)
  ending : now + length ≤ Instant.max → after.untilAt = some (now + length)

theorem trips_mk {policy : QuarantinePolicy} (henabled : policy.enabled = true)
    (hvalid : policy.validate = true) (hmax : policy.max ≤ Duration.max) {now : Instant}
    {before after : Cell} (htrips : after.trips = saturatingSucc before.trips)
    (huntil : after.untilAt =
      some (deadline now (policy.durationFor (saturatingSucc before.trips)))) :
    Trips policy now before (policy.durationFor (saturatingSucc before.trips)) after := by
  obtain ⟨hinitial, hle, -⟩ := validate_enabled henabled hvalid
  refine ⟨htrips, ?_, huntil, fun hfits => ?_⟩
  · rw [htrips]
    exact durationFor_eq hinitial hle hmax _
  · rw [huntil, deadline, Instant.checkedAdd, if_pos hfits]
    rfl

/-- The law of the backoff, over any operations at any times. -/
theorem backoff_law {policy : QuarantinePolicy} (henabled : policy.enabled = true)
    (hvalid : policy.validate = true) (hmax : policy.max ≤ Duration.max) (ops : List CellOp)
    (now : Instant) :
    let cell := Cell.fresh.applyAll policy ops
    (cell.untilAt ≠ none → 1 ≤ cell.trips ∧ policy.threshold ≤ cell.consecutive) ∧
      (cell.state now = .healthy → ((cell.hardFailure now policy).1.isSome = true ↔
        failuresSinceSuccess (ops ++ [.hardFailure now]) = policy.threshold)) ∧
      (∀ length, (cell.hardFailure now policy).1 = some length →
        Trips policy now cell length (cell.hardFailure now policy).2) ∧
      Trips policy now cell (cell.tripNow now policy).1 (cell.tripNow now policy).2 ∧
      (cell.state now = .quarantined → cell.hardFailure now policy = (none, cell)) ∧
      (cell.state now = .probation → (cell.hardFailure now policy).1.isSome = true) ∧
      (cell.success = ⟨0, 0, none, none⟩ ∧ ∀ later, cell.success.state later = .healthy) := by
  intro cell
  have haccounted : Accounted policy (failuresSinceSuccess ops) cell :=
    applyAll_accounted henabled ops (fresh_accounted henabled)
  refine ⟨haccounted.tripped, fun hhealthy => ?_, fun length hlength => ?_, ?_, fun hrunning => ?_,
    fun hprobation => ?_, rfl, fun _ => rfl⟩
  · have hnone := Cell.state_healthy.mp hhealthy
    obtain ⟨hcount, hlt⟩ := haccounted.alive hnone
    have hnext : failuresSinceSuccess (ops ++ [.hardFailure now]) =
        failuresSinceSuccess ops + 1 := by
      rw [failuresSinceSuccess, List.foldl_append]
      rfl
    rw [hnext]
    obtain ⟨hstate, -⟩ | ⟨-, hbelow, heq⟩ | ⟨-, hreached, heq⟩ := hardFailure_cases policy cell now
    · rw [hhealthy] at hstate
      cases hstate
    · rw [hcount, saturatingSucc_lt policy.bounded hlt] at hbelow
      rw [heq]
      exact iff_of_false Bool.false_ne_true (Nat.ne_of_lt hbelow)
    · rw [hcount, saturatingSucc_lt policy.bounded hlt] at hreached
      rw [heq]
      exact iff_of_true rfl (Nat.le_antisymm hlt hreached)
  · obtain ⟨-, heq⟩ | ⟨-, -, heq⟩ | ⟨-, -, heq⟩ := hardFailure_cases policy cell now
    · rw [heq] at hlength
      cases hlength
    · rw [heq] at hlength
      cases hlength
    · rw [heq] at hlength ⊢
      obtain rfl := Option.some.inj hlength
      exact trips_mk henabled hvalid hmax rfl rfl
  · exact trips_mk henabled hvalid hmax rfl rfl
  · rw [Cell.hardFailure, if_pos hrunning]
  · obtain ⟨ending, hending, -⟩ := Cell.state_probation.mp hprobation
    obtain ⟨-, hthreshold⟩ := haccounted.tripped (by rw [hending]; nofun)
    obtain ⟨hstate, -⟩ | ⟨-, hbelow, -⟩ | ⟨-, -, heq⟩ := hardFailure_cases policy cell now
    · rw [hprobation] at hstate
      cases hstate
    · exact absurd (saturatingSucc_le policy.bounded hthreshold) (Nat.not_le.mpr hbelow)
    · rw [heq]
      rfl

/-- The third trip of a cell with one failure too many each time. -/
theorem backoff_law_third :
    ((Cell.fresh.applyAll ⟨2, 30, 100, 25, by decide⟩
      [.hardFailure 0, .hardFailure 0, .hardFailure 40]).hardFailure 200
        ⟨2, 30, 100, 25, by decide⟩).1 = some (min (30 * 2 ^ 2) 100) := by
  have hlaw := @backoff_law ⟨2, 30, 100, 25, by decide⟩ rfl rfl (by decide +kernel)
    [.hardFailure 0, .hardFailure 0, .hardFailure 40] 200
  obtain ⟨length, hlength⟩ := Option.isSome_iff_exists.mp
    (hlaw.2.2.2.2.2.1 (by decide +kernel))
  have htrips := hlaw.2.2.1 length hlength
  have hcounter : ((Cell.fresh.applyAll ⟨2, 30, 100, 25, by decide⟩
      [.hardFailure 0, .hardFailure 0, .hardFailure 40]).hardFailure 200
        ⟨2, 30, 100, 25, by decide⟩).2.trips = 3 := by decide +kernel
  rw [hlength, htrips.doubled, hcounter]

end Resocks5.Rating
