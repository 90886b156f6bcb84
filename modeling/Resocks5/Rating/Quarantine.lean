import Resocks5.Foundation.Timed

namespace Resocks5.Rating

open Resocks5.Foundation

/-! The quarantine bookkeeping of one upstream. -/

def u32Max : Nat := 2 ^ 32 - 1

theorem one_le_u32Max : 1 ≤ u32Max := by decide

theorem three_le_u32Max : 3 ≤ u32Max := by decide

/-- The threshold is a `u32`. -/
structure QuarantinePolicy where
  threshold : Nat
  initial : Duration
  max : Duration
  probeLease : Duration
  bounded : threshold ≤ u32Max
  deriving DecidableEq, Repr

def saturatingSucc (count : Nat) : Nat := min (count + 1) u32Max

theorem saturatingSucc_one (count : Nat) : 1 ≤ saturatingSucc count :=
  Nat.le_min.mpr ⟨Nat.le_add_left 1 count, by decide⟩

theorem saturatingSucc_lt {count bound : Nat} (hbound : bound ≤ u32Max) (hcount : count < bound) :
    saturatingSucc count = count + 1 :=
  Nat.min_eq_left (Nat.le_trans hcount hbound)

theorem saturatingSucc_le {count bound : Nat} (hbound : bound ≤ u32Max) (hcount : bound ≤ count) :
    bound ≤ saturatingSucc count :=
  Nat.le_min.mpr ⟨Nat.le_succ_of_le hcount, hbound⟩

namespace QuarantinePolicy

def enabled (policy : QuarantinePolicy) : Bool :=
  0 < policy.threshold

def validate (policy : QuarantinePolicy) : Bool :=
  !policy.enabled ||
    (0 < policy.initial && policy.initial ≤ policy.max && 0 < policy.probeLease)

/-- The doubling loop; it stops at the cap, or once the length saturates. -/
def double (max : Duration) : Nat → Duration → Duration
  | 0, length => length
  | turns + 1, length =>
    let doubled := Duration.saturatingMul length 2
    let stuck := doubled == length
    if stuck || max ≤ doubled then doubled else double max turns doubled

def durationFor (policy : QuarantinePolicy) (trips : Nat) : Duration :=
  min (double policy.max (trips - 1) policy.initial) policy.max

end QuarantinePolicy

inductive State where
  | healthy
  | quarantined
  | probation
  deriving DecidableEq, Repr

/-- A hundred years, for deadlines that `Instant` cannot represent. -/
def far : Duration := Duration.ofSecs (100 * 365 * 24 * 3600)

def deadline (now : Instant) (length : Duration) : Instant :=
  ((Instant.checkedAdd now length).or (Instant.checkedAdd now far)).getD now

structure Cell where
  consecutive : Nat
  trips : Nat
  untilAt : Option Instant
  leaseUntil : Option Instant
  deriving DecidableEq, Repr

structure CellSnapshot where
  state : State
  left : Duration
  trips : Nat
  consecutive : Nat
  deriving DecidableEq, Repr

namespace Cell

def fresh : Cell := ⟨0, 0, none, none⟩

def state (cell : Cell) (now : Instant) : State :=
  match cell.untilAt with
  | none => .healthy
  | some ending => if now < ending then .quarantined else .probation

def isTripped (cell : Cell) : Bool :=
  cell.untilAt.isSome

/-- A failure inside an active quarantine belongs to an older request. -/
def hardFailure (cell : Cell) (now : Instant) (policy : QuarantinePolicy) :
    Option Duration × Cell :=
  if cell.state now = .quarantined then (none, cell)
  else
    let cell := { cell with
      leaseUntil := none
      consecutive := saturatingSucc cell.consecutive }
    if cell.consecutive < policy.threshold then (none, cell)
    else
      let trips := saturatingSucc cell.trips
      let length := policy.durationFor trips
      (some length, { cell with trips, untilAt := some (deadline now length) })

def tripNow (cell : Cell) (now : Instant) (policy : QuarantinePolicy) : Duration × Cell :=
  let trips := saturatingSucc cell.trips
  let length := policy.durationFor trips
  (length,
    { consecutive := max cell.consecutive policy.threshold
      trips
      untilAt := some (deadline now length)
      leaseUntil := none })

def snapshot (cell : Cell) (now : Instant) : CellSnapshot :=
  let left := match cell.state now, cell.untilAt with
    | .quarantined, some ending => ending - now
    | _, _ => 0
  ⟨cell.state now, left, cell.trips, cell.consecutive⟩

/-- Quarantined for `left` more, capped; otherwise on probation at once. -/
def restore (quarantined : Bool) (left : Duration) (trips consecutive : Nat) (now : Instant)
    (policy : QuarantinePolicy) : Cell :=
  let left := if quarantined then min left policy.max else 0
  { consecutive := max consecutive policy.threshold
    trips := max trips 1
    untilAt := some (deadline now left)
    leaseUntil := none }

def success (_ : Cell) : Cell := fresh

/-- Claim the probation slot, unless a lease that still runs holds it. -/
def tryLease (cell : Cell) (now : Instant) (policy : QuarantinePolicy) : Bool × Cell :=
  if cell.state now ≠ .probation then (false, cell)
  else if cell.leaseUntil.any (now < ·) then (false, cell)
  else
    (true, { cell with
      leaseUntil := some ((Instant.checkedAdd now policy.probeLease).getD now) })

@[simp] theorem state_healthy {cell : Cell} {now : Instant} :
    cell.state now = .healthy ↔ cell.untilAt = none := by
  unfold state
  cases cell.untilAt with
  | none => simp
  | some ending =>
      simp only [reduceCtorEq, iff_false]
      split <;> exact State.noConfusion

theorem state_probation {cell : Cell} {now : Instant} :
    cell.state now = .probation ↔ ∃ ending, cell.untilAt = some ending ∧ ending ≤ now := by
  unfold state
  cases cell.untilAt with
  | none => simp
  | some ending => simp

theorem state_quarantined {cell : Cell} {now : Instant} :
    cell.state now = .quarantined ↔ ∃ ending, cell.untilAt = some ending ∧ now < ending := by
  unfold state
  cases cell.untilAt with
  | none => simp
  | some ending => simp

theorem tryLease_granted {cell : Cell} {now : Instant} {policy : QuarantinePolicy}
    (hgranted : (cell.tryLease now policy).1 = true) :
    cell.state now = .probation ∧ ∀ lease, cell.leaseUntil = some lease → lease ≤ now := by
  unfold tryLease at hgranted
  split at hgranted
  · cases hgranted
  · rename_i hstate
    split at hgranted
    · cases hgranted
    · rename_i hlease
      refine ⟨not_not.mp hstate, fun lease heq => ?_⟩
      rw [heq] at hlease
      simpa using hlease

theorem tryLease_lease {cell : Cell} {now : Instant} {policy : QuarantinePolicy}
    (hgranted : (cell.tryLease now policy).1 = true) :
    (cell.tryLease now policy).2.leaseUntil =
      some ((Instant.checkedAdd now policy.probeLease).getD now) := by
  unfold tryLease at hgranted ⊢
  split
  · rename_i hstate
    rw [if_pos hstate] at hgranted
    cases hgranted
  · rename_i hstate
    rw [if_neg hstate] at hgranted
    split
    · rename_i hlease
      rw [if_pos hlease] at hgranted
      cases hgranted
    · rfl

theorem tryLease_refused {cell : Cell} {now : Instant} {policy : QuarantinePolicy}
    (hrefused : (cell.tryLease now policy).1 = false) :
    (cell.tryLease now policy).2 = cell := by
  unfold tryLease at hrefused ⊢
  split
  · rfl
  · split
    · rfl
    · rename_i hstate hlease
      rw [if_neg hstate, if_neg hlease] at hrefused
      cases hrefused

end Cell

end Resocks5.Rating
