import Mathlib.Algebra.Group.Nat.Defs
import Mathlib.Order.Basic

namespace Resocks5.Foundation

/-! Monotonic time in nanoseconds, with the range that `Instant` can represent. -/

abbrev Duration := Nat

abbrev Instant := Nat

def nanosPerSec : Nat := 1000000000

def Duration.ofSecs (secs : Nat) : Duration := secs * nanosPerSec

def Duration.asSecs (length : Duration) : Nat := length / nanosPerSec

def Duration.max : Duration := Duration.ofSecs (2 ^ 64 - 1) + (nanosPerSec - 1)

def Duration.saturatingMul (length : Duration) (factor : Nat) : Duration :=
  min (length * factor) Duration.max

def Instant.max : Instant := Duration.ofSecs (2 ^ 63 - 1) + (nanosPerSec - 1)

def Instant.checkedAdd (now : Instant) (length : Duration) : Option Instant :=
  if now + length ≤ Instant.max then some (now + length) else none

/-! Computations that wait, and that stop where an instant overflows. -/

inductive Halt where
  | abandoned
  | panicked
  deriving DecidableEq, Repr

abbrev Timed (α : Type u) := Except Halt α

/-- What comes of an operation under a time limit, as long as somebody waits for it. -/
inductive Answer (α : Type u) where
  | ready (value : α)
  | elapsed
  | abandoned
  deriving DecidableEq, Repr

def Answer.await (answer : Answer α) (late : α) : Timed α :=
  match answer with
  | ready value => .ok value
  | elapsed => .ok late
  | abandoned => .error .abandoned

theorem Answer.await_eq_iff {answer : Answer α} {late value : α} (hlate : late ≠ value) :
    answer.await late = .ok value ↔ answer = .ready value := by
  cases answer with
  | ready other => exact ⟨fun heq => congrArg ready (Except.ok.inj heq),
      fun heq => congrArg Except.ok (ready.inj heq)⟩
  | elapsed => exact iff_of_false (fun heq => hlate (Except.ok.inj heq)) nofun
  | abandoned => exact iff_of_false nofun nofun

/-- `Instant + Duration`. -/
def Instant.addOrPanic (now : Instant) (length : Duration) : Timed Instant :=
  match Instant.checkedAdd now length with
  | some later => .ok later
  | none => .error .panicked

namespace Timed

def Safe (computed : Timed α) : Prop := computed ≠ .error .panicked

theorem safe_pure (value : α) : Safe (pure value) := nofun

theorem safe_abandoned : Safe (.error .abandoned : Timed α) := nofun

theorem safe_await (answer : Answer α) (late : α) : Safe (answer.await late) := by
  cases answer with
  | ready value => exact safe_pure value
  | elapsed => exact safe_pure late
  | abandoned => exact safe_abandoned

theorem safe_bind_iff {computed : Timed α} {next : α → Timed β} :
    Safe (computed >>= next) ↔ Safe computed ∧ ∀ value, computed = .ok value → Safe (next value) := by
  cases computed with
  | ok value => exact ⟨fun hnext => ⟨safe_pure value, fun _ heq => Except.ok.inj heq ▸ hnext⟩,
      fun hboth => hboth.2 value rfl⟩
  | error halt =>
    cases halt with
    | abandoned => exact iff_of_true safe_abandoned ⟨safe_abandoned, nofun⟩
    | panicked => exact iff_of_false (fun hsafe => hsafe rfl) fun hboth => hboth.1 rfl

theorem safe_addOrPanic_bind {now : Instant} {length : Duration} {next : Instant → Timed α} :
    Safe (Instant.addOrPanic now length >>= next) ↔
      now + length ≤ Instant.max ∧ Safe (next (now + length)) := by
  rw [Instant.addOrPanic, Instant.checkedAdd]
  by_cases hfits : now + length ≤ Instant.max
  · rw [if_pos hfits]
    exact ⟨fun hnext => ⟨hfits, hnext⟩, fun hboth => hboth.2⟩
  · rw [if_neg hfits]
    exact iff_of_false (fun hsafe => hsafe rfl) fun hboth => hfits hboth.1

theorem addOrPanic_bind {now : Instant} {length : Duration} (hfits : now + length ≤ Instant.max)
    (next : Instant → Timed α) : Instant.addOrPanic now length >>= next = next (now + length) := by
  rw [Instant.addOrPanic, Instant.checkedAdd, if_pos hfits]
  rfl

end Timed

theorem Instant.add_min_le_iff (now : Instant) (length : Duration) :
    now + min length Duration.max ≤ Instant.max ↔ now + length ≤ Instant.max := by
  have hless : Instant.max < Duration.max := by decide
  by_cases hle : length ≤ Duration.max
  · rw [Nat.min_eq_left hle]
  · have hlt : Duration.max < length := Nat.lt_of_not_le hle
    have hbehind : Instant.max < now + Duration.max :=
      Nat.lt_of_lt_of_le hless (Nat.le_add_left _ _)
    have hfar : Instant.max < now + length :=
      Nat.lt_of_lt_of_le (Nat.lt_trans hless hlt) (Nat.le_add_left _ _)
    rw [Nat.min_eq_right (Nat.le_of_lt hlt)]
    exact iff_of_false (Nat.not_le_of_lt hbehind) (Nat.not_le_of_lt hfar)

/-- Something holds of every element behind good ones: of the first, and if that is good, so on. -/
theorem forall_behind_cons {α : Type u} {good holds : Nat → α → Prop} {i : Nat} {first : α}
    {rest : List α} :
    (∀ k a, (first :: rest)[k]? = some a →
      (∀ j < k, ∀ b, (first :: rest)[j]? = some b → good (i + j) b) → holds (i + k) a) ↔
    holds i first ∧ (good i first → ∀ k a, rest[k]? = some a →
      (∀ j < k, ∀ b, rest[j]? = some b → good (i + 1 + j) b) → holds (i + 1 + k) a) := by
  constructor
  · intro hall
    refine ⟨hall 0 first rfl nofun, fun hgood k a ha hbehind => ?_⟩
    rw [Nat.add_assoc, Nat.add_comm 1]
    refine hall (k + 1) a ha fun j hj b hb => ?_
    cases j with
    | zero => exact Option.some.inj hb ▸ hgood
    | succ j =>
      rw [← Nat.add_assoc, Nat.add_right_comm]
      exact hbehind j (Nat.lt_of_succ_lt_succ hj) b hb
  · rintro ⟨hfirst, hrest⟩ k a ha hbehind
    cases k with
    | zero => exact Option.some.inj ha ▸ hfirst
    | succ k =>
      rw [← Nat.add_assoc, Nat.add_right_comm]
      refine hrest (hbehind 0 k.succ_pos first rfl) k a ha fun j hj b hb => ?_
      rw [Nat.add_assoc, Nat.add_comm 1]
      exact hbehind (j + 1) (Nat.succ_lt_succ hj) b hb

end Resocks5.Foundation
