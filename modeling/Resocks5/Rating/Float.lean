import Mathlib.Data.Rat.Defs
import Mathlib.Algebra.Order.Ring.Rat

namespace Resocks5.Rating

/-! `f64` as its value: comparisons are exact, arithmetic rounds as the machine does. -/

inductive F64 where
  | nan
  | negInf
  | negZero
  | finite (value : ℚ)
  | posInf
  deriving DecidableEq, Repr

namespace F64

def zero : F64 := .finite 0

def minPositive : F64 := .finite (1 / 2 ^ 1022)

def isFinite : F64 → Bool
  | .negZero | .finite _ => true
  | _ => false

/-- Place on the extended line; NaN has none. -/
def place : F64 → Option (Int × ℚ)
  | .nan => none
  | .negInf => some (-1, 0)
  | .negZero => some (0, 0)
  | .finite value => some (0, value)
  | .posInf => some (1, 0)

def lt (a b : F64) : Bool :=
  match a.place, b.place with
  | some (a, x), some (b, y) => a < b || (a == b && x < y)
  | _, _ => false

def le (a b : F64) : Bool :=
  match a.place, b.place with
  | some (a, x), some (b, y) => a < b || (a == b && x ≤ y)
  | _, _ => false

/-- The larger of two numbers; a NaN is ignored. -/
def max (a b : F64) : F64 :=
  match a, b with
  | .nan, b => b
  | a, .nan => a
  | a, b => if a.lt b then b else a

/-- The smaller of two numbers; a NaN is ignored. -/
def min (a b : F64) : F64 :=
  match a, b with
  | .nan, b => b
  | a, .nan => a
  | a, b => if b.lt a then b else a

/-- `total_cmp` is never `Greater`: `-0` before `0`, NaN last. -/
def totalLe (a b : F64) : Bool :=
  match a, b with
  | _, .nan => true
  | .nan, _ => false
  | .finite x, .negZero => x < 0
  | a, b => a.le b

/-- The weights that selection may choose. -/
def positive (w : F64) : Bool :=
  w.isFinite && zero.lt w

theorem positive_iff {w : F64} : w.positive = true ↔ ∃ value : ℚ, w = .finite value ∧ 0 < value := by
  cases w <;> simp [positive, isFinite, zero, lt, place]

theorem zero_not_positive : positive zero = false := by decide

theorem max_positive {m w : F64} (hm : m = zero ∨ m.positive = true) (hw : w.positive = true) :
    (m.max w).positive = true := by
  obtain ⟨value, rfl, hvalue⟩ := positive_iff.mp hw
  obtain rfl | hm := hm
  · simp [max, lt, zero, place, hvalue, positive, isFinite]
  · obtain ⟨other, rfl, hother⟩ := positive_iff.mp hm
    simp only [max]
    split
    · exact hw
    · exact hm

theorem positive_not_le_zero {w : F64} (hw : w.positive = true) : w.le zero = false := by
  obtain ⟨value, rfl, hvalue⟩ := positive_iff.mp hw
  simp [le, zero, place, hvalue]

end F64

/-- The machine's `f64` arithmetic, with whatever rounding it has. -/
structure FloatArith where
  add : F64 → F64 → F64
  sub : F64 → F64 → F64
  mul : F64 → F64 → F64
  div : F64 → F64 → F64
  neg : F64 → F64
  ln : F64 → F64
  exp : F64 → F64
  /-- Seconds of a duration given in nanoseconds. -/
  seconds : Nat → F64

end Resocks5.Rating
