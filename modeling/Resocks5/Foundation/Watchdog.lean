import Mathlib.Order.Lattice
import Mathlib.Order.Monotone.Basic

namespace Resocks5.Foundation

/-! A timer that is set again only when it goes off. -/

/-- `heard` is the last sign of life, `armed` when the timer goes off next. -/
structure Watchdog (Time : Type u) where
  heard : Time
  armed : Time

namespace Watchdog

variable {Time : Type u}

def hear (dog : Watchdog Time) (time : Time) : Watchdog Time := { dog with heard := time }

variable [LinearOrder Time]

/-- The timer goes off: `none` if the last sign of life was due before, else it is set again. -/
def wake (due : Time → Time) (dog : Watchdog Time) (now : Time) : Option (Watchdog Time) :=
  if due dog.heard ≤ now then none else some { dog with armed := due dog.heard }

/-- No sign of life is forgotten; `latest` is when there was anything at all. -/
structure Guards (due : Time → Time) (signs : Time → Prop) (latest : Time)
    (dog : Watchdog Time) : Prop where
  signs : ∀ sign, signs sign → sign ≤ dog.heard
  heard : dog.heard ≤ latest
  armed : dog.armed ≤ due dog.heard

variable {due : Time → Time} {signs : Time → Prop} {latest : Time} {dog : Watchdog Time}

theorem Guards.armed_le (hguards : Guards due signs latest dog) (hdue : Monotone due) :
    dog.armed ≤ due latest :=
  hguards.armed.trans (hdue hguards.heard)

theorem Guards.silent (hguards : Guards due signs latest dog) (hdue : Monotone due) {now : Time}
    (hwake : dog.wake due now = none) {sign : Time} (hsign : signs sign) : due sign ≤ now := by
  rw [wake] at hwake
  split at hwake
  · rename_i hpast
    exact (hdue (hguards.signs sign hsign)).trans hpast
  · cases hwake

theorem Guards.woken (hguards : Guards due signs latest dog) {now : Time} {next : Watchdog Time}
    (hwake : dog.wake due now = some next) : Guards due signs latest next := by
  rw [wake] at hwake
  split at hwake
  · cases hwake
  · obtain rfl := Option.some.inj hwake
    exact ⟨hguards.signs, hguards.heard, le_rfl⟩

theorem Guards.hear (hguards : Guards due signs latest dog) (hdue : Monotone due) {time : Time}
    (hlater : dog.heard ≤ time) {more : Time → Prop} {latest' : Time} (hlatest : time ≤ latest')
    (hmore : ∀ sign, more sign → signs sign ∨ sign ≤ time) :
    Guards due more latest' (dog.hear time) where
  signs sign hsign := (hmore sign hsign).elim (fun hold => (hguards.signs sign hold).trans hlater) id
  heard := hlatest
  armed := hguards.armed.trans (hdue hlater)

theorem Guards.ignore (hguards : Guards due signs latest dog) {more : Time → Prop}
    {latest' : Time} (hlatest : latest ≤ latest') (hmore : ∀ sign, more sign → signs sign) :
    Guards due more latest' dog where
  signs sign hsign := hguards.signs sign (hmore sign hsign)
  heard := hguards.heard.trans hlatest
  armed := hguards.armed

end Watchdog

end Resocks5.Foundation
