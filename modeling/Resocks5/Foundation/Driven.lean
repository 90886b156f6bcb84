namespace Resocks5.Foundation

/-! Programs that another party answers, with a trace of what they do. -/

variable {ρ τ ε α β : Type}

/-- A program ends with a value or an error, or it waits for an answer that has not come. -/
inductive Outcome (ρ τ ε α : Type) where
  | ok (value : α) (script : List ρ) (trace : τ)
  | error (error : ε) (trace : τ)
  | pending (trace : τ)

namespace Outcome

def trace : Outcome ρ τ ε α → τ
  | ok _ _ trace => trace
  | error _ trace => trace
  | pending trace => trace

def Satisfies (stop : τ → Prop) (post : α → τ → Prop) : Outcome ρ τ ε α → Prop
  | ok value _ trace => post value trace
  | error _ trace => stop trace
  | pending trace => stop trace

end Outcome

/-- The script holds the answers that are going to come. -/
def Driven (ρ τ ε α : Type) : Type := List ρ → τ → Outcome ρ τ ε α

namespace Driven

def pure (value : α) : Driven ρ τ ε α := fun script trace => .ok value script trace

def bind (prog : Driven ρ τ ε α) (next : α → Driven ρ τ ε β) : Driven ρ τ ε β :=
  fun script trace =>
    match prog script trace with
    | .ok value script trace => next value script trace
    | .error error trace => .error error trace
    | .pending trace => .pending trace

instance : Monad (Driven ρ τ ε) where
  pure := pure
  bind := bind

def throw (error : ε) : Driven ρ τ ε α := fun _ trace => .error error trace

def note (change : τ → τ) : Driven ρ τ ε Unit := fun script trace => .ok () script (change trace)

def Spec (prog : Driven ρ τ ε α) (trace : τ) (stop : τ → Prop) (post : α → τ → Prop) : Prop :=
  ∀ script, (prog script trace).Satisfies stop post

variable {prog : Driven ρ τ ε α} {start : τ} {stop : τ → Prop} {post : α → τ → Prop}

theorem Spec.pure {value : α} (hpost : post value start) :
    (Pure.pure value : Driven ρ τ ε α).Spec start stop post := fun _ => hpost

theorem Spec.throw {error : ε} (hstop : stop start) :
    (throw error : Driven ρ τ ε α).Spec start stop post := fun _ => hstop

theorem Spec.bind {next : α → Driven ρ τ ε β} {goal : β → τ → Prop}
    (hprog : prog.Spec start stop post)
    (hnext : ∀ value trace, post value trace → (next value).Spec trace stop goal) :
    (prog >>= next).Spec start stop goal := by
  intro script
  have hfirst := hprog script
  show (Driven.bind prog next script start).Satisfies stop goal
  rw [Driven.bind]
  cases hrun : prog script start with
  | ok value rest after =>
      rw [hrun] at hfirst
      exact hnext value after hfirst rest
  | error error after =>
      rw [hrun] at hfirst
      exact hfirst
  | pending after =>
      rw [hrun] at hfirst
      exact hfirst

theorem Spec.note {change : τ → τ} {next : Unit → Driven ρ τ ε β} {goal : β → τ → Prop}
    (hnext : (next ()).Spec (change start) stop goal) :
    (note change >>= next).Spec start stop goal := fun script => hnext script

theorem Spec.mono {goal : α → τ → Prop} (hprog : prog.Spec start stop post)
    (hgoal : ∀ value trace, post value trace → goal value trace) : prog.Spec start stop goal := by
  intro script
  have hfirst := hprog script
  cases hrun : prog script start with
  | ok value rest after =>
      rw [hrun] at hfirst
      exact hgoal value after hfirst
  | error error after =>
      rw [hrun] at hfirst
      exact hfirst
  | pending after =>
      rw [hrun] at hfirst
      exact hfirst

theorem Spec.stopped (hprog : prog.Spec start stop post)
    (hpost : ∀ value trace, post value trace → stop trace) (script : List ρ) : stop (prog script start).trace := by
  have hrun := hprog script
  cases hout : prog script start with
  | ok value rest after =>
      rw [hout] at hrun
      exact hpost value after hrun
  | error error after =>
      rw [hout] at hrun
      exact hrun
  | pending after =>
      rw [hout] at hrun
      exact hrun

end Driven

end Resocks5.Foundation
