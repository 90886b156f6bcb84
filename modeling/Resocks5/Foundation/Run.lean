import Mathlib.Data.List.Basic
import Mathlib.Data.List.Induction
import Mathlib.Logic.Relation

namespace Resocks5.Foundation

/-! Runs of a partial step function under a list of labels. -/

def run (step : σ → α → Option σ) : σ → List α → Option σ
  | state, [] => some state
  | state, label :: labels =>
      (step state label).bind fun next => run step next labels

def Reaches (step : σ → α → Option σ) (start finish : σ) : Prop :=
  ∃ labels, run step start labels = some finish

@[simp] theorem run_nil (step : σ → α → Option σ) (state : σ) :
    run step state [] = some state := rfl

@[simp] theorem run_cons (step : σ → α → Option σ) (state : σ)
    (label : α) (labels : List α) :
    run step state (label :: labels) =
      (step state label).bind fun next => run step next labels := rfl

theorem run_append (step : σ → α → Option σ) (state : σ)
    (first second : List α) :
    run step state (first ++ second) =
      (run step state first).bind fun middle => run step middle second := by
  induction first generalizing state with
  | nil => rfl
  | cons label labels ih =>
      cases hstep : step state label with
      | none => simp [hstep]
      | some next => simp [hstep, ih]

theorem Reaches.refl (step : σ → α → Option σ) (state : σ) :
    Reaches step state state := ⟨[], rfl⟩

theorem Reaches.single {step : σ → α → Option σ} {state next : σ} {label : α}
    (h : step state label = some next) : Reaches step state next :=
  ⟨[label], by simp [h]⟩

theorem Reaches.trans {step : σ → α → Option σ} {first second third : σ}
    (hfirst : Reaches step first second) (hsecond : Reaches step second third) :
    Reaches step first third := by
  obtain ⟨before, hbefore⟩ := hfirst
  obtain ⟨after, hafter⟩ := hsecond
  exact ⟨before ++ after, by rw [run_append, hbefore]; exact hafter⟩

/-- What one step preserves, every run preserves. -/
theorem run_preserves {step : σ → α → Option σ} {Inv : σ → Prop}
    (hstep : ∀ state label next,
      step state label = some next → Inv state → Inv next)
    {start finish : σ} {labels : List α}
    (hrun : run step start labels = some finish) (hstart : Inv start) :
    Inv finish := by
  induction labels generalizing start with
  | nil =>
      have heq : start = finish := Option.some.inj hrun
      exact heq ▸ hstart
  | cons label labels ih =>
      rw [run_cons, Option.bind_eq_some_iff] at hrun
      obtain ⟨next, hnext, hrest⟩ := hrun
      exact ih hrest (hstep start label next hnext hstart)

theorem run_history {step : σ → α → Option σ} {Inv : List α → σ → Prop} {start finish : σ}
    (hstep : ∀ labels state label next, Inv labels state → step state label = some next →
      Inv (labels ++ [label]) next)
    {labels : List α} (hrun : run step start labels = some finish) (hstart : Inv [] start) :
    Inv labels finish := by
  induction labels using List.reverseRecOn generalizing finish with
  | nil => exact Option.some.inj hrun ▸ hstart
  | append_singleton labels label ih =>
      rw [run_append, Option.bind_eq_some_iff] at hrun
      obtain ⟨state, hstate, hlast⟩ := hrun
      rw [run_cons, Option.bind_eq_some_iff] at hlast
      obtain ⟨next, hnext, hend⟩ := hlast
      exact Option.some.inj hend ▸ hstep labels state label next (ih hstate) hnext

theorem Reaches.preserves {step : σ → α → Option σ} {Inv : σ → Prop}
    (hstep : ∀ state label next,
      step state label = some next → Inv state → Inv next)
    {start finish : σ} (hreach : Reaches step start finish)
    (hstart : Inv start) : Inv finish := by
  obtain ⟨labels, hrun⟩ := hreach
  exact run_preserves hstep hrun hstart

theorem run_projects {step : σ → α → Option σ} {part : σ → β} {single : β → α → Option β}
    {touches : α → Bool} {Inv : σ → Prop}
    (hkeeps : ∀ state label next, step state label = some next → Inv state → Inv next)
    (hpart : ∀ state label next, Inv state → step state label = some next →
      if touches label then single (part state) label = some (part next)
      else part next = part state)
    {start finish : σ} {labels : List α} (hrun : run step start labels = some finish)
    (hstart : Inv start) :
    run single (part start) (labels.filter touches) = some (part finish) := by
  induction labels generalizing start with
  | nil =>
      obtain rfl : start = finish := Option.some.inj hrun
      rfl
  | cons label labels ih =>
      rw [run_cons, Option.bind_eq_some_iff] at hrun
      obtain ⟨next, hnext, hrest⟩ := hrun
      have hrest := ih hrest (hkeeps start label next hnext hstart)
      have hhere := hpart start label next hstart hnext
      rw [List.filter_cons]
      split at hhere
      · rw [if_pos ‹_›, run_cons, hhere]
        exact hrest
      · rw [if_neg ‹_›, ← hhere]
        exact hrest

def guarded (step : σ → α → Option σ) (good : σ → α → Bool) (state : σ) (label : α) : Option σ :=
  if good state label then step state label else none

theorem guarded_eq_some {step : σ → α → Option σ} {good : σ → α → Bool} {state next : σ}
    {label : α} :
    guarded step good state label = some next ↔
      good state label = true ∧ step state label = some next := by
  unfold guarded
  split
  · rename_i hgood
    simp [hgood]
  · rename_i hgood
    simp [hgood]

def Along (step : σ → α → Option σ) (P : σ → α → σ → Prop) : σ → List α → Prop
  | _, [] => True
  | state, label :: labels =>
      ∀ next, step state label = some next → P state label next ∧ Along step P next labels

/-- Where the good steps are those with the property, and they keep the invariant, the runs with
the property are the good ones. -/
theorem along_iff_guarded {step : σ → α → Option σ} {P : σ → α → σ → Prop}
    {good : σ → α → Bool} {Inv : σ → Prop}
    (hgood : ∀ state label next, Inv state → step state label = some next →
      (P state label next ↔ good state label = true))
    (hkeeps : ∀ state label next, Inv state → step state label = some next →
      good state label = true → Inv next)
    {start finish : σ} {labels : List α} (hrun : run step start labels = some finish)
    (hstart : Inv start) :
    Along step P start labels ↔ run (guarded step good) start labels = some finish := by
  induction labels generalizing start with
  | nil => exact iff_of_true trivial hrun
  | cons label labels ih =>
      rw [run_cons, Option.bind_eq_some_iff] at hrun
      obtain ⟨next, hnext, hrest⟩ := hrun
      have hiff := hgood start label next hstart hnext
      rw [run_cons, Option.bind_eq_some_iff]
      constructor
      · intro halong
        obtain ⟨hholds, hbehind⟩ := halong next hnext
        have hlabel := hiff.mp hholds
        exact ⟨next, guarded_eq_some.mpr ⟨hlabel, hnext⟩,
          (ih hrest (hkeeps start label next hstart hnext hlabel)).mp hbehind⟩
      · rintro ⟨other, hother, hbehind⟩ next' hnext'
        obtain ⟨hlabel, hother⟩ := guarded_eq_some.mp hother
        obtain rfl := Option.some.inj (hnext.symm.trans hnext')
        obtain rfl := Option.some.inj (hnext.symm.trans hother)
        exact ⟨hiff.mpr hlabel,
          (ih hrest (hkeeps start label next hstart hnext hlabel)).mpr hbehind⟩

/-- Every run comes to a goal, and none stops before. -/
inductive Inevitably (step : σ → σ → Prop) (goal : σ → Prop) : σ → Prop
  | now {state : σ} (hgoal : goal state) : Inevitably step goal state
  | later {state : σ} (hlive : ∃ next, step state next)
      (hnext : ∀ next, step state next → Inevitably step goal next) :
      Inevitably step goal state

theorem Inevitably.of_work {step : σ → σ → Prop} {goal : σ → Prop} {Work : Nat → σ → Prop}
    (hlive : ∀ work state, Work work state → goal state ∨ ∃ next, step state next)
    (hstep : ∀ work state next, Work work state → step state next →
      ∃ less < work, Work less next)
    {work : Nat} {state : σ} (hwork : Work work state) : Inevitably step goal state := by
  induction work using Nat.strongRecOn generalizing state with
  | ind work ih =>
      obtain hgoal | hnext := hlive work state hwork
      · exact .now hgoal
      · refine .later hnext fun next hmove => ?_
        obtain ⟨less, hless, hwork'⟩ := hstep work state next hwork hmove
        exact ih less hless hwork'

/-- What an invariant keeps going and a measure brings to an end. -/
theorem Inevitably.of_measure {step : σ → σ → Prop} {goal Inv : σ → Prop} (measure : σ → Nat)
    (hlive : ∀ state, Inv state → ∃ next, step state next)
    (hstep : ∀ state next, Inv state → step state next →
      goal next ∨ Inv next ∧ measure next < measure state)
    {state : σ} (hinv : Inv state) : Inevitably step goal state := by
  induction hwork : measure state using Nat.strongRecOn generalizing state with
  | ind work ih =>
      refine .later (hlive state hinv) fun next hmove => ?_
      obtain hgoal | ⟨hnext, hless⟩ := hstep state next hinv hmove
      · exact .now hgoal
      · exact ih _ (hwork ▸ hless) hnext rfl

theorem Inevitably.ended {step : σ → σ → Prop} {goal : σ → Prop} {state last : σ}
    (hinevitably : Inevitably step goal state) (hgoal : ∀ state next, goal state → ¬ step state next)
    (hreach : Relation.ReflTransGen step state last) (hlast : ∀ next, ¬ step last next) :
    goal last := by
  induction hinevitably with
  | @now state hnow =>
      obtain rfl | ⟨next, hstep, _⟩ := hreach.cases_head
      · exact hnow
      · exact absurd hstep (hgoal state next hnow)
  | later hlive _ ih =>
      obtain rfl | ⟨next, hstep, hrest⟩ := hreach.cases_head
      · obtain ⟨next, hstep⟩ := hlive
        exact absurd hstep (hlast next)
      · exact ih next hstep hrest

theorem Inevitably.mono {step : σ → σ → Prop} {goal weaker : σ → Prop} {state : σ}
    (hinevitably : Inevitably step goal state) (hgoal : ∀ state, goal state → weaker state) :
    Inevitably step weaker state := by
  induction hinevitably with
  | now hnow => exact .now (hgoal _ hnow)
  | later hlive _ ih => exact .later hlive ih

end Resocks5.Foundation
