import Resocks5.Rating.Ratings

namespace Resocks5.Rating

open Resocks5.Foundation

/-! Everything that may happen to a set of ratings, at any times. -/

inductive Op where
  | failure (i : Nat) (now : Instant)
  | hardFailure (i : Nat) (now : Instant)
  | quarantineNow (i : Nat) (now : Instant)
  | success (i : Nat) (now : Instant)
  | restore (i : Nat) (health : Health) (now : Instant)
  | takeProbes (now : Instant)
  | pick (now : Instant)
  | pickOrder (now : Instant)
  deriving DecidableEq, Repr

/-- The reports on `i` that end a lease it holds. -/
def Op.settles (i : Nat) : Op → Bool
  | .hardFailure j _ | .quarantineNow j _ | .success j _ | .restore j _ _ => i == j
  | _ => false

namespace Ratings

section

variable {ρ : Type u} (arith : FloatArith) (rng : Rng ρ)

def apply (ratings : Ratings ρ) : Op → Ratings ρ
  | .failure i now => ratings.onFailure arith i now
  | .hardFailure i now => (ratings.onHardFailure arith i now).2
  | .quarantineNow i now => (ratings.quarantineNow i now).2
  | .success i now => ratings.onSuccess arith i now
  | .restore i health now => (ratings.restoreHealth i health now).2
  | .takeProbes now => (ratings.takeProbes now).2
  | .pick now => (ratings.pick arith rng now).2
  | .pickOrder now => (ratings.pickOrder arith rng now).2

def applyAll (ratings : Ratings ρ) (ops : List Op) : Ratings ρ :=
  ops.foldl (apply arith rng) ratings

end

end Ratings

def Op.onCell (policy : QuarantinePolicy) (i : Nat) (op : Op) (cell : Cell) : Cell :=
  match op with
  | .hardFailure j now =>
    if j = i ∧ policy.enabled = true then (cell.hardFailure now policy).2 else cell
  | .quarantineNow j now =>
    if j = i ∧ policy.enabled = true then (cell.tripNow now policy).2 else cell
  | .success j _ => if j = i then Cell.fresh else cell
  | .restore j health now =>
    if j = i ∧ policy.enabled = true ∧ health.state ≠ .alive then
      Cell.restore (health.state == .quarantined) health.remaining health.trips
        health.consecutive now policy
    else cell
  | .takeProbes now => if policy.enabled then (cell.tryLease now policy).2 else cell
  | _ => cell

namespace Ratings

section

variable {ρ : Type u} {arith : FloatArith} {rng : Rng ρ}

theorem onFailure_quarantine (ratings : Ratings ρ) (i : Nat) (now : Instant) :
    (ratings.onFailure arith i now).inner.quarantine = ratings.inner.quarantine ∧
      (ratings.onFailure arith i now).quarantine = ratings.quarantine := by
  unfold onFailure
  split <;> exact ⟨rfl, rfl⟩

theorem modify_getElem? {α : Type v} (items : List α) (i j : Nat) (f : α → α) :
    (items.modify j f)[i]? = items[i]?.map fun item => if j = i then f item else item := by
  rw [List.getElem?_modify]
  cases items[i]? with
  | none => rfl
  | some item => by_cases hsame : j = i <;> simp [hsame]

theorem map_untouched {α : Type v} {items : List α} {i : Nat} {f : α → α}
    (hsame : ∀ item, items[i]? = some item → f item = item) :
    items[i]? = items[i]?.map f := by
  cases hitem : items[i]? with
  | none => rfl
  | some item => rw [Option.map_some, hsame item hitem]

theorem onHardFailure_cell (ratings : Ratings ρ) (j : Nat) (now : Instant) (i : Nat) :
    (ratings.onHardFailure arith j now).2.quarantine = ratings.quarantine ∧
      (ratings.onHardFailure arith j now).2.inner.quarantine[i]? =
        ratings.inner.quarantine[i]?.map
          (Op.onCell ratings.quarantine i (.hardFailure j now)) := by
  obtain ⟨hcells, hpolicy⟩ := onFailure_quarantine ratings j now
  unfold onHardFailure
  split
  · rename_i hnone
    refine ⟨rfl, map_untouched fun cell hcell => ?_⟩
    have hne : ¬ j = i := by
      rintro rfl
      rw [hnone] at hcell
      cases hcell
    simp [Op.onCell, hne]
  · dsimp only
    rw [hpolicy]
    split
    · rename_i henabled
      refine ⟨rfl, ?_⟩
      rw [Inner.mapQuarantine_quarantine, hcells, modify_getElem?]
      exact Option.map_congr fun cell _ => by simp [Op.onCell, henabled]
    · rename_i hdisabled
      refine ⟨hpolicy, ?_⟩
      rw [hcells]
      exact map_untouched fun cell _ => by simp [Op.onCell, hdisabled]

theorem quarantineNow_cell (ratings : Ratings ρ) (j : Nat) (now : Instant) (i : Nat) :
    (ratings.quarantineNow j now).2.quarantine = ratings.quarantine ∧
      (ratings.quarantineNow j now).2.inner.quarantine[i]? =
        ratings.inner.quarantine[i]?.map
          (Op.onCell ratings.quarantine i (.quarantineNow j now)) := by
  unfold quarantineNow
  split
  · rename_i henabled
    split
    · rename_i hnone
      refine ⟨rfl, map_untouched fun cell hcell => ?_⟩
      have hne : ¬ j = i := by
        rintro rfl
        rw [hnone] at hcell
        cases hcell
      simp [Op.onCell, hne]
    · refine ⟨rfl, ?_⟩
      rw [Inner.mapQuarantine_quarantine, modify_getElem?]
      exact Option.map_congr fun cell _ => by simp [Op.onCell, henabled]
  · rename_i hdisabled
    exact ⟨rfl, map_untouched fun cell _ => by simp [Op.onCell, hdisabled]⟩

theorem onSuccess_cell (ratings : Ratings ρ) (j : Nat) (now : Instant) (i : Nat) :
    (ratings.onSuccess arith j now).quarantine = ratings.quarantine ∧
      (ratings.onSuccess arith j now).inner.quarantine[i]? =
        ratings.inner.quarantine[i]?.map
          (Op.onCell ratings.quarantine i (.success j now)) := by
  refine ⟨rfl, ?_⟩
  have hcells : (ratings.onSuccess arith j now).inner.quarantine =
      ratings.inner.quarantine.modify j Cell.success := by
    unfold onSuccess
    dsimp only
    split <;> rfl
  rw [hcells, modify_getElem?]
  rfl

theorem restoreHealth_cell (ratings : Ratings ρ) (j : Nat) (health : Health) (now : Instant)
    (i : Nat) :
    (ratings.restoreHealth j health now).2.quarantine = ratings.quarantine ∧
      (ratings.restoreHealth j health now).2.inner.quarantine[i]? =
        ratings.inner.quarantine[i]?.map
          (Op.onCell ratings.quarantine i (.restore j health now)) := by
  unfold restoreHealth
  split
  · rename_i hskip
    refine ⟨rfl, map_untouched fun cell _ => ?_⟩
    have hskip' : ¬ (ratings.quarantine.enabled = true ∧ health.state ≠ .alive) := by
      rintro ⟨henabled, halive⟩
      simp [henabled, halive] at hskip
    simp only [Op.onCell]
    rw [if_neg fun hall => hskip' hall.2]
  · rename_i hkeep
    have hkeep' : ratings.quarantine.enabled = true ∧ health.state ≠ .alive := by
      simpa [Bool.or_eq_true] using hkeep
    split
    · rename_i hnone
      refine ⟨rfl, map_untouched fun cell hcell => ?_⟩
      have hne : ¬ j = i := by
        rintro rfl
        rw [hnone] at hcell
        cases hcell
      simp [Op.onCell, hne]
    · refine ⟨rfl, ?_⟩
      rw [Inner.mapQuarantine_quarantine, modify_getElem?]
      exact Option.map_congr fun cell _ => by simp [Op.onCell, hkeep']

theorem takeProbes_cell (ratings : Ratings ρ) (now : Instant) (i : Nat) :
    (ratings.takeProbes now).2.quarantine = ratings.quarantine ∧
      (ratings.takeProbes now).2.inner.quarantine[i]? =
        ratings.inner.quarantine[i]?.map
          (Op.onCell ratings.quarantine i (.takeProbes now)) := by
  unfold takeProbes
  split
  · rename_i henabled
    refine ⟨rfl, ?_⟩
    simp only [List.getElem?_map, Option.map_map]
    exact Option.map_congr fun cell _ => by simp [Op.onCell, henabled]
  · rename_i hdisabled
    exact ⟨rfl, map_untouched fun cell _ => by simp [Op.onCell, hdisabled]⟩

theorem apply_cell (ratings : Ratings ρ) (op : Op) (i : Nat) :
    (ratings.apply arith rng op).quarantine = ratings.quarantine ∧
      (ratings.apply arith rng op).inner.quarantine[i]? =
        ratings.inner.quarantine[i]?.map (op.onCell ratings.quarantine i) := by
  cases op with
  | failure j now =>
      obtain ⟨hcells, hpolicy⟩ := onFailure_quarantine ratings j now
      refine ⟨hpolicy, ?_⟩
      rw [apply, hcells]
      exact map_untouched fun _ _ => rfl
  | hardFailure j now => exact onHardFailure_cell ratings j now i
  | quarantineNow j now => exact quarantineNow_cell ratings j now i
  | success j now => exact onSuccess_cell ratings j now i
  | restore j health now => exact restoreHealth_cell ratings j health now i
  | takeProbes now => exact takeProbes_cell ratings now i
  | pick now =>
      have hsame : (ratings.pick arith rng now).2.quarantine = ratings.quarantine ∧
          (ratings.pick arith rng now).2.inner.quarantine = ratings.inner.quarantine := by
        unfold pick
        dsimp only
        split <;> exact ⟨rfl, rfl⟩
      refine ⟨hsame.1, ?_⟩
      rw [apply, hsame.2]
      exact map_untouched fun _ _ => rfl
  | pickOrder now =>
      have hsame : (ratings.pickOrder arith rng now).2.quarantine = ratings.quarantine ∧
          (ratings.pickOrder arith rng now).2.inner.quarantine = ratings.inner.quarantine := by
        unfold pickOrder
        dsimp only
        split <;> exact ⟨rfl, rfl⟩
      refine ⟨hsame.1, ?_⟩
      rw [apply, hsame.2]
      exact map_untouched fun _ _ => rfl

theorem applyAll_cell (arith : FloatArith) (rng : Rng ρ)
    (keeps : QuarantinePolicy → Nat → Cell → Prop) (ops : List Op) (ratings : Ratings ρ)
    (hstep : ∀ op ∈ ops, ∀ i cell, keeps ratings.quarantine i cell →
      keeps ratings.quarantine i (op.onCell ratings.quarantine i cell))
    (hstart : ∀ i cell, ratings.inner.quarantine[i]? = some cell →
      keeps ratings.quarantine i cell) :
    (ratings.applyAll arith rng ops).quarantine = ratings.quarantine ∧
      (ratings.applyAll arith rng ops).inner.cells.length = ratings.inner.cells.length ∧
      ∀ i cell, (ratings.applyAll arith rng ops).inner.quarantine[i]? = some cell →
        keeps ratings.quarantine i cell := by
  induction ops generalizing ratings with
  | nil => exact ⟨rfl, rfl, hstart⟩
  | cons op ops ih =>
      have hpolicy : (ratings.apply arith rng op).quarantine = ratings.quarantine :=
        (apply_cell ratings op 0).1
      have hcells : ∀ i, (ratings.apply arith rng op).inner.quarantine[i]? =
          ratings.inner.quarantine[i]?.map (op.onCell ratings.quarantine i) :=
        fun i => (apply_cell ratings op i).2
      have hlength : (ratings.apply arith rng op).inner.cells.length =
          ratings.inner.cells.length := by
        rw [← Inner.sized, ← Inner.sized]
        refine le_antisymm ?_ ?_
        · rw [← List.getElem?_eq_none_iff, hcells]
          simp
        · rw [← List.getElem?_eq_none_iff]
          have hnone := hcells (ratings.apply arith rng op).inner.quarantine.length
          rw [List.getElem?_eq_none (le_refl _)] at hnone
          simpa using hnone.symm
      obtain ⟨hpolicy', hlength', hkeeps⟩ := ih (ratings.apply arith rng op)
        (by
          rw [hpolicy]
          exact fun op hop => hstep op (List.mem_cons_of_mem _ hop))
        (by
          intro i cell hcell
          rw [hcells, Option.map_eq_some_iff] at hcell
          obtain ⟨old, hold, rfl⟩ := hcell
          rw [hpolicy]
          exact hstep op List.mem_cons_self i old (hstart i old hold))
      refine ⟨hpolicy'.trans hpolicy, hlength'.trans hlength, fun i cell hcell => ?_⟩
      rw [← hpolicy]
      exact hkeeps i cell hcell

end

end Ratings

end Resocks5.Rating
