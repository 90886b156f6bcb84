import Resocks5.Rating.Float
import Mathlib.Data.List.Sort

namespace Resocks5.Rating

/-! Weighted-random selection: one index, and a full order. -/

/-- A source of draws; `next_f64` of the generator in use. -/
structure Rng (ρ : Type u) where
  nextF64 : ρ → F64 × ρ

def SmallRng.nextU64 (state : UInt64) : UInt64 × UInt64 :=
  let state := state + 0x9E3779B97F4A7C15
  let z := (state ^^^ (state >>> 30)) * 0xBF58476D1CE4E5B9
  let z := (z ^^^ (z >>> 27)) * 0x94D049BB133111EB
  (z ^^^ (z >>> 31), state)

/-- Uniform in `[0, 1)` with 53 bits, each draw exact. -/
def smallRng : Rng UInt64 where
  nextF64 state :=
    let (output, state) := SmallRng.nextU64 state
    (.finite ((output >>> 11).toNat / 2 ^ 53), state)

namespace Select

variable {ρ : Type u}

def maxWeight (weights : List F64) : F64 :=
  weights.foldl (fun m w => if w.positive then m.max w else m) F64.zero

/-- Throw the dart: the first selectable index whose share it falls into. -/
def throwDart (arith : FloatArith) (max : F64) : F64 → Nat → List F64 → Option Nat
  | _, _, [] => none
  | dart, i, w :: rest =>
    if w.positive then
      let dart := arith.sub dart (arith.div w max)
      if dart.le F64.zero then some i else throwDart arith max dart (i + 1) rest
    else
      throwDart arith max dart (i + 1) rest

def rposition : Nat → List F64 → Option Nat
  | _, [] => none
  | i, w :: rest => (rposition (i + 1) rest).or (if w.positive then some i else none)

def weightedIndex (arith : FloatArith) (rng : Rng ρ) (weights : List F64) (state : ρ) :
    Nat × ρ :=
  let max := maxWeight weights
  if max.le F64.zero then (0, state)
  else
    let shares := (weights.filter F64.positive).map fun w => arith.div w max
    let total := shares.foldl arith.add F64.zero
    let (draw, state) := rng.nextF64 state
    match throwDart arith max (arith.mul draw total) 0 weights with
    | some i => (i, state)
    | none => ((rposition 0 weights).getD 0, state)

def weightedKeys (arith : FloatArith) (rng : Rng ρ) :
    Nat → List F64 → ρ → List (Nat × F64) × ρ
  | _, [], state => ([], state)
  | i, w :: rest, state =>
    let (u, state) := rng.nextF64 state
    let key := if w.positive then
        arith.sub (arith.ln (arith.neg (arith.ln u))) (arith.ln w)
      else .posInf
    let (keys, state) := weightedKeys arith rng (i + 1) rest state
    ((i, key) :: keys, state)

def keyLe (a b : Nat × F64) : Prop :=
  (a.2.totalLe b.2 && (!b.2.totalLe a.2 || decide (a.1 ≤ b.1))) = true

instance : DecidableRel keyLe := fun _ _ => inferInstanceAs (Decidable (_ = true))

def orderKeys (keyed : List (Nat × F64)) : List Nat :=
  (keyed.insertionSort keyLe).map (·.1)

theorem maxWeight_positive {weights : List F64} (hsome : ∃ w ∈ weights, w.positive = true) :
    (maxWeight weights).positive = true := by
  have hfold : ∀ (weights : List F64) (m : F64), m = F64.zero ∨ m.positive = true →
      (m.positive = true ∨ ∃ w ∈ weights, w.positive = true) →
      (weights.foldl (fun m w => if w.positive then m.max w else m) m).positive = true := by
    intro weights
    induction weights with
    | nil =>
        intro m _ hpositive
        obtain hm | ⟨w, hw, _⟩ := hpositive
        · exact hm
        · cases hw
    | cons w rest ih =>
        intro m hm hpositive
        rw [List.foldl_cons]
        cases hw : w.positive with
        | true =>
            have hmax := F64.max_positive hm hw
            exact ih _ (.inr hmax) (.inl hmax)
        | false =>
            refine ih _ hm (hpositive.imp_right ?_)
            rintro ⟨other, hmem, hother⟩
            cases hmem with
            | head => rw [hw] at hother; cases hother
            | tail _ hrest => exact ⟨other, hrest, hother⟩
  exact hfold weights F64.zero (.inl rfl) (.inr hsome)

theorem throwDart_selectable {arith : FloatArith} {max dart : F64} {i j : Nat}
    {weights : List F64} (hdart : throwDart arith max dart i weights = some j) :
    i ≤ j ∧ ∃ w, weights[j - i]? = some w ∧ w.positive = true := by
  induction weights generalizing dart i with
  | nil => cases hdart
  | cons w rest ih =>
      have hnext : ∀ {dart}, throwDart arith max dart (i + 1) rest = some j →
          i ≤ j ∧ ∃ w', (w :: rest)[j - i]? = some w' ∧ w'.positive = true := by
        intro dart hdart
        obtain ⟨hle, w', hat, hw'⟩ := ih hdart
        refine ⟨by omega, w', ?_, hw'⟩
        rw [show j - i = (j - (i + 1)) + 1 by omega]
        exact hat
      rw [throwDart] at hdart
      split at hdart
      · rename_i hw
        dsimp only at hdart
        split at hdart
        · cases hdart
          exact ⟨le_refl _, w, by simp, hw⟩
        · exact hnext hdart
      · exact hnext hdart

theorem rposition_selectable {i : Nat} {weights : List F64}
    (hsome : ∃ w ∈ weights, w.positive = true) :
    ∃ j, rposition i weights = some j ∧ i ≤ j ∧
      ∃ w, weights[j - i]? = some w ∧ w.positive = true := by
  induction weights generalizing i with
  | nil =>
      obtain ⟨w, hw, _⟩ := hsome
      cases hw
  | cons w rest ih =>
      by_cases hrest : ∃ w ∈ rest, w.positive = true
      · obtain ⟨j, hj, hle, w', hat, hw'⟩ := ih (i := i + 1) hrest
        refine ⟨j, by rw [rposition, hj]; rfl, by omega, w', ?_, hw'⟩
        rw [show j - i = (j - (i + 1)) + 1 by omega]
        exact hat
      · have hw : w.positive = true := by
          obtain ⟨other, hmem, hother⟩ := hsome
          cases hmem with
          | head => exact hother
          | tail _ hmem => exact absurd ⟨other, hmem, hother⟩ hrest
        have hnone : ∀ (k : Nat) (weights : List F64),
            (¬ ∃ w ∈ weights, w.positive = true) → rposition k weights = none := by
          intro k weights
          induction weights generalizing k with
          | nil => exact fun _ => rfl
          | cons w rest ih =>
              intro hnot
              rw [rposition, ih _ fun ⟨w', hmem, hw'⟩ =>
                hnot ⟨w', List.mem_cons_of_mem _ hmem, hw'⟩]
              rw [if_neg fun hw => hnot ⟨w, List.mem_cons_self, hw⟩]
              rfl
        refine ⟨i, ?_, le_refl i, w, by simp, hw⟩
        rw [rposition, hnone _ _ hrest, if_pos hw]
        rfl

theorem weightedIndex_selectable (arith : FloatArith) (rng : Rng ρ) {weights : List F64}
    (state : ρ) (hsome : ∃ w ∈ weights, w.positive = true) :
    ∃ w, weights[(weightedIndex arith rng weights state).1]? = some w ∧
      w.positive = true := by
  have hmax := F64.positive_not_le_zero (maxWeight_positive hsome)
  simp only [weightedIndex, hmax, Bool.false_eq_true, if_false]
  split
  · rename_i j hdart
    obtain ⟨_, hat⟩ := throwDart_selectable hdart
    exact hat
  · obtain ⟨j, hj, _, hat⟩ := rposition_selectable (i := 0) hsome
    rw [hj]
    exact hat

theorem weightedKeys_indices (arith : FloatArith) (rng : Rng ρ) (i : Nat)
    (weights : List F64) (state : ρ) :
    (weightedKeys arith rng i weights state).1.map (·.1) =
      List.range' i weights.length := by
  induction weights generalizing i state with
  | nil => rfl
  | cons w rest ih => simp [weightedKeys, ih, List.range'_succ]

theorem orderKeys_perm (arith : FloatArith) (rng : Rng ρ) (weights : List F64) (state : ρ) :
    (orderKeys (weightedKeys arith rng 0 weights state).1).Perm
      (List.range weights.length) := by
  refine ((List.perm_insertionSort keyLe _).map (·.1)).trans ?_
  rw [weightedKeys_indices, List.range_eq_range']

end Select

end Resocks5.Rating
