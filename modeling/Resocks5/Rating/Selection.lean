import Resocks5.Rating.Ops

namespace Resocks5.Rating

open Resocks5.Foundation

namespace Ratings

section

variable {ρ : Type u}

/-- Not tripped at `now`. -/
def Healthy (ratings : Ratings ρ) (now : Instant) (i : Nat) : Prop :=
  ∃ cell, ratings.inner.quarantine[i]? = some cell ∧ cell.state now = .healthy

/-- The healthy upstreams if the quarantine is on and leaves any, else all of them. -/
def Selectable (ratings : Ratings ρ) (now : Instant) (i : Nat) : Prop :=
  i < ratings.inner.cells.length ∧
    (ratings.quarantine.enabled = true → (∃ j, ratings.Healthy now j) → ratings.Healthy now i)

end

section

variable {ρ : Type u} {arith : FloatArith} {rng : Rng ρ} {ratings : Ratings ρ} {now : Instant}

theorem healthyAt_getElem {i : Nat} :
    (ratings.healthyAt now)[i]? = some true ↔ ratings.Healthy now i := by
  rw [healthyAt, List.getElem?_map, Option.map_eq_some_iff]
  simp [Healthy]

theorem healthyAt_any :
    (ratings.healthyAt now).any id = true ↔ ∃ i, ratings.Healthy now i := by
  rw [List.any_eq_true]
  constructor
  · rintro ⟨ok, hmem, hok⟩
    obtain ⟨i, hi⟩ := List.mem_iff_getElem?.mp hmem
    exact ⟨i, healthyAt_getElem.mp (hok ▸ hi)⟩
  · rintro ⟨i, hi⟩
    exact ⟨true, List.mem_of_getElem? (healthyAt_getElem.mpr hi), rfl⟩

theorem Healthy.lt_length {i : Nat} (hhealthy : ratings.Healthy now i) :
    i < ratings.inner.cells.length := by
  obtain ⟨cell, hcell, _⟩ := hhealthy
  rw [← ratings.inner.sized]
  exact (List.getElem?_eq_some_iff.mp hcell).1

theorem eligible_nodup : (ratings.eligible now).Nodup := by
  unfold eligible
  dsimp only
  split
  · exact List.nodup_range.filter _
  · exact List.nodup_range

theorem mem_eligible {i : Nat} : i ∈ ratings.eligible now ↔ ratings.Selectable now i := by
  unfold eligible Selectable
  by_cases hany : ∃ j, ratings.Healthy now j
  · cases henabled : ratings.quarantine.enabled with
    | true =>
        simp only [healthyAt_any.mpr hany, Bool.and_true, if_true]
        rw [List.mem_filter, List.mem_range]
        refine and_congr_right fun _ => ?_
        rw [← healthyAt_getElem]
        cases hok : (ratings.healthyAt now)[i]? with
        | none => simp [hany]
        | some ok => simp [hany]
    | false => simp
  · have hnone : (ratings.healthyAt now).any id = false := by
      rw [Bool.eq_false_iff]
      exact fun htrue => hany (healthyAt_any.mp htrue)
    simp [hnone, hany]

theorem eligible_ne_nil (hpos : 0 < ratings.inner.cells.length) : ratings.eligible now ≠ [] := by
  by_cases hany : ∃ i, ratings.Healthy now i
  · obtain ⟨i, hi⟩ := hany
    exact List.ne_nil_of_mem (mem_eligible.mpr ⟨hi.lt_length, fun _ _ => hi⟩)
  · exact List.ne_nil_of_mem (mem_eligible.mpr ⟨hpos, fun _ hsome => absurd hsome hany⟩)

theorem mapM_eq_some_map {α β : Type*} {f : α → Option β} {g : α → β} (items : List α)
    (hall : ∀ item ∈ items, f item = some (g item)) : items.mapM f = some (items.map g) := by
  induction items with
  | nil => rfl
  | cons item rest ih =>
      rw [List.mapM_cons, hall item List.mem_cons_self,
        ih fun other hother => hall other (List.mem_cons_of_mem _ hother)]
      rfl

theorem mapM_positions (items : List Nat) {order : List Nat}
    (hperm : order.Perm (List.range items.length)) :
    ∃ picked, (order.mapM fun j => items[j]?) = some picked ∧ picked.Perm items := by
  have hread : ∀ j ∈ order, items[j]? = some (items.getD j 0) := by
    intro j hj
    have hlt := List.mem_range.mp (hperm.mem_iff.mp hj)
    simp [hlt]
  refine ⟨order.map fun j => items.getD j 0, mapM_eq_some_map order hread, ?_⟩
  refine (hperm.map fun j => items.getD j 0).trans (List.Perm.of_eq ?_)
  refine List.ext_getElem (by simp) fun i _ hi => ?_
  simp [hi]

theorem pickOrder_perm (ratings : Ratings ρ) (now : Instant) :
    ∃ order, (ratings.pickOrder arith rng now).1 = some order ∧
      order.Perm (ratings.eligible now) := by
  let weight (i : Nat) : F64 :=
    (ratings.inner.cells.getD i ⟨F64.zero, 0⟩).weight arith now ratings.policy
  have hweights : ((ratings.eligible now).mapM fun i => ratings.inner.cells[i]?.map fun sand =>
      sand.weight arith now ratings.policy) = some ((ratings.eligible now).map weight) := by
    refine mapM_eq_some_map _ fun i hi => ?_
    have hlt := (mem_eligible.mp hi).1
    simp [weight, hlt]
  have hkeys := Select.orderKeys_perm arith rng ((ratings.eligible now).map weight)
    ratings.inner.rng
  rw [List.length_map] at hkeys
  obtain ⟨order, horder, hperm⟩ := mapM_positions (ratings.eligible now) hkeys
  refine ⟨order, ?_, hperm⟩
  rw [pickOrder]
  simp only [hweights]
  exact horder

theorem maskUnhealthy_selectable {weights : List F64} {healthy : List Bool} {i : Nat}
    {w : F64} (hat : (maskUnhealthy weights healthy)[i]? = some w)
    (hw : w.positive = true) : healthy[i]? = some true := by
  rw [maskUnhealthy, List.getElem?_zipWith] at hat
  cases hold : weights[i]? with
  | none => simp [hold] at hat
  | some old =>
      cases hok : healthy[i]? with
      | none => simp [hok] at hat
      | some ok =>
          cases ok with
          | true => rfl
          | false =>
              obtain rfl : F64.zero = w := by simpa [hold, hok] using hat
              rw [F64.zero_not_positive] at hw
              cases hw

theorem maskUnhealthy_keeps {weights : List F64} {healthy : List Bool} {i : Nat}
    (hlt : i < weights.length) (hok : healthy[i]? = some true) :
    weights[i] ∈ maskUnhealthy weights healthy := by
  have hat : (maskUnhealthy weights healthy)[i]? = some weights[i] := by
    rw [maskUnhealthy, List.getElem?_zipWith, List.getElem?_eq_getElem hlt, hok]
    rfl
  exact List.mem_of_getElem? hat

theorem pick_selectable {n : Nat} (hlength : ratings.inner.cells.length = n) (hn : 0 < n)
    (hweights : ∀ w ∈ ratings.weights arith now, w.positive = true) :
    ∃ i, (ratings.pick arith rng now).1 = some i ∧ ratings.Selectable now i := by
  have hcount : (ratings.weights arith now).length = n := by
    rw [weights, List.length_map, hlength]
  have hsome : ∃ w ∈ ratings.weights arith now, w.positive = true := by
    obtain ⟨w, hw⟩ := List.exists_mem_of_length_pos (hcount ▸ hn)
    exact ⟨w, hw, hweights w hw⟩
  have hne : (ratings.weights arith now).isEmpty = false := by
    rw [List.isEmpty_eq_false_iff]
    exact List.length_pos_iff.mp (hcount ▸ hn)
  rw [pick]
  simp only [hne, Bool.false_eq_true, if_false]
  refine ⟨_, rfl, ?_⟩
  by_cases hmask : (ratings.quarantine.enabled && (ratings.healthyAt now).any id) = true
  · rw [if_pos hmask]
    obtain ⟨_, hany⟩ := Bool.and_eq_true_iff.mp hmask
    obtain ⟨j, hj⟩ := healthyAt_any.mp hany
    have hlt : j < (ratings.weights arith now).length := by
      rw [hcount, ← hlength]
      exact hj.lt_length
    have hpositive : ∃ w ∈ maskUnhealthy (ratings.weights arith now) (ratings.healthyAt now),
        w.positive = true :=
      ⟨_, maskUnhealthy_keeps hlt (healthyAt_getElem.mpr hj),
        hweights _ (List.getElem_mem hlt)⟩
    obtain ⟨w, hat, hw⟩ := Select.weightedIndex_selectable arith rng
      ratings.inner.rng hpositive
    have hhealthy := healthyAt_getElem.mp (maskUnhealthy_selectable hat hw)
    exact ⟨hhealthy.lt_length, fun _ _ => hhealthy⟩
  · rw [if_neg hmask]
    obtain ⟨w, hat, _⟩ := Select.weightedIndex_selectable arith rng ratings.inner.rng hsome
    have hlt := (List.getElem?_eq_some_iff.mp hat).1
    refine ⟨by rw [hlength, ← hcount]; exact hlt, fun henabled hany => ?_⟩
    rw [henabled, healthyAt_any.mpr hany] at hmask
    exact absurd rfl hmask

theorem mem_takeProbes {i : Nat} :
    i ∈ (ratings.takeProbes now).1 ↔ ratings.quarantine.enabled = true ∧
      ∃ cell, ratings.inner.quarantine[i]? = some cell ∧
        (cell.tryLease now ratings.quarantine).1 = true := by
  unfold takeProbes
  split
  · rename_i henabled
    dsimp only
    rw [List.mem_filter, List.mem_range, List.getElem?_map]
    cases hcell : ratings.inner.quarantine[i]? with
    | none => simp
    | some cell =>
        have hlt : i < ratings.inner.quarantine.length :=
          (List.getElem?_eq_some_iff.mp hcell).1
        simp [henabled, hlt]
  · rename_i hdisabled
    simp [hdisabled]

/-- Upstream `i` holds a lease that runs to `ending` at least. -/
def Leased (i : Nat) (ending : Instant) (j : Nat) (cell : Cell) : Prop :=
  j = i → ∃ lease, cell.leaseUntil = some lease ∧ ending ≤ lease

theorem tryLease_leased {policy : QuarantinePolicy} {i j : Nat} {ending now : Instant}
    {cell : Cell} (hleased : Leased i ending j cell) :
    Leased i ending j (cell.tryLease now policy).2 := by
  intro hij
  obtain ⟨lease, hlease, hle⟩ := hleased hij
  unfold Cell.tryLease
  split
  · exact ⟨lease, hlease, hle⟩
  · split
    · exact ⟨lease, hlease, hle⟩
    · rename_i hrun
      rw [hlease] at hrun
      have hrun' : lease ≤ now := by simpa using hrun
      refine ⟨_, rfl, le_trans (le_trans hle hrun') ?_⟩
      unfold Instant.checkedAdd
      split
      · exact Nat.le_add_right _ _
      · exact le_refl _

theorem onCell_leased {policy : QuarantinePolicy} {i : Nat} {ending : Instant} {op : Op}
    (hop : op.settles i = false) (j : Nat) (cell : Cell) (hleased : Leased i ending j cell) :
    Leased i ending j (op.onCell policy j cell) := by
  have hother : ∀ k, (i == k) = false → j = i → ¬ k = j := by
    rintro k hne rfl rfl
    simp at hne
  cases op with
  | failure k now => exact hleased
  | pick now => exact hleased
  | pickOrder now => exact hleased
  | takeProbes now =>
      rw [Op.onCell]
      split
      · exact tryLease_leased hleased
      · exact hleased
  | hardFailure k now =>
      intro hij
      rw [Op.onCell, if_neg fun hall => hother k hop hij hall.1]
      exact hleased hij
  | quarantineNow k now =>
      intro hij
      rw [Op.onCell, if_neg fun hall => hother k hop hij hall.1]
      exact hleased hij
  | success k now =>
      intro hij
      rw [Op.onCell, if_neg (hother k hop hij)]
      exact hleased hij
  | restore k health now =>
      intro hij
      rw [Op.onCell, if_neg fun hall => hother k hop hij hall.1]
      exact hleased hij

theorem probe_after_lease {first second ending : Instant} {i : Nat}
    (hfirst : i ∈ (ratings.takeProbes first).1)
    (hending : Instant.checkedAdd first ratings.quarantine.probeLease = some ending)
    {between : List Op} (hquiet : ∀ op ∈ between, op.settles i = false)
    (hsecond : i ∈ (((ratings.takeProbes first).2.applyAll arith rng between).takeProbes
      second).1) : ending ≤ second := by
  obtain ⟨_, cell, hcell, hgranted⟩ := mem_takeProbes.mp hfirst
  have henabled : ratings.quarantine.enabled = true := by
    by_contra hdisabled
    rw [takeProbes, if_neg hdisabled] at hfirst
    cases hfirst
  obtain ⟨hpolicy, hcells⟩ := takeProbes_cell ratings first i
  obtain ⟨hpolicy', _, hkept⟩ := applyAll_cell arith rng
    (fun _ j cell => Leased i ending j cell) between (ratings.takeProbes first).2
    (fun op hop j cell hleased => onCell_leased (hquiet op hop) j cell hleased)
    (by
      rintro j cell' hcell' rfl
      rw [hcells, hcell] at hcell'
      obtain rfl : Op.onCell ratings.quarantine j (.takeProbes first) cell = cell' := by
        simpa using hcell'
      refine ⟨ending, ?_, le_refl _⟩
      rw [Op.onCell, if_pos henabled, Cell.tryLease_lease hgranted, hending]
      rfl)
  obtain ⟨_, cell', hcell', hgranted'⟩ := mem_takeProbes.mp hsecond
  obtain ⟨lease, hlease, hle⟩ := hkept i cell' hcell' rfl
  exact le_trans hle ((Cell.tryLease_granted hgranted').2 lease hlease)

/-- Selection respects the quarantine and never starves: from fresh ratings, after any
operations at any times, an order lists each selectable upstream once, a pick is
selectable, and a probe goes to an upstream on probation whose lease has run out. -/
theorem selection_respects_quarantine (arith : FloatArith) (rng : Rng ρ) (n : Nat)
    (policy : RatingPolicy) (quarantine : QuarantinePolicy) (created : Instant) (seed : ρ)
    (ops : List Op) (now : Instant) :
    let ratings := (fresh n policy quarantine created seed).applyAll arith rng ops
    ratings.inner.cells.length = n ∧ ratings.quarantine = quarantine ∧
    (∃ order, (ratings.pickOrder arith rng now).1 = some order ∧ order.Nodup ∧
      (∀ i, i ∈ order ↔ ratings.Selectable now i) ∧ (0 < n → order ≠ [])) ∧
    (0 < n → (∀ w ∈ ratings.weights arith now, w.positive = true) →
      ∃ i, (ratings.pick arith rng now).1 = some i ∧ ratings.Selectable now i) ∧
    (∀ i ∈ (ratings.takeProbes now).1,
      ∃ cell, ratings.inner.quarantine[i]? = some cell ∧ cell.state now = .probation ∧
        ∀ lease, cell.leaseUntil = some lease → lease ≤ now) ∧
    (∀ i ∈ (ratings.takeProbes now).1, ∀ between : List Op,
      (∀ op ∈ between, op.settles i = false) → ∀ later,
      i ∈ (((ratings.takeProbes now).2.applyAll arith rng between).takeProbes later).1 →
      ∀ ending, Instant.checkedAdd now quarantine.probeLease = some ending →
        ending ≤ later) := by
  intro ratings
  obtain ⟨hpolicy, hlength, _⟩ := applyAll_cell arith rng (fun _ _ _ => True) ops
    (fresh n policy quarantine created seed) (fun _ _ _ _ _ => trivial)
    (fun _ _ _ => trivial)
  have hn : ratings.inner.cells.length = n := by
    rw [hlength]
    simp [fresh]
  refine ⟨hn, hpolicy, ?_, fun hpos hweights => pick_selectable hn hpos hweights, ?_, ?_⟩
  · obtain ⟨order, horder, hperm⟩ := pickOrder_perm ratings now
    refine ⟨order, horder, hperm.nodup_iff.mpr eligible_nodup, fun i => ?_, ?_⟩
    · rw [hperm.mem_iff, mem_eligible]
    · intro hpos hnil
      rw [hnil] at hperm
      exact eligible_ne_nil (hn ▸ hpos) hperm.nil_eq.symm
  · intro i hprobe
    obtain ⟨_, cell, hcell, hgranted⟩ := mem_takeProbes.mp hprobe
    exact ⟨cell, hcell, Cell.tryLease_granted hgranted⟩
  · intro i hprobe between hquiet later hagain ending hending
    exact probe_after_lease hprobe (hpolicy ▸ hending) hquiet hagain

def onFinite (f : ℚ → ℚ → ℚ) : F64 → F64 → F64
  | .finite x, .finite y => .finite (f x y)
  | _, _ => .nan

/-- Exact on rationals; `ln` and `exp` are right at 1 and 0, and rough elsewhere. -/
def exactArith : FloatArith where
  add := onFinite (· + ·)
  sub := onFinite (· - ·)
  mul := onFinite (· * ·)
  div := onFinite (· / ·)
  neg := onFinite (fun y x => y - x) (.finite 0)
  ln x := if x = .finite 1 then .finite 0 else .finite (693 / 1000)
  exp x := if x = .finite 0 then .finite 1 else onFinite (· + ·) x (.finite 1)
  seconds nanos := .finite (nanos / 1000000000)

/-- Two upstreams, the first tripped at once: every pick is the second. -/
theorem selection_respects_quarantine_tripped :
    let ratings := (fresh 2 ⟨.finite 30, .finite 0, .finite 8, .finite 1, .finite 1⟩
      ⟨1, 30, 600, 25, by decide⟩ 0 (7 : UInt64)).applyAll exactArith smallRng [.hardFailure 0 0]
    ∃ i, (ratings.pick exactArith smallRng 5).1 = some i ∧ ratings.Selectable 5 i := by
  have hall := selection_respects_quarantine exactArith smallRng 2
    ⟨.finite 30, .finite 0, .finite 8, .finite 1, .finite 1⟩ ⟨1, 30, 600, 25, by decide⟩ 0 (7 : UInt64)
    [.hardFailure 0 0] 5
  exact hall.2.2.2.1 (by decide) (by decide +kernel)

end

end Ratings

end Resocks5.Rating
