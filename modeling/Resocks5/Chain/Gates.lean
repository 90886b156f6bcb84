import Resocks5.Chain.Exactness
import Resocks5.Chain.Failure
import Resocks5.Session.Usage
import Mathlib.Data.List.Sort

namespace Resocks5.Chain

open Resocks5.Foundation
open Resocks5.Rating
open Resocks5.Session
open Resocks5.Types

structure GateLevel where
  rank : UInt8
  rotator : RotatorId
  deriving DecidableEq, Repr

/-- Gate levels by descending rank, the outermost first. -/
structure GateLevels where
  levels : List GateLevel
  sorted : levels.Pairwise fun outer inner => inner.rank ≤ outer.rank

namespace GateLevels

/-- A stable sort. -/
def new (levels : List GateLevel) : GateLevels where
  levels := levels.insertionSort fun outer inner => inner.rank ≤ outer.rank
  sorted := by
    have : Std.Total fun outer inner : GateLevel => inner.rank ≤ outer.rank :=
      ⟨fun outer inner => UInt8.le_total inner.rank outer.rank⟩
    have : IsTrans GateLevel fun outer inner => inner.rank ≤ outer.rank :=
      ⟨fun _ _ _ hab hbc => UInt8.le_trans hbc hab⟩
    exact List.pairwise_insertionSort _ levels

def isEmpty (gates : GateLevels) : Bool :=
  gates.levels.isEmpty

section

variable {ρ : Type u}

def findNode (rotator : Rotator ρ) (node : ProxyNode) : Option ProxyConfig :=
  rotator.proxies.find? fun candidate => sameNode candidate.node node

def resolveGates (rotators : Rotators ρ) : List GateLevel → List ProxyNode → Option (List Hop)
  | level :: levels, node :: nodes =>
    if node.gateLevel ≠ level.rank then none
    else
      (findNode (rotators level.rotator) node).bind fun proxy =>
        (resolveGates rotators levels nodes).map fun hops => ⟨level.rotator, proxy⟩ :: hops
  | _, _ => some []

def resolveExit (rotators : Rotators ρ) (node : ProxyNode) : List RotatorId → Option Hop
  | [] => none
  | r :: exits =>
    match findNode (rotators r) node with
    | some proxy => some ⟨r, proxy⟩
    | none => resolveExit rotators node exits

def resolve (gates : GateLevels) (rotators : Rotators ρ) (exits : List RotatorId)
    (chain : ProxyConfig) : Option ChainPick :=
  let nodes := chain.nodes
  if nodes.length ≠ gates.levels.length + 1 then none
  else
    (resolveGates rotators gates.levels nodes).bind fun hops =>
      nodes.getLast?.bind fun exitNode =>
        (resolveExit rotators exitNode exits).bind fun hop => ChainPick.ofHops (hops ++ [hop])

end

end GateLevels

section

variable {ρ : Type u} (arith : FloatArith) (rng : Rng ρ)

/-- The pick orders of some rotators, one after the other; `clock i` is the time of the `i`th. -/
def pickOrders (clock : Nat → Instant) :
    Nat → List RotatorId → Rotators ρ → Option (List PickOrder × Rotators ρ)
  | _, [], rotators => some ([], rotators)
  | i, r :: rest, rotators =>
    let (order, rotator) := (rotators r).pickOrder arith rng (clock i)
    order.bind fun order =>
      (pickOrders clock (i + 1) rest (Function.update rotators r rotator)).map
        fun (orders, rotators) => ((r, order) :: orders, rotators)

/-- `ChainPlan::new` on rotators; `None` for a panic in a pick order. -/
def planFor (clock : Nat → Instant) (gates : GateLevels) (exits : List RotatorId)
    (rotators : Rotators ρ) : Option (ChainPlan × Rotators ρ) :=
  (pickOrders arith rng clock 0 (gates.levels.map (·.rotator) ++ exits) rotators).map
    fun (orders, rotators) =>
      (ChainPlan.new (orders.take gates.levels.length) (orders.drop gates.levels.length),
        rotators)

/-- `next` with the fuel that one call can need; `None` for a panic. -/
def ChainPlan.next (plan : ChainPlan) : Option (Option ChainPick × ChainPlan) :=
  plan.nextPick (plan.workBound + 1)

def ChainPick.recordSuccess (pick : ChainPick) (clock : Nat → Instant) (rotators : Rotators ρ) :
    Rotators ρ :=
  pick.hops.zipIdx.foldl (fun rotators (hop, i) =>
    Function.update rotators hop.rotator
      ((rotators hop.rotator).recordSuccess arith hop.proxy (clock i))) rotators

end

/-! Chains through gates. -/

theorem ChainPick.gate_length (pick : ChainPick) :
    pick.key.exit.gate.length + 1 = pick.hops.length := by
  have hnodes := ProxyConfig.nodes_chain (pick.hops.map (·.proxy))
  rw [pick.keyed] at hnodes
  simpa [ProxyConfig.nodes] using congrArg List.length hnodes

def ChainPick.Gated (pick : ChainPick) : Prop :=
  pick.key.exit.gate ≠ []

theorem ChainPick.gated_iff {pick : ChainPick} : pick.Gated ↔ 2 ≤ pick.hops.length := by
  rw [← pick.gate_length, Gated, ← List.length_pos_iff]
  omega

section

variable {ρ : Type u}

theorem GateLevels.resolveGates_length {rotators : Rotators ρ} {levels : List GateLevel}
    {nodes : List ProxyNode} {hops : List Hop}
    (hhops : resolveGates rotators levels nodes = some hops) (hle : levels.length ≤ nodes.length) :
    hops.length = levels.length := by
  induction levels generalizing nodes hops with
  | nil =>
      cases hhops
      rfl
  | cons level levels ih =>
      cases nodes with
      | nil => simp at hle
      | cons node nodes =>
          rw [resolveGates] at hhops
          split at hhops
          · cases hhops
          · obtain ⟨proxy, _, hmap⟩ := Option.bind_eq_some_iff.mp hhops
            obtain ⟨rest, hrest, rfl⟩ := Option.map_eq_some_iff.mp hmap
            rw [List.length_cons, List.length_cons, ih hrest (by simpa using hle)]

theorem GateLevels.resolve_gated {gates : GateLevels} {rotators : Rotators ρ}
    {exits : List RotatorId} {chain : ProxyConfig} {pick : ChainPick}
    (hresolve : gates.resolve rotators exits chain = some pick) (hgate : chain.gate ≠ []) :
    pick.Gated ∧ gates.levels ≠ [] := by
  unfold resolve at hresolve
  dsimp only at hresolve
  split at hresolve
  · cases hresolve
  · rename_i hlength
    rw [not_not] at hlength
    obtain ⟨hops, hhops, hrest⟩ := Option.bind_eq_some_iff.mp hresolve
    obtain ⟨exitNode, _, hrest⟩ := Option.bind_eq_some_iff.mp hrest
    obtain ⟨hop, _, hpick⟩ := Option.bind_eq_some_iff.mp hrest
    have hpos := List.length_pos_iff.mpr hgate
    have hnodes : chain.nodes.length = chain.gate.length + 1 := by simp [ProxyConfig.nodes]
    have hgates := resolveGates_length hhops (by omega)
    refine ⟨ChainPick.gated_iff.mpr ?_, fun hnil => ?_⟩
    · rw [ChainPick.ofHops_eq_some hpick, List.length_append, List.length_singleton]
      omega
    · rw [hnil, List.length_nil] at hlength
      omega

/-- A plan with at most `left` chains to come, each through a gate. -/
def ChainPlan.Planned (plan : ChainPlan) (left : Nat) : Prop :=
  ∃ enumeration, Refines plan enumeration ∧ plan.Counted ∧
    enumeration.pending.length ≤ left ∧ left ≤ plan.workBound ∧
    ∀ pick ∈ enumeration.pending, pick.Gated

theorem workBound_of_candidates {plan plan' : ChainPlan}
    (hsame : plan'.layers.map (·.candidates) = plan.layers.map (·.candidates)) :
    plan'.workBound = plan.workBound := by
  have hlengths := congrArg (List.map List.length) hsame
  simp only [List.map_map, Function.comp_def] at hlengths
  rw [ChainPlan.workBound, ChainPlan.workBound, hlengths]

theorem Enumeration.next_pending (enumeration : Enumeration) :
    enumeration.next.2.pending <:+ enumeration.pending ∧
      ∀ pick, enumeration.next.1 = some pick → pick ∈ enumeration.pending ∧
        enumeration.next.2.pending.length < enumeration.pending.length := by
  have hsuffix := List.dropWhile_suffix (l := enumeration.pending) enumeration.skips
  unfold Enumeration.next
  cases hdrop : enumeration.pending.dropWhile enumeration.skips with
  | nil =>
      exact ⟨List.nil_suffix, fun _ hnone => by cases hnone⟩
  | cons pick rest =>
      rw [hdrop] at hsuffix
      refine ⟨(List.suffix_cons pick rest).trans hsuffix, fun other hother => ?_⟩
      cases hother
      refine ⟨hsuffix.subset List.mem_cons_self, ?_⟩
      have hle := hsuffix.length_le
      rw [List.length_cons] at hle
      exact hle

theorem ChainPlan.Planned.next {plan : ChainPlan} {left : Nat} (hplanned : plan.Planned left) :
    ∃ pick plan', plan.next = some (pick, plan') ∧ plan'.Planned left ∧
      ∀ chain, pick = some chain → chain.Gated ∧ 0 < left ∧ plan'.Planned (left - 1) := by
  obtain ⟨enumeration, hrefines, hcounted, hleft, hbound, hgated⟩ := hplanned
  obtain ⟨plan', hnext, hrefines'⟩ := hrefines.nextPick (Nat.lt_succ_of_le (hleft.trans hbound))
  obtain ⟨hstock, hdead, _⟩ := ChainPlan.nextPick_frame hnext
  obtain ⟨hsuffix, hyield⟩ := enumeration.next_pending
  have hcandidates : plan'.layers.map (·.candidates) = plan.layers.map (·.candidates) := by
    simpa [Layer.stock, Function.comp_def] using congrArg (List.map Prod.fst) hstock
  have hcounted' := hcounted.of_frame hstock hdead
  have hgated' : ∀ pick ∈ enumeration.next.2.pending, pick.Gated :=
    fun pick hpick => hgated pick (hsuffix.subset hpick)
  have hbound' : left ≤ plan'.workBound := by rwa [workBound_of_candidates hcandidates]
  refine ⟨enumeration.next.1, plan', hnext,
    ⟨enumeration.next.2, hrefines', hcounted', hsuffix.length_le.trans hleft, hbound', hgated'⟩,
    fun chain hchain => ?_⟩
  obtain ⟨hmem, hlt⟩ := hyield chain hchain
  exact ⟨hgated chain hmem, by omega, enumeration.next.2, hrefines', hcounted',
    by omega, by omega, hgated'⟩

theorem ChainPlan.Planned.markDead {plan plan' : ChainPlan} {left : Nat}
    (hplanned : plan.Planned left) {proxy : ProxyConfig}
    (hmark : plan.markDead proxy = some plan') : plan'.Planned left := by
  obtain ⟨enumeration, hrefines, hcounted, hleft, hbound, hgated⟩ := hplanned
  obtain ⟨marked, hmarked, hcounted', hcandidates, hrefines'⟩ :=
    hrefines.markDead hcounted proxy
  obtain rfl : marked = plan' := Option.some.inj (hmarked.symm.trans hmark)
  exact ⟨_, hrefines', hcounted', hleft, by rwa [workBound_of_candidates hcandidates], hgated⟩

theorem ChainPlan.planned_empty : (ChainPlan.new [] []).Planned 0 :=
  ⟨_, refines_new [] [], ChainPlan.new_counted [] [], le_refl 0, Nat.zero_le _,
    fun _ hpick => by cases hpick⟩

theorem ChainPlan.planned_new {gates exits : List PickOrder} (hgates : gates ≠ []) :
    (ChainPlan.new gates exits).Planned (ChainPlan.new gates exits).workBound := by
  refine ⟨_, refines_new gates exits, ChainPlan.new_counted gates exits, ?_, le_refl _, ?_⟩
  · refine (List.length_filterMap_le _ _).trans ?_
    rw [length_product, List.map_map]
    exact le_refl _
  · intro pick hpick
    obtain ⟨combination, hcombination, hpick⟩ := List.mem_filterMap.mp hpick
    have hlength := (Odometer.mem_product.mp hcombination).length_eq
    have hpos := List.length_pos_iff.mpr hgates
    rw [ChainPick.gated_iff, pickOf_hops hpick, List.length_map, hlength]
    simp [ChainPlan.new]
    omega

/-! What a plan does to the rotators it is made of. -/

def RotatorsUse (arith : FloatArith) (rng : Rng ρ) (before after : Rotators ρ) : Prop :=
  ∀ r, Rotator.Uses arith rng (before r) (after r)

variable {arith : FloatArith} {rng : Rng ρ}

theorem RotatorsUse.refl (rotators : Rotators ρ) : RotatorsUse arith rng rotators rotators :=
  fun _ => Rotator.Uses.refl _

theorem RotatorsUse.trans {a b c : Rotators ρ} (hab : RotatorsUse arith rng a b)
    (hbc : RotatorsUse arith rng b c) : RotatorsUse arith rng a c :=
  fun r => (hab r).trans (hbc r)

theorem RotatorsUse.update {rotators : Rotators ρ} {r : RotatorId} {rotator : Rotator ρ}
    (huses : Rotator.Uses arith rng (rotators r) rotator) :
    RotatorsUse arith rng rotators (Function.update rotators r rotator) := by
  intro other
  by_cases hsame : other = r
  · subst hsame
    rw [Function.update_self]
    exact huses
  · rw [Function.update_of_ne hsame]
    exact Rotator.Uses.refl _

theorem soft_use (rotators : Rotators ρ) (hop : Hop) (now : Instant) :
    RotatorsUse arith rng rotators (soft arith rotators hop now) :=
  RotatorsUse.update (Rotator.recordFailure_uses arith rng _ hop.proxy now)

theorem hard_use (rotators : Rotators ρ) (hop : Hop) (err : ConnectError) (now : Instant) :
    RotatorsUse arith rng rotators (hard arith rotators hop err now).2 :=
  RotatorsUse.update (Rotator.recordError_uses arith rng _ hop.proxy err now)

theorem softAll_use (clock : Nat → Instant) (i : Nat) (rotators : Rotators ρ)
    (hops : List Hop) : RotatorsUse arith rng rotators (softAll arith clock i rotators hops) := by
  induction hops generalizing i rotators with
  | nil => exact RotatorsUse.refl rotators
  | cons hop rest ih => exact (soft_use rotators hop (clock i)).trans (ih (i + 1) _)

theorem hardAndDead_use {plan plan' : ChainPlan} {rotators rotators' : Rotators ρ} {hop : Hop}
    {err : ConnectError} {now : Instant} {quarantined : List Quarantined}
    (hrecord : hardAndDead arith plan rotators hop err now =
      some (quarantined, plan', rotators')) :
    RotatorsUse arith rng rotators rotators' ∧ plan.markDead hop.proxy = some plan' := by
  obtain ⟨marked, hmark, heq⟩ := Option.map_eq_some_iff.mp hrecord
  cases heq
  exact ⟨hard_use rotators hop err now, hmark⟩

theorem recordFailure_use {clock : Nat → Instant} {plan plan' : ChainPlan}
    {rotators rotators' : Rotators ρ} {pick : ChainPick} {stage : ChainStage}
    {err : ConnectError} {quarantined : List Quarantined}
    (hrecord : recordFailure arith clock plan rotators pick stage err =
      some (quarantined, plan', rotators')) :
    RotatorsUse arith rng rotators rotators' ∧
      (plan' = plan ∨ ∃ proxy, plan.markDead proxy = some plan') := by
  unfold recordFailure at hrecord
  split at hrecord
  · cases hrecord
    exact ⟨RotatorsUse.refl _, .inl rfl⟩
  · dsimp only at hrecord
    cases stage with
    | connect =>
        obtain ⟨hop, _, hrecord⟩ := Option.bind_eq_some_iff.mp hrecord
        obtain ⟨huse, hmark⟩ := hardAndDead_use hrecord
        exact ⟨huse, .inr ⟨_, hmark⟩⟩
    | target =>
        obtain ⟨hop, _, hrecord⟩ := Option.bind_eq_some_iff.mp hrecord
        obtain ⟨huse, hmark⟩ := hardAndDead_use hrecord
        exact ⟨huse, .inr ⟨_, hmark⟩⟩
    | hop i =>
        dsimp only at hrecord
        split at hrecord
        · split at hrecord
          · obtain ⟨hop, _, hrecord⟩ := Option.bind_eq_some_iff.mp hrecord
            obtain ⟨huse, hmark⟩ := hardAndDead_use hrecord
            exact ⟨huse, .inr ⟨_, hmark⟩⟩
          · obtain ⟨hop, _, hrecord⟩ := Option.bind_eq_some_iff.mp hrecord
            obtain ⟨next, _, heq⟩ := Option.map_eq_some_iff.mp hrecord
            cases heq
            exact ⟨(soft_use rotators hop _).trans (soft_use _ next _), .inl rfl⟩
        · cases hrecord
          exact ⟨softAll_use clock 0 rotators pick.hops, .inl rfl⟩

theorem ChainPlan.Planned.recordFailure {plan : ChainPlan} {left : Nat}
    (hplanned : plan.Planned left) (arith : FloatArith) (rng : Rng ρ)
    (clock : Nat → Instant) (rotators : Rotators ρ) (pick : ChainPick) (stage : ChainStage)
    (err : ConnectError) :
    ∃ quarantined plan' rotators',
      Chain.recordFailure arith clock plan rotators pick stage err =
        some (quarantined, plan', rotators') ∧
      plan'.Planned left ∧ RotatorsUse arith rng rotators rotators' := by
  have hcounted : plan.Counted := by
    obtain ⟨_, _, hcounted, _⟩ := hplanned
    exact hcounted
  obtain ⟨quarantined, plan', rotators', hrecord, _⟩ :=
    recordFailure_blame arith clock hcounted rotators pick stage err
  obtain ⟨huse, hplan⟩ : RotatorsUse arith rng rotators rotators' ∧ _ :=
    recordFailure_use hrecord
  refine ⟨quarantined, plan', rotators', hrecord, ?_, huse⟩
  obtain rfl | ⟨proxy, hmark⟩ := hplan
  · exact hplanned
  · exact hplanned.markDead hmark

theorem pickOrders_use {clock : Nat → Instant} {i : Nat} {rs : List RotatorId}
    {rotators rotators' : Rotators ρ} {orders : List PickOrder}
    (horders : pickOrders arith rng clock i rs rotators = some (orders, rotators')) :
    orders.length = rs.length ∧ RotatorsUse arith rng rotators rotators' := by
  induction rs generalizing i rotators orders with
  | nil =>
      cases horders
      exact ⟨rfl, RotatorsUse.refl _⟩
  | cons r rest ih =>
      rw [pickOrders] at horders
      obtain ⟨order, _, hmap⟩ := Option.bind_eq_some_iff.mp horders
      obtain ⟨⟨tail, after⟩, htail, heq⟩ := Option.map_eq_some_iff.mp hmap
      cases heq
      obtain ⟨hlength, huse⟩ := ih htail
      refine ⟨by simp [hlength], RotatorsUse.trans (RotatorsUse.update ?_) huse⟩
      exact Rotator.pickOrder_uses arith rng _ (clock i)

theorem pickOrders_isSome {rotators : Rotators ρ} (hwhole : ∀ r, (rotators r).Whole)
    (clock : Nat → Instant) (i : Nat) (rs : List RotatorId) :
    (pickOrders arith rng clock i rs rotators).isSome = true := by
  induction rs generalizing i rotators with
  | nil => rfl
  | cons r rest ih =>
      obtain ⟨order, horder, _⟩ : ∃ order,
          ((rotators r).pickOrder arith rng (clock i)).1 = some order ∧ _ :=
        Rotator.pickOrder_spec (hwhole r) (clock i)
      have hstep : RotatorsUse arith rng rotators
          (Function.update rotators r ((rotators r).pickOrder arith rng (clock i)).2) :=
        RotatorsUse.update (Rotator.pickOrder_uses arith rng _ (clock i))
      rw [pickOrders]
      dsimp only
      rw [horder, Option.bind_some, Option.isSome_map]
      exact ih (fun other => (hstep other).whole (hwhole other)) (i + 1)

theorem planFor_planned {clock : Nat → Instant} {gates : GateLevels} {exits : List RotatorId}
    {rotators rotators' : Rotators ρ} {plan : ChainPlan}
    (hplan : planFor arith rng clock gates exits rotators = some (plan, rotators'))
    (hgates : gates.levels ≠ []) :
    plan.Planned plan.workBound ∧ RotatorsUse arith rng rotators rotators' := by
  obtain ⟨⟨orders, after⟩, horders, heq⟩ := Option.map_eq_some_iff.mp hplan
  cases heq
  obtain ⟨hlength, huse⟩ := pickOrders_use horders
  refine ⟨ChainPlan.planned_new ?_, huse⟩
  have hpos := List.length_pos_iff.mpr hgates
  rw [← List.length_pos_iff, List.length_take, hlength, List.length_append, List.length_map]
  omega

theorem planFor_isSome {rotators : Rotators ρ} (hwhole : ∀ r, (rotators r).Whole)
    (clock : Nat → Instant) (gates : GateLevels) (exits : List RotatorId) :
    (planFor arith rng clock gates exits rotators).isSome = true := by
  rw [planFor, Option.isSome_map]
  exact pickOrders_isSome hwhole clock 0 _

theorem recordSuccess_use (pick : ChainPick) (clock : Nat → Instant) (rotators : Rotators ρ) :
    RotatorsUse arith rng rotators (pick.recordSuccess arith clock rotators) := by
  unfold ChainPick.recordSuccess
  generalize pick.hops.zipIdx = hops
  induction hops generalizing rotators with
  | nil => exact RotatorsUse.refl rotators
  | cons hop rest ih =>
      rw [List.foldl_cons]
      exact (RotatorsUse.update
        (Rotator.recordSuccess_uses arith rng _ hop.1.proxy (clock hop.2))).trans (ih _)

end

end Resocks5.Chain
