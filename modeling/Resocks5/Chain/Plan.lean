import Resocks5.Types.ProxyConfig

namespace Resocks5.Chain

open Resocks5.Types

/-- Rotators are shared by reference; a number stands for the reference. -/
abbrev RotatorId := Nat

structure Hop where
  rotator : RotatorId
  proxy : ProxyConfig
  deriving DecidableEq, Repr

structure Candidate where
  hop : Hop
  key : ChainKey
  key_eq : key = singletonKey hop.proxy
  deriving DecidableEq

/-- One gate level, or all exits; `live` counts the candidates not marked dead. -/
structure Layer where
  candidates : List Candidate
  live : Nat
  index : Nat

/-- One complete chain candidate, gates outermost and exit last, under its key. -/
structure ChainPick where
  hops : List Hop
  key : ChainKey
  keyed : ProxyConfig.chain (hops.map (·.proxy)) = some key.exit
  deriving DecidableEq, Repr

structure ChainPlan where
  layers : List Layer
  seen : List ChainKey
  dead : List ChainKey
  done : Bool

abbrev PickOrder := RotatorId × List ProxyConfig

def PickOrder.hops (order : PickOrder) : List Hop :=
  order.2.map fun proxy => ⟨order.1, proxy⟩

/-- First occurrences only, by singleton key. -/
def deduplicate (seen : List ChainKey) : List Hop → List Candidate
  | [] => []
  | hop :: rest =>
    let key := singletonKey hop.proxy
    if seen.contains key then deduplicate seen rest
    else ⟨hop, key, rfl⟩ :: deduplicate (key :: seen) rest

namespace Layer

def new (hops : List Hop) : Layer :=
  let candidates := deduplicate [] hops
  { candidates, live := candidates.length, index := 0 }

def current? (layer : Layer) : Option Candidate :=
  layer.candidates[layer.index]?

/-- The body that `advance` and `jump_subtree` share; the flag asks for a carry. -/
def bump (layer : Layer) : Layer × Bool :=
  if layer.index + 1 < layer.candidates.length then
    ({ layer with index := layer.index + 1 }, false)
  else
    ({ layer with index := 0 }, true)

def rewind (layer : Layer) : Layer :=
  { layer with index := 0 }

def advance : List Layer → List Layer × Bool
  | [] => ([], true)
  | layer :: rest =>
    let (rest, carry) := advance rest
    if carry then
      let (layer, carry) := layer.bump
      (layer :: rest, carry)
    else
      (layer :: rest, false)

def jumpSubtree : Nat → List Layer → List Layer × Bool
  | _, [] => ([], true)
  | 0, layer :: rest =>
    let (layer, carry) := layer.bump
    (layer :: rest.map rewind, carry)
  | index + 1, layer :: rest =>
    let (rest, carry) := jumpSubtree index rest
    if carry then
      let (layer, carry) := layer.bump
      (layer :: rest, carry)
    else
      (layer :: rest, false)

def holds (layer : Layer) (key : ChainKey) : Bool :=
  layer.candidates.any fun candidate => candidate.key == key

/-- `None` where `live -= 1` would underflow. -/
def markDead (key : ChainKey) (layer : Layer) : Option Layer :=
  if layer.holds key then
    if layer.live = 0 then none
    else some { layer with live := layer.live - 1 }
  else
    some layer

/-- The first layer that shows a dead candidate; `None` outside for an index out of bounds. -/
def deadPosition (dead : List ChainKey) : List Layer → Option (Option Nat)
  | [] => some none
  | layer :: rest =>
    match layer.current? with
    | none => none
    | some candidate =>
      if dead.contains candidate.key then some (some 0)
      else (deadPosition dead rest).map fun position => position.map (· + 1)

end Layer

namespace ChainPick

def ofHops (hops : List Hop) : Option ChainPick :=
  match h : ProxyConfig.chain (hops.map (·.proxy)) with
  | none => none
  | some exit => some ⟨hops, ⟨exit⟩, h⟩

def config (pick : ChainPick) : ProxyConfig :=
  (ProxyConfig.chain (pick.hops.map (·.proxy))).get (by rw [pick.keyed]; rfl)

def exit? (pick : ChainPick) : Option Hop :=
  pick.hops.getLast?

theorem nonempty (pick : ChainPick) : pick.hops ≠ [] := by
  intro hnil
  have hkeyed := pick.keyed
  rw [hnil] at hkeyed
  cases hkeyed

theorem config_eq (pick : ChainPick) : pick.config = pick.key.exit := by
  simp [config, pick.keyed]

theorem ofHops_isSome {hops : List Hop} (hne : hops ≠ []) : (ofHops hops).isSome = true := by
  have hsome := ProxyConfig.chain_isSome (hops.map (·.proxy)) (by simpa using hne)
  unfold ofHops
  split
  · rename_i hnone
    rw [hnone] at hsome
    cases hsome
  · rfl

theorem ofHops_eq_some {hops : List Hop} {pick : ChainPick} (hpick : ofHops hops = some pick) :
    pick.hops = hops := by
  unfold ofHops at hpick
  split at hpick
  · cases hpick
  · cases hpick
    rfl

end ChainPick

def pickOf (combination : List Candidate) : Option ChainPick :=
  ChainPick.ofHops (combination.map (·.hop))

namespace ChainPlan

def new (gates exits : List PickOrder) : ChainPlan :=
  let layers := gates.map (fun gate => Layer.new gate.hops) ++
    [Layer.new (exits.flatMap PickOrder.hops)]
  { layers
    seen := []
    dead := []
    done := layers.any fun layer => layer.candidates.isEmpty }

def currentPick (plan : ChainPlan) : Option ChainPick :=
  (plan.layers.mapM Layer.current?).bind pickOf

def advance (plan : ChainPlan) : ChainPlan :=
  let (layers, carry) := Layer.advance plan.layers
  { plan with layers, done := plan.done || carry }

def jumpSubtree (plan : ChainPlan) (index : Nat) : ChainPlan :=
  let (layers, carry) := Layer.jumpSubtree index plan.layers
  { plan with layers, done := plan.done || carry }

/-- `None` when the loop needs more than `fuel` turns, or panics. -/
def nextPick : Nat → ChainPlan → Option (Option ChainPick × ChainPlan)
  | 0, _ => none
  | fuel + 1, plan =>
    if plan.done then some (none, plan)
    else
      match Layer.deadPosition plan.dead plan.layers with
      | none => none
      | some (some index) => nextPick fuel (plan.jumpSubtree index)
      | some none =>
        match plan.currentPick with
        | none => none
        | some pick =>
          if plan.seen.contains pick.key then nextPick fuel plan.advance
          else some (some pick, plan.advance)

def markDead (plan : ChainPlan) (proxy : ProxyConfig) : Option ChainPlan :=
  let key := singletonKey proxy
  if plan.dead.contains key then some plan
  else
    (plan.layers.mapM (Layer.markDead key)).map fun layers =>
      { plan with
        layers
        dead := key :: plan.dead
        done := plan.done || layers.any fun layer => layer.holds key && layer.live == 0 }

def exclude (plan : ChainPlan) (key : ChainKey) : ChainPlan :=
  { plan with seen := plan.seen.insert key }

end ChainPlan

/-! Calls on a plan, and what a caller sees of them. -/

inductive PlanCall where
  | nextPick
  | markDead (proxy : ProxyConfig)
  | exclude (key : ChainKey)
  deriving DecidableEq, Repr

inductive PlanEvent where
  | yielded (pick : ChainPick)
  | exhausted
  | marked (proxy : ProxyConfig)
  | excluded (key : ChainKey)
  deriving DecidableEq, Repr

namespace PlanEvent

def pick? : PlanEvent → Option ChainPick
  | .yielded pick => some pick
  | _ => none

def marked? : PlanEvent → Option ProxyConfig
  | .marked proxy => some proxy
  | _ => none

def excluded? : PlanEvent → Option ChainKey
  | .excluded key => some key
  | _ => none

end PlanEvent

namespace ChainPlan

def call (fuel : Nat) (plan : ChainPlan) : PlanCall → Option (PlanEvent × ChainPlan)
  | .nextPick =>
    (plan.nextPick fuel).map fun (pick, plan) =>
      match pick with
      | some pick => (.yielded pick, plan)
      | none => (.exhausted, plan)
  | .markDead proxy => (plan.markDead proxy).map fun plan => (.marked proxy, plan)
  | .exclude key => some (.excluded key, plan.exclude key)

def session (fuel : Nat) (plan : ChainPlan) :
    List PlanCall → Option (List PlanEvent × ChainPlan)
  | [] => some ([], plan)
  | call :: calls =>
    match plan.call fuel call with
    | none => none
    | some (event, plan) =>
      (plan.session fuel calls).map fun (events, plan) => (event :: events, plan)

end ChainPlan

/-! Facts about the parts of a plan. -/

namespace Layer

@[simp] theorem bump_candidates (layer : Layer) :
    layer.bump.1.candidates = layer.candidates := by
  unfold bump
  split <;> rfl

@[simp] theorem bump_live (layer : Layer) : layer.bump.1.live = layer.live := by
  unfold bump
  split <;> rfl

@[simp] theorem rewind_candidates (layer : Layer) :
    layer.rewind.candidates = layer.candidates := rfl

@[simp] theorem rewind_live (layer : Layer) : layer.rewind.live = layer.live := rfl

end Layer

theorem deduplicate_nodup (seen : List ChainKey) (hops : List Hop) :
    ((deduplicate seen hops).map (·.key)).Nodup ∧
      ∀ key ∈ seen, key ∉ (deduplicate seen hops).map (·.key) := by
  induction hops generalizing seen with
  | nil => simp [deduplicate]
  | cons hop rest ih =>
      simp only [deduplicate]
      split
      · exact ih seen
      · rename_i hfresh
        obtain ⟨hnodup, hapart⟩ := ih (singletonKey hop.proxy :: seen)
        constructor
        · rw [List.map_cons, List.nodup_cons]
          exact ⟨hapart _ List.mem_cons_self, hnodup⟩
        · intro key hkey hmem
          rw [List.map_cons, List.mem_cons] at hmem
          cases hmem with
          | inl heq =>
              subst heq
              exact hfresh (List.contains_iff_mem.mpr hkey)
          | inr hmem => exact hapart key (List.mem_cons_of_mem _ hkey) hmem

theorem pickOf_isSome {combination : List Candidate} (hne : combination ≠ []) :
    (pickOf combination).isSome = true :=
  ChainPick.ofHops_isSome (by simpa using hne)

theorem pickOf_hops {combination : List Candidate} {pick : ChainPick}
    (hpick : pickOf combination = some pick) :
    pick.hops = combination.map (·.hop) :=
  ChainPick.ofHops_eq_some hpick

theorem pickOf_chain {combination : List Candidate} {pick : ChainPick}
    (hpick : pickOf combination = some pick) :
    ProxyConfig.chain ((combination.map (·.hop)).map (·.proxy)) = some pick.key.exit := by
  rw [← pickOf_hops hpick]
  exact pick.keyed

/-- Two combinations have one key exactly when their nodes agree place by place. -/
theorem pickOf_key_inj {left right : List Candidate} {a b : ChainPick}
    (ha : pickOf left = some a) (hb : pickOf right = some b) (hkey : a.key = b.key) :
    left.map (·.key) = right.map (·.key) := by
  have hexit := pickOf_chain ha
  rw [hkey] at hexit
  have hnodes := ProxyConfig.chain_eq_iff.mp (hexit.trans (pickOf_chain hb).symm)
  have hkeys : ∀ combination : List Candidate,
      combination.map (·.key) =
        (((combination.map (·.hop)).map (·.proxy)).map (·.node)).map
          (fun node => singletonKey ⟨node, []⟩) := by
    intro combination
    simp only [List.map_map]
    refine List.map_congr_left fun candidate _ => ?_
    simp [candidate.key_eq]
  rw [hkeys left, hkeys right, hnodes]

end Resocks5.Chain
