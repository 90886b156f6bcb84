import Resocks5.Chain.Gates

namespace Resocks5.Chain

open Resocks5.Foundation
open Resocks5.Rating
open Resocks5.Session
open Resocks5.Types

/-! Chains that are remembered as a linked configuration, and found again. -/

section

variable {ρ : Type u}

def Knows (rotator : Rotator ρ) (node : ProxyNode) : Prop :=
  ∃ proxy ∈ rotator.proxies, proxy.node = node

def KnownGate (rotators : Rotators ρ) (level : GateLevel) (node : ProxyNode) : Prop :=
  node.gateLevel = level.rank ∧ Knows (rotators level.rotator) node

/-- Gates of all levels in their order, and an exit of one of the rotators. -/
def Remembers (gates : GateLevels) (rotators : Rotators ρ) (exits : List RotatorId)
    (nodes : List ProxyNode) : Prop :=
  ∃ front exit, nodes = front ++ [exit] ∧
    List.Forall₂ (KnownGate rotators) gates.levels front ∧ ∃ r ∈ exits, Knows (rotators r) exit

/-- The rotator of each rank holds gates of that rank only. -/
def GateLevels.Ranked (gates : GateLevels) (rotators : Rotators ρ) : Prop :=
  ∀ level ∈ gates.levels, ∀ proxy ∈ (rotators level.rotator).proxies,
    proxy.node.gateLevel = level.rank

def Constructed (rotator : Rotator ρ) : Prop :=
  ∃ upstreams, rotator.proxies = Rotator.unique [] upstreams

theorem Constructed.nodup {rotator : Rotator ρ} (hbuilt : Constructed rotator) :
    (rotator.proxies.map (·.node)).Nodup := by
  obtain ⟨upstreams, hproxies⟩ := hbuilt
  rw [hproxies]
  exact Rotator.unique_nodup [] upstreams List.nodup_nil

namespace GateLevels

theorem findNode_isSome {rotator : Rotator ρ} {node : ProxyNode} :
    (findNode rotator node).isSome = true ↔ Knows rotator node := by
  rw [findNode, List.find?_isSome, Knows]
  simp only [sameNode_iff]

theorem findNode_known {rotator : Rotator ρ} {node : ProxyNode} {proxy : ProxyConfig}
    (hfind : findNode rotator node = some proxy) :
    proxy ∈ rotator.proxies ∧ proxy.node = node := by
  unfold findNode at hfind
  have hsame := List.find?_some hfind
  exact ⟨List.mem_of_find?_eq_some hfind, sameNode_iff.mp hsame⟩

theorem findNode_self {rotator : Rotator ρ} (hnodup : (rotator.proxies.map (·.node)).Nodup)
    {proxy : ProxyConfig} (hmem : proxy ∈ rotator.proxies) :
    findNode rotator proxy.node = some proxy := by
  cases hfind : findNode rotator proxy.node with
  | none =>
      have hsome := findNode_isSome.mpr ⟨proxy, hmem, rfl⟩
      rw [hfind] at hsome
      cases hsome
  | some found =>
      obtain ⟨hfound, hnode⟩ := findNode_known hfind
      exact congrArg some (List.inj_on_of_nodup_map hnodup hfound hmem hnode)

theorem resolveGates_isSome {rotators : Rotators ρ} {levels : List GateLevel}
    {nodes : List ProxyNode} (hlength : nodes.length = levels.length) :
    (resolveGates rotators levels nodes).isSome = true ↔
      List.Forall₂ (KnownGate rotators) levels nodes := by
  induction levels generalizing nodes with
  | nil =>
      obtain rfl := List.length_eq_zero_iff.mp hlength
      exact ⟨fun _ => .nil, fun _ => rfl⟩
  | cons level levels ih =>
      cases nodes with
      | nil => cases hlength
      | cons node nodes =>
          rw [resolveGates, List.forall₂_cons, ← ih (Nat.succ.inj hlength), KnownGate,
            ← findNode_isSome]
          split
          · rename_i hrank
            simp [hrank]
          · rename_i hrank
            cases hfind : findNode (rotators level.rotator) node with
            | none => simp
            | some proxy => simpa using fun _ => not_not.mp hrank

theorem resolveExit_isSome {rotators : Rotators ρ} {node : ProxyNode} {exits : List RotatorId} :
    (resolveExit rotators node exits).isSome = true ↔ ∃ r ∈ exits, Knows (rotators r) node := by
  induction exits with
  | nil => simp [resolveExit]
  | cons r exits ih =>
      rw [resolveExit]
      cases hfind : findNode (rotators r) node with
      | some proxy =>
          have hknown := findNode_isSome.mp (hfind ▸ rfl : (findNode (rotators r) node).isSome = true)
          exact ⟨fun _ => ⟨r, List.mem_cons_self, hknown⟩, fun _ => rfl⟩
      | none =>
          have hunknown : ¬ Knows (rotators r) node := by
            rw [← findNode_isSome, hfind]
            simp
          simp [ih, hunknown]

theorem resolveGates_front {rotators : Rotators ρ} {levels : List GateLevel}
    {nodes : List ProxyNode} (hlength : nodes.length = levels.length) (more : List ProxyNode) :
    resolveGates rotators levels (nodes ++ more) = resolveGates rotators levels nodes := by
  induction levels generalizing nodes with
  | nil =>
      obtain rfl := List.length_eq_zero_iff.mp hlength
      cases more <;> rfl
  | cons level levels ih =>
      cases nodes with
      | nil => cases hlength
      | cons node nodes =>
          rw [List.cons_append, resolveGates, resolveGates, ih (Nat.succ.inj hlength)]

theorem resolve_concat {gates : GateLevels} {rotators : Rotators ρ} {exits : List RotatorId}
    {config : ProxyConfig} {front : List ProxyNode} {exit : ProxyNode}
    (hnodes : config.nodes = front ++ [exit]) (hlength : front.length = gates.levels.length) :
    gates.resolve rotators exits config =
      (resolveGates rotators gates.levels front).bind fun hops =>
        (resolveExit rotators exit exits).bind fun hop => ChainPick.ofHops (hops ++ [hop]) := by
  rw [resolve, hnodes, if_neg (by simp [hlength]), resolveGates_front hlength, List.getLast?_concat]
  rfl

theorem nodes_concat (config : ProxyConfig) :
    ∃ front exit, config.nodes = front ++ [exit] :=
  ⟨config.gate.reverse, config.node, by simp [ProxyConfig.nodes]⟩

theorem resolve_isSome (gates : GateLevels) (rotators : Rotators ρ) (exits : List RotatorId)
    (config : ProxyConfig) :
    (gates.resolve rotators exits config).isSome = true ↔
      Remembers gates rotators exits config.nodes := by
  obtain ⟨front, exit, hnodes⟩ := nodes_concat config
  have hremembers : Remembers gates rotators exits config.nodes ↔
      List.Forall₂ (KnownGate rotators) gates.levels front ∧
        ∃ r ∈ exits, Knows (rotators r) exit := by
    constructor
    · rintro ⟨front', exit', hsplit, hfront, hexit⟩
      obtain ⟨rfl, hlast⟩ := List.append_inj' (hnodes.symm.trans hsplit) rfl
      obtain rfl : exit = exit' := by simpa using hlast
      exact ⟨hfront, hexit⟩
    · rintro ⟨hfront, hexit⟩
      exact ⟨front, exit, hnodes, hfront, hexit⟩
  rw [hremembers]
  by_cases hlength : front.length = gates.levels.length
  · rw [resolve_concat hnodes hlength, ← resolveGates_isSome hlength, ← resolveExit_isSome]
    cases resolveGates rotators gates.levels front with
    | none => simp
    | some hops =>
        cases resolveExit rotators exit exits with
        | none => simp
        | some hop =>
            have hpick : (ChainPick.ofHops (hops ++ [hop])).isSome = true :=
              ChainPick.ofHops_isSome (by simp)
            simpa using hpick
  · have hnone : gates.resolve rotators exits config = none := by
      rw [resolve, hnodes, if_pos (by simpa using hlength)]
    rw [hnone]
    constructor
    · intro hsome
      cases hsome
    · rintro ⟨hfront, -⟩
      exact absurd hfront.length_eq.symm hlength

end GateLevels

/-! Picks of a plan. -/

def Hop.Owned (rotators : Rotators ρ) (hop : Hop) : Prop :=
  hop.proxy ∈ (rotators hop.rotator).proxies

def Offered (gates : GateLevels) (rotators : Rotators ρ) (exits : List RotatorId)
    (hops : List Hop) : Prop :=
  ∃ front exit, hops = front ++ [exit] ∧
    List.Forall₂ (fun level hop => hop.rotator = level.rotator ∧ hop.Owned rotators)
      gates.levels front ∧
    exit.rotator ∈ exits ∧ exit.Owned rotators

theorem Offered.of_proxies {gates : GateLevels} {rotators later : Rotators ρ}
    {exits : List RotatorId} {hops : List Hop}
    (hlater : ∀ r, (later r).proxies = (rotators r).proxies)
    (hoffered : Offered gates rotators exits hops) : Offered gates later exits hops := by
  have howned : ∀ hop : Hop, hop.Owned rotators → hop.Owned later := by
    intro hop hop'
    rw [Hop.Owned, hlater]
    exact hop'
  obtain ⟨front, last, hhops, hfront, hexits, hlast⟩ := hoffered
  exact ⟨front, last, hhops, hfront.imp fun level hop hhop => ⟨hhop.1, howned hop hhop.2⟩, hexits,
    howned last hlast⟩

theorem ChainPick.ofHops_hops (pick : ChainPick) : ChainPick.ofHops pick.hops = some pick := by
  obtain ⟨hops, key, hkeyed⟩ := pick
  unfold ChainPick.ofHops
  split
  · rename_i hnone
    rw [hkeyed] at hnone
    cases hnone
  · rename_i exit hexit
    obtain rfl : key.exit = exit := Option.some.inj (hkeyed.symm.trans hexit)
    rfl

theorem ChainPick.config_nodes (pick : ChainPick) :
    pick.config.nodes = pick.hops.map (·.proxy.node) := by
  have hnodes := ProxyConfig.nodes_chain (pick.hops.map (·.proxy))
  rw [pick.keyed, Option.map_some, Option.getD_some, List.map_map] at hnodes
  rw [pick.config_eq]
  exact hnodes

theorem GateLevels.resolveGates_owned {rotators : Rotators ρ}
    (hnodup : ∀ r, ((rotators r).proxies.map (·.node)).Nodup) {levels : List GateLevel}
    (hranked : ∀ level ∈ levels, ∀ proxy ∈ (rotators level.rotator).proxies,
      proxy.node.gateLevel = level.rank) {front : List Hop}
    (hfront : List.Forall₂ (fun level hop => hop.rotator = level.rotator ∧ hop.Owned rotators)
      levels front) :
    resolveGates rotators levels (front.map (·.proxy.node)) = some front := by
  induction hfront with
  | nil => rfl
  | @cons level hop levels front hhop _ ih =>
      obtain ⟨hrotator, howned⟩ := hhop
      rw [Hop.Owned, hrotator] at howned
      have hrank := hranked level List.mem_cons_self hop.proxy howned
      rw [List.map_cons, resolveGates, if_neg (not_not.mpr hrank),
        findNode_self (hnodup level.rotator) howned, Option.bind_some,
        ih fun other hother => hranked other (List.mem_cons_of_mem level hother), Option.map_some,
        ← hrotator]

theorem GateLevels.resolve_offered {gates : GateLevels} {rotators : Rotators ρ}
    {exits : List RotatorId} (hranked : gates.Ranked rotators)
    (hnodup : ∀ r, ((rotators r).proxies.map (·.node)).Nodup) {pick : ChainPick}
    (hoffered : Offered gates rotators exits pick.hops) :
    ∃ exit, pick.exit? = some exit ∧ exit.rotator ∈ exits ∧
      gates.resolve rotators [exit.rotator] pick.config = some pick := by
  obtain ⟨front, exit, hhops, hfront, hexits, hexit⟩ := hoffered
  refine ⟨exit, ?_, hexits, ?_⟩
  · rw [ChainPick.exit?, hhops, List.getLast?_concat]
  · have hnodes : pick.config.nodes = front.map (·.proxy.node) ++ [exit.proxy.node] := by
      rw [pick.config_nodes, hhops, List.map_append, List.map_singleton]
    have hfound : resolveExit rotators exit.proxy.node [exit.rotator] = some exit := by
      rw [resolveExit, findNode_self (hnodup exit.rotator) hexit]
    rw [resolve_concat hnodes (by rw [List.length_map, hfront.length_eq]),
      resolveGates_owned hnodup hranked hfront, hfound, Option.bind_some, Option.bind_some,
      ← hhops]
    exact pick.ofHops_hops

/-! What a plan yields. -/

theorem mem_deduplicate {seen : List ChainKey} {hops : List Hop} {candidate : Candidate}
    (hmem : candidate ∈ deduplicate seen hops) : candidate.hop ∈ hops := by
  induction hops generalizing seen with
  | nil => cases hmem
  | cons hop hops ih =>
      rw [deduplicate] at hmem
      split at hmem
      · exact List.mem_cons_of_mem hop (ih hmem)
      · obtain rfl | hrest := List.mem_cons.mp hmem
        · exact List.mem_cons_self
        · exact List.mem_cons_of_mem hop (ih hrest)

theorem mapM_map {α β : Type} {f : α → Option α} {g : α → β} {items items' : List α}
    (hkeeps : ∀ item item', f item = some item' → g item' = g item)
    (hitems : items.mapM f = some items') : items'.map g = items.map g := by
  induction items generalizing items' with
  | nil =>
      cases hitems
      rfl
  | cons item items ih =>
      rw [List.mapM_cons] at hitems
      obtain ⟨first, hfirst, hrest⟩ := Option.bind_eq_some_iff.mp hitems
      obtain ⟨rest, hmap, heq⟩ := Option.bind_eq_some_iff.mp hrest
      cases heq
      rw [List.map_cons, List.map_cons, hkeeps item first hfirst, ih hmap]

theorem Layer.markDead_candidates {key : ChainKey} {layer layer' : Layer}
    (hmark : layer.markDead key = some layer') : layer'.candidates = layer.candidates := by
  unfold Layer.markDead at hmark
  split at hmark
  · split at hmark
    · cases hmark
    · cases hmark
      rfl
  · cases hmark
    rfl

namespace ChainPlan

theorem combinations_of_candidates {plan plan' : ChainPlan}
    (hsame : plan'.layers.map (·.candidates) = plan.layers.map (·.candidates)) :
    plan'.combinations = plan.combinations := by
  rw [combinations, combinations, hsame]

theorem candidates_of_stock {layers layers' : List Layer}
    (hstock : layers'.map Layer.stock = layers.map Layer.stock) :
    layers'.map (·.candidates) = layers.map (·.candidates) := by
  simpa [Layer.stock, Function.comp_def] using congrArg (List.map Prod.fst) hstock

theorem mem_layers_current {layers : List Layer} {shown : List Candidate}
    (hshown : layers.mapM Layer.current? = some shown) :
    List.Forall₂ (fun item items => item ∈ items) shown (layers.map (·.candidates)) := by
  induction layers generalizing shown with
  | nil =>
      cases hshown
      exact .nil
  | cons layer layers ih =>
      rw [List.mapM_cons] at hshown
      obtain ⟨first, hfirst, hrest⟩ := Option.bind_eq_some_iff.mp hshown
      obtain ⟨rest, hmap, heq⟩ := Option.bind_eq_some_iff.mp hrest
      cases heq
      exact .cons (List.mem_of_getElem? hfirst) (ih hmap)

theorem nextPick_combination {fuel : Nat} {plan plan' : ChainPlan} {pick : ChainPick}
    (hnext : plan.nextPick fuel = some (some pick, plan')) : pick ∈ plan.combinations := by
  induction fuel generalizing plan with
  | zero => cases hnext
  | succ fuel ih =>
      have hadvance : plan.advance.combinations = plan.combinations :=
        combinations_of_candidates (candidates_of_stock (Layer.advance_stock plan.layers))
      rw [nextPick] at hnext
      split at hnext
      · cases hnext
      · split at hnext
        · cases hnext
        · rename_i index _
          have hjump : (plan.jumpSubtree index).combinations = plan.combinations :=
            combinations_of_candidates
              (candidates_of_stock (Layer.jumpSubtree_stock index plan.layers))
          exact hjump ▸ ih hnext
        · split at hnext
          · cases hnext
          · rename_i found hcurrent
            split at hnext
            · exact hadvance ▸ ih hnext
            · obtain ⟨rfl, -⟩ := Prod.mk.inj (Option.some.inj hnext) |>.imp Option.some.inj id
              obtain ⟨shown, hshown, hpick⟩ := Option.bind_eq_some_iff.mp hcurrent
              exact List.mem_filterMap.mpr
                ⟨shown, Odometer.mem_product.mpr (mem_layers_current hshown), hpick⟩

theorem call_combination {fuel : Nat} {plan plan' : ChainPlan} {request : PlanCall}
    {event : PlanEvent} (hcall : plan.call fuel request = some (event, plan')) :
    plan'.combinations = plan.combinations ∧
      ∀ pick, event = .yielded pick → pick ∈ plan.combinations := by
  cases request with
  | nextPick =>
      obtain ⟨⟨pick, after⟩, hnext, heq⟩ := Option.map_eq_some_iff.mp hcall
      have hsame := combinations_of_candidates (candidates_of_stock (nextPick_frame hnext).1)
      cases pick with
      | none =>
          cases heq
          exact ⟨hsame, fun _ hyield => by cases hyield⟩
      | some pick =>
          cases heq
          refine ⟨hsame, fun other hyield => ?_⟩
          cases hyield
          exact nextPick_combination hnext
  | markDead proxy =>
      obtain ⟨after, hmark, heq⟩ := Option.map_eq_some_iff.mp hcall
      cases heq
      refine ⟨?_, fun _ hyield => by cases hyield⟩
      unfold markDead at hmark
      dsimp only at hmark
      split at hmark
      · cases hmark
        rfl
      · obtain ⟨layers, hlayers, rfl⟩ := Option.map_eq_some_iff.mp hmark
        exact combinations_of_candidates
          (mapM_map (fun _ _ => Layer.markDead_candidates) hlayers)
  | exclude key =>
      cases hcall
      exact ⟨rfl, fun _ hyield => by cases hyield⟩

theorem session_combination {fuel : Nat} {plan plan' : ChainPlan} {calls : List PlanCall}
    {events : List PlanEvent} (hsession : plan.session fuel calls = some (events, plan'))
    {pick : ChainPick} (hyield : .yielded pick ∈ events) : pick ∈ plan.combinations := by
  induction calls generalizing plan events with
  | nil =>
      cases hsession
      cases hyield
  | cons request calls ih =>
      rw [session] at hsession
      split at hsession
      · cases hsession
      · rename_i event after hcall
        obtain ⟨⟨rest, last⟩, hrest, heq⟩ := Option.map_eq_some_iff.mp hsession
        cases heq
        obtain ⟨hsame, hpick⟩ := call_combination hcall
        obtain hfirst | hlater := List.mem_cons.mp hyield
        · exact hpick pick hfirst.symm
        · exact hsame ▸ ih hrest hlater

end ChainPlan

def PickOrder.Owned (rotators : Rotators ρ) (order : PickOrder) : Prop :=
  ∀ proxy ∈ order.2, proxy ∈ (rotators order.1).proxies

theorem PickOrder.Owned.hop {rotators : Rotators ρ} {order : PickOrder}
    (howned : order.Owned rotators) {hop : Hop} (hmem : hop ∈ order.hops) :
    hop.rotator = order.1 ∧ hop.Owned rotators := by
  obtain ⟨proxy, hproxy, rfl⟩ := List.mem_map.mp hmem
  exact ⟨rfl, howned proxy hproxy⟩

section

variable {arith : FloatArith} {rng : Rng ρ}

theorem pickOrders_owned {clock : Nat → Instant} {i : Nat} {rs : List RotatorId}
    {rotators rotators' : Rotators ρ} {orders : List PickOrder}
    (horders : pickOrders arith rng clock i rs rotators = some (orders, rotators')) :
    orders.map Prod.fst = rs ∧ ∀ order ∈ orders, order.Owned rotators := by
  induction rs generalizing i rotators orders with
  | nil =>
      cases horders
      exact ⟨rfl, fun _ horder => by cases horder⟩
  | cons r rest ih =>
      rw [pickOrders] at horders
      obtain ⟨order, horder, hmap⟩ := Option.bind_eq_some_iff.mp horders
      obtain ⟨⟨tail, after⟩, htail, heq⟩ := Option.map_eq_some_iff.mp hmap
      cases heq
      obtain ⟨hids, howned⟩ := ih htail
      have huse : RotatorsUse arith rng rotators
          (Function.update rotators r ((rotators r).pickOrder arith rng (clock i)).2) :=
        RotatorsUse.update (Rotator.pickOrder_uses arith rng _ (clock i))
      refine ⟨by rw [List.map_cons, hids], fun other hother => ?_⟩
      obtain rfl | hlater := List.mem_cons.mp hother
      · obtain ⟨indices, -, hpicked⟩ := Option.bind_eq_some_iff.mp horder
        exact mapM_getElem_mem hpicked
      · intro proxy hproxy
        rw [← (huse other.1).proxies]
        exact howned other hlater proxy hproxy

theorem gates_offered {rotators : Rotators ρ} {levels : List GateLevel} {orders : List PickOrder}
    (hids : orders.map Prod.fst = levels.map (·.rotator))
    (howned : ∀ order ∈ orders, order.Owned rotators) {front : List Candidate}
    (hfront : List.Forall₂ (fun item items => item ∈ items) front
      (orders.map fun order => (Layer.new order.hops).candidates)) :
    List.Forall₂ (fun level hop => hop.rotator = level.rotator ∧ hop.Owned rotators) levels
      (front.map (·.hop)) := by
  have hpairs := (List.forall₂_and_left orders front).mpr
    ⟨howned, (List.forall₂_map_right_iff.mp hfront).flip⟩
  have hhops : List.Forall₂ (fun r candidate =>
      candidate.hop.rotator = r ∧ candidate.hop.Owned rotators) (orders.map Prod.fst) front := by
    refine List.forall₂_map_left_iff.mpr (hpairs.imp ?_)
    rintro order candidate ⟨horder, hmem⟩
    exact horder.hop (mem_deduplicate hmem)
  rw [hids, List.forall₂_map_left_iff] at hhops
  exact List.forall₂_map_right_iff.mpr hhops

theorem planFor_offered {clock : Nat → Instant} {gates : GateLevels} {exits : List RotatorId}
    {rotators rotators' : Rotators ρ} {plan : ChainPlan}
    (hplan : planFor arith rng clock gates exits rotators = some (plan, rotators'))
    {pick : ChainPick} (hpick : pick ∈ plan.combinations) :
    Offered gates rotators exits pick.hops := by
  obtain ⟨⟨orders, after⟩, horders, heq⟩ := Option.map_eq_some_iff.mp hplan
  cases heq
  obtain ⟨hids, howned⟩ := pickOrders_owned horders
  obtain ⟨combination, hcombination, hkeyed⟩ := List.mem_filterMap.mp hpick
  rw [pickOf_hops hkeyed]
  have hforall := Odometer.mem_product.mp hcombination
  have hlists : (ChainPlan.new (orders.take gates.levels.length)
      (orders.drop gates.levels.length)).layers.map (·.candidates) =
      (orders.take gates.levels.length).map (fun order => (Layer.new order.hops).candidates) ++
        [(Layer.new ((orders.drop gates.levels.length).flatMap PickOrder.hops)).candidates] := by
    rw [ChainPlan.new, List.map_append, List.map_map, List.map_singleton]
    rfl
  rw [hlists] at hforall
  have hfront := List.forall₂_take_append _ _ _ hforall
  have hlast := List.forall₂_drop_append _ _ _ hforall
  obtain ⟨exit, tail, hexit, htail, hdrop⟩ := List.forall₂_cons_right_iff.mp hlast
  obtain rfl := List.forall₂_nil_right_iff.mp htail
  have hlevels : (orders.take gates.levels.length).map Prod.fst =
      gates.levels.map (·.rotator) := by
    rw [List.map_take, hids, List.take_left' (by simp)]
  have htake : (orders.take gates.levels.length).length = gates.levels.length := by
    simpa using congrArg List.length hlevels
  rw [List.length_map, htake] at hfront hdrop
  refine ⟨(combination.take gates.levels.length).map (·.hop), exit.hop, ?_,
    gates_offered hlevels (fun order horder => howned order (List.mem_of_mem_take horder)) hfront,
    ?_⟩
  · rw [← List.map_singleton (f := fun candidate : Candidate => candidate.hop), ← hdrop,
      ← List.map_append, List.take_append_drop]
  · obtain ⟨order, horder, hhop⟩ := List.mem_flatMap.mp (mem_deduplicate hexit)
    obtain ⟨hrotator, hexitOwned⟩ := (howned order (List.mem_of_mem_drop horder)).hop hhop
    refine ⟨?_, hexitOwned⟩
    rw [hrotator]
    have hmem := List.mem_map_of_mem (f := Prod.fst) horder
    rw [List.map_drop, hids, List.drop_left' (by simp)] at hmem
    exact hmem

/-- A chain that a plan yields is found again as it was, at any later time; and what is found is a
chain of known upstreams. -/
theorem chain_remembered (arith : FloatArith) (rng : Rng ρ) (clock : Nat → Instant)
    (gates : GateLevels) (rotators : Rotators ρ) :
    (gates.Ranked rotators → (∀ r, Constructed (rotators r)) →
      ∀ exits plan rotators',
        planFor arith rng clock gates exits rotators = some (plan, rotators') →
        ∀ fuel calls events plan', plan.session fuel calls = some (events, plan') →
          ∀ pick, .yielded pick ∈ events →
            ∃ exit, pick.exit? = some exit ∧ exit.rotator ∈ exits ∧
              ∀ later : Rotators ρ, (∀ r, (later r).proxies = (rotators r).proxies) →
                gates.resolve later [exit.rotator] pick.config = some pick) ∧
      (gates.levels.Pairwise fun outer inner => inner.rank ≤ outer.rank) ∧
      ∀ exits config, (gates.resolve rotators exits config).isSome = true ↔
        Remembers gates rotators exits config.nodes := by
  refine ⟨?_, gates.sorted, fun exits config => gates.resolve_isSome rotators exits config⟩
  intro hranked hbuilt exits plan rotators' hplan fuel calls events plan' hsession pick hyield
  have hoffered := planFor_offered hplan (plan.session_combination hsession hyield)
  obtain ⟨exit, hexit, hmem, -⟩ :=
    GateLevels.resolve_offered hranked (fun r => (hbuilt r).nodup) hoffered
  refine ⟨exit, hexit, hmem, fun later hlater => ?_⟩
  have hranked' : gates.Ranked later := fun level hlevel proxy hproxy =>
    hranked level hlevel proxy (hlater level.rotator ▸ hproxy)
  have hnodup' : ∀ r, ((later r).proxies.map (·.node)).Nodup := fun r => by
    rw [hlater r]
    exact (hbuilt r).nodup
  obtain ⟨exit', hexit', -, hresolve⟩ :=
    GateLevels.resolve_offered hranked' hnodup' (hoffered.of_proxies hlater)
  obtain rfl : exit' = exit := Option.some.inj (hexit'.symm.trans hexit)
  exact hresolve

end

end

def gatedRotators : Rotators UInt64 := fun r =>
  let proxies := if r = 0 then [sampleProxy 1 1] else [sampleProxy 3 0]
  ⟨proxies, Ratings.fresh proxies.length ⟨.finite 30, .finite 0, .finite 8, .finite 1, .finite 1⟩
    ⟨1, 30, 600, 25, one_le_u32Max⟩ 0 7⟩

theorem chain_remembered_gated :
    ∃ pick : ChainPick, pick.hops = [⟨0, sampleProxy 1 1⟩, ⟨1, sampleProxy 3 0⟩] ∧
      (GateLevels.new [⟨1, 0⟩]).resolve gatedRotators [1] pick.config = some pick := by
  have hyields : ((planFor Ratings.exactArith smallRng (fun _ => 0) (GateLevels.new [⟨1, 0⟩]) [1]
      gatedRotators).bind fun planned => (planned.1.session 2 [.nextPick]).bind fun ended =>
        (yields ended.1)[0]?.map (·.hops)) =
          some [⟨0, sampleProxy 1 1⟩, ⟨1, sampleProxy 3 0⟩] := by
    decide +kernel
  obtain ⟨⟨plan, rotators'⟩, hplan, hyields⟩ := Option.bind_eq_some_iff.mp hyields
  obtain ⟨⟨events, plan'⟩, hsession, hyields⟩ := Option.bind_eq_some_iff.mp hyields
  obtain ⟨pick, hpick, hhops⟩ := Option.map_eq_some_iff.mp hyields
  have hyield : .yielded pick ∈ events := by
    obtain ⟨event, hevent, hsome⟩ := List.mem_filterMap.mp (List.mem_of_getElem? hpick)
    cases event with
    | yielded other =>
        cases hsome
        exact hevent
    | _ => cases hsome
  have hbuilt : ∀ r, Constructed (gatedRotators r) := fun r =>
    ⟨if r = 0 then [sampleProxy 1 1] else [sampleProxy 3 0], by
      unfold gatedRotators
      split <;> rfl⟩
  obtain ⟨exit, hexit, -, hresolve⟩ := (chain_remembered Ratings.exactArith smallRng (fun _ => 0)
    (GateLevels.new [⟨1, 0⟩]) gatedRotators).1
      (fun level hlevel proxy hproxy => by
        obtain rfl := List.mem_singleton.mp hlevel
        obtain rfl := List.mem_singleton.mp hproxy
        rfl) hbuilt [1] plan rotators' hplan 2 [.nextPick] events plan' hsession pick hyield
  rw [ChainPick.exit?, hhops] at hexit
  cases hexit
  exact ⟨pick, hhops, hresolve gatedRotators fun _ => rfl⟩

end Resocks5.Chain
