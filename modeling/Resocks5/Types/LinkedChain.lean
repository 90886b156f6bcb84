import Resocks5.Foundation.Buckets
import Resocks5.Types.ProxyConfig

namespace Resocks5.Types.Linked

open Resocks5.Foundation

/-! Chains as their nodes link them, and the keys that are compared along the links. -/

/-- A proxy without its gate. `is_gate` is derived from the level, and tells no upstreams apart. -/
structure Fields where
  node : ProxyNode
  isGate : Bool
  deriving DecidableEq, Repr

/-- A `gate` of `None`, or of `Some`. -/
inductive ProxyConfig where
  | direct (fields : Fields)
  | behind (fields : Fields) (gate : ProxyConfig)
  deriving DecidableEq, Repr

abbrev Identity := ProxyProtocol × Bytes × UInt16 × Option Bytes × Option Bytes × UInt8

def identityOf (node : ProxyNode) : Identity :=
  (node.protocol, node.host, node.port, node.user, node.password, node.gateLevel)

namespace ProxyConfig

def fields : ProxyConfig → Fields
  | direct fields => fields
  | behind fields _ => fields

def gate : ProxyConfig → Option ProxyConfig
  | direct _ => none
  | behind _ gate => some gate

def identity (config : ProxyConfig) : Identity := identityOf config.fields.node

/-- `linked.gate = chain` -/
def relink (node : ProxyConfig) : Option ProxyConfig → ProxyConfig
  | none => direct node.fields
  | some gate => behind node.fields gate

def chain (nodes : List ProxyConfig) : Option ProxyConfig :=
  nodes.foldl (fun chain node => some (node.relink chain)) none

def links : ProxyConfig → List ProxyConfig
  | direct fields => [direct fields]
  | behind fields gate => behind fields gate :: gate.links

def nodes (config : ProxyConfig) : List ProxyConfig := config.links.reverse

def chainLen : ProxyConfig → Nat
  | direct _ => 1
  | behind _ gate => gate.chainLen + 1

def outermost : ProxyConfig → ProxyConfig
  | direct fields => direct fields
  | behind _ gate => gate.outermost

end ProxyConfig

structure ChainKey where
  exit : ProxyConfig
  deriving DecidableEq, Repr

def singletonKey (proxy : ProxyConfig) : ChainKey := ⟨proxy.relink none⟩

/-- What a hasher is fed: a length, or the identity of a node. -/
structure Hasher (H : Type) where
  start : H
  usize : H → Nat → H
  identity : H → Identity → H
  finish : H → UInt64

namespace ChainKey

def sameLinks : ProxyConfig → ProxyConfig → Bool
  | .direct left, .direct right => sameNode left.node right.node
  | .behind left leftGate, .behind right rightGate =>
    sameNode left.node right.node && sameLinks leftGate rightGate
  | _, _ => false

def eq (left right : ChainKey) : Bool := sameLinks left.exit right.exit

variable {H : Type}

def hash (hasher : Hasher H) (key : ChainKey) (state : H) : H :=
  let nodes := key.exit.nodes
  nodes.foldl (fun state node => hasher.identity state node.identity)
    (hasher.usize state nodes.length)

def hashOne (hasher : Hasher H) (key : ChainKey) : UInt64 :=
  hasher.finish (key.hash hasher hasher.start)

end ChainKey

abbrev KeySet {H : Type} (hasher : Hasher H) := Buckets (ChainKey.hashOne hasher)

namespace KeySet

variable {H : Type} {hasher : Hasher H}

def ofKeys (hasher : Hasher H) (keys : List ChainKey) : KeySet hasher :=
  (Buckets.empty _).addAll ChainKey.eq keys

def contains (set : KeySet hasher) (key : ChainKey) : Bool :=
  (set.find? ChainKey.eq key).isSome

end KeySet

/-! The nested form and the flat one. -/

theorem identityOf_injective : Function.Injective identityOf := by
  rintro ⟨_, _, _, _, _, _⟩ ⟨_, _, _, _, _, _⟩ heq
  simpa [identityOf] using heq

namespace ProxyConfig

/-- Without `is_gate`, and with the gates in a list. -/
def flat : ProxyConfig → Types.ProxyConfig
  | direct fields => ⟨fields.node, []⟩
  | behind fields gate => ⟨fields.node, gate.flat.node :: gate.flat.gate⟩

theorem identity_iff {left right : ProxyConfig} :
    left.identity = right.identity ↔ left.fields.node = right.fields.node :=
  identityOf_injective.eq_iff

theorem map_identity (configs : List ProxyConfig) :
    configs.map identity = (configs.map (·.fields.node)).map identityOf :=
  List.map_map.symm

@[simp] theorem fields_relink (node : ProxyConfig) (gate : Option ProxyConfig) :
    (node.relink gate).fields = node.fields := by
  cases gate <;> rfl

@[simp] theorem gate_relink (node : ProxyConfig) (gate : Option ProxyConfig) :
    (node.relink gate).gate = gate := by
  cases gate <;> rfl

theorem nodes_relink (node : ProxyConfig) (gate : Option ProxyConfig) :
    (node.relink gate).nodes = (gate.map nodes).getD [] ++ [node.relink gate] := by
  cases gate with
  | none => rfl
  | some gate => exact List.reverse_cons

theorem chain_concat (front : List ProxyConfig) (last : ProxyConfig) :
    chain (front ++ [last]) = some (last.relink (chain front)) := by
  rw [chain, List.foldl_append]
  rfl

theorem nodes_chain (inputs : List ProxyConfig) :
    (((chain inputs).map nodes).getD []).map fields = inputs.map fields := by
  induction inputs using List.reverseRecOn with
  | nil => rfl
  | append_singleton front last induction =>
      rw [chain_concat, Option.map_some, Option.getD_some, nodes_relink, List.map_append,
        induction, List.map_append, List.map_singleton, List.map_singleton, fields_relink]

theorem chainLen_eq (config : ProxyConfig) : config.chainLen = config.nodes.length := by
  rw [nodes, List.length_reverse]
  induction config with
  | direct fields => rfl
  | behind fields gate induction => rw [chainLen, induction, links, List.length_cons]

theorem outermost_direct (config : ProxyConfig) : config.outermost.gate = none := by
  induction config with
  | direct fields => rfl
  | behind fields gate induction => exact induction

theorem head_nodes (config : ProxyConfig) : config.nodes.head? = some config.outermost := by
  rw [nodes, List.head?_reverse]
  induction config with
  | direct fields => rfl
  | behind fields gate induction =>
      rw [links, List.getLast?_cons, induction]
      rfl

theorem outermost_chain (inputs : List ProxyConfig) :
    (chain inputs).map (fun config => config.outermost.fields) = inputs.head?.map fields := by
  have hnodes := congrArg List.head? (nodes_chain inputs)
  rw [List.head?_map, List.head?_map] at hnodes
  rw [← hnodes]
  cases chain inputs with
  | none => rfl
  | some config =>
      rw [Option.map_some, Option.map_some, Option.getD_some, head_nodes, Option.map_some]

@[simp] theorem flat_node (config : ProxyConfig) : config.flat.node = config.fields.node := by
  cases config <;> rfl

theorem flat_nodes (config : ProxyConfig) :
    config.flat.nodes = config.nodes.map (·.fields.node) := by
  rw [nodes, Types.ProxyConfig.nodes, List.map_reverse]
  induction config with
  | direct fields => rfl
  | behind fields gate induction =>
      rw [List.reverse_inj] at induction ⊢
      rw [links, List.map_cons, ← induction]
      rfl

theorem flat_chain (inputs : List ProxyConfig) :
    (chain inputs).map flat = Types.ProxyConfig.chain (inputs.map flat) := by
  induction inputs using List.reverseRecOn with
  | nil => rfl
  | append_singleton front last induction =>
      rw [chain_concat, List.map_append, Types.ProxyConfig.chain, List.foldl_append,
        ← Types.ProxyConfig.chain, ← induction]
      cases chain front with
      | none => simp [Types.ProxyConfig.link, relink, flat]
      | some gate => simp [Types.ProxyConfig.link, relink, flat]

end ProxyConfig

namespace ChainKey

def flat (key : ChainKey) : Types.ChainKey := ⟨key.exit.flat⟩

theorem sameLinks_iff {left right : ProxyConfig} :
    sameLinks left right = true ↔ left.nodes.map (·.identity) = right.nodes.map (·.identity) := by
  rw [ProxyConfig.nodes, ProxyConfig.nodes, List.map_reverse, List.map_reverse, List.reverse_inj]
  induction left generalizing right with
  | direct fields =>
      cases right with
      | direct other =>
          simp [sameLinks, ProxyConfig.links, ProxyConfig.identity_iff, ProxyConfig.fields]
      | behind other gate => cases gate <;> simp [sameLinks, ProxyConfig.links]
  | behind fields gate induction =>
      cases right with
      | direct other => cases gate <;> simp [sameLinks, ProxyConfig.links]
      | behind other otherGate =>
          simp [sameLinks, ProxyConfig.links, ProxyConfig.identity_iff, ProxyConfig.fields,
            induction]

theorem eq_iff {left right : ChainKey} :
    left.eq right = true ↔
      left.exit.nodes.map (·.identity) = right.exit.nodes.map (·.identity) :=
  sameLinks_iff

theorem eq_flat (left right : ChainKey) : left.eq right = (left.flat == right.flat) := by
  rw [Bool.eq_iff_iff, eq_iff, Types.ChainKey.eq_iff, flat, flat, Types.ChainKey.mk.injEq,
    ← Types.ProxyConfig.nodes_injective.eq_iff, ProxyConfig.flat_nodes, ProxyConfig.flat_nodes,
    ProxyConfig.map_identity, ProxyConfig.map_identity]
  exact (List.map_injective_iff.mpr identityOf_injective).eq_iff

@[simp] theorem eq_singleton {left right : ProxyConfig} :
    (singletonKey left).eq (singletonKey right) = true ↔ left.identity = right.identity := by
  rw [eq, singletonKey, singletonKey, ProxyConfig.relink, ProxyConfig.relink, sameLinks,
    sameNode_iff, ProxyConfig.identity_iff]

theorem flat_singleton (proxy : ProxyConfig) :
    (singletonKey proxy).flat = Types.singletonKey proxy.flat := by
  cases proxy <;> rfl

theorem eq_equivalence : Equivalence fun left right : ChainKey => left.eq right = true where
  refl _ := eq_iff.mpr rfl
  symm heq := eq_iff.mpr (eq_iff.mp heq).symm
  trans heq hnext := eq_iff.mpr ((eq_iff.mp heq).trans (eq_iff.mp hnext))

theorem hash_nodes {H : Type} (hasher : Hasher H) (key : ChainKey) (state : H) :
    key.hash hasher state = (key.exit.nodes.map (·.identity)).foldl hasher.identity
      (hasher.usize state (key.exit.nodes.map (·.identity)).length) := by
  rw [List.foldl_map, List.length_map]
  rfl

theorem hash_eq {H : Type} (hasher : Hasher H) (state : H) {left right : ChainKey}
    (heq : left.eq right = true) : left.hash hasher state = right.hash hasher state := by
  rw [hash_nodes, hash_nodes, eq_iff.mp heq]

theorem eq_respects {H : Type} (hasher : Hasher H) :
    Buckets.Respects ChainKey.eq (hashOne hasher) where
  refl := eq_equivalence.refl
  symm _ _ := eq_equivalence.symm
  trans _ _ _ := eq_equivalence.trans
  hash _ _ heq := congrArg hasher.finish (hash_eq hasher hasher.start heq)

end ChainKey

namespace KeySet

variable {H : Type} {hasher : Hasher H}

theorem contains_ofKeys (keys : List ChainKey) (key : ChainKey) :
    (ofKeys hasher keys).contains key = keys.any key.eq := by
  have hcollects := Buckets.collects_ofList (ChainKey.eq_respects hasher) keys
  rw [← hcollects.covers, Bool.eq_iff_iff, contains, Option.isSome_iff_exists, List.any_eq_true]
  constructor
  · rintro ⟨i, hfind⟩
    obtain ⟨slot, hslot, hsame⟩ := Buckets.find?_some hfind
    exact ⟨slot, List.mem_of_getElem? hslot, hsame⟩
  · rintro ⟨slot, hslot, hsame⟩
    obtain ⟨i, hi⟩ := List.mem_iff_getElem?.mp hslot
    exact ⟨i, (Buckets.find?_eq_some (ChainKey.eq_respects hasher) hcollects.distinct).mpr
      ⟨slot, hi, hsame⟩⟩

theorem contains_flat (keys : List ChainKey) (key : ChainKey) :
    (ofKeys hasher keys).contains key = (keys.map ChainKey.flat).contains key.flat := by
  rw [contains_ofKeys, List.contains_eq_any_beq, List.any_map]
  exact congrArg keys.any (funext fun other => ChainKey.eq_flat key other)

end KeySet

/-- Chains that are built, compared, hashed and looked up. -/
theorem chain_key_laws :
    (∀ inputs : List ProxyConfig,
      (((ProxyConfig.chain inputs).map ProxyConfig.nodes).getD []).map ProxyConfig.fields =
          inputs.map ProxyConfig.fields ∧
        (ProxyConfig.chain inputs).map (fun config => config.outermost.fields) =
          inputs.head?.map ProxyConfig.fields) ∧
    (∀ config : ProxyConfig, config.nodes.head? = some config.outermost ∧
      config.outermost.gate = none ∧ config.chainLen = config.nodes.length) ∧
    (∀ left right : ChainKey, left.eq right = true ↔
      List.Forall₂ (fun node other => node.identity = other.identity) left.exit.nodes
        right.exit.nodes) ∧
    (Equivalence fun left right : ChainKey => left.eq right = true) ∧
    (∀ {H : Type} (hasher : Hasher H) (state : H) (left right : ChainKey),
      left.eq right = true → left.hash hasher state = right.hash hasher state) ∧
    ∀ {H : Type} (hasher : Hasher H),
      (∀ (keys : List ChainKey) (key : ChainKey),
        (KeySet.ofKeys hasher keys).contains key = true ↔ ∃ other ∈ keys,
          List.Forall₂ (fun node other => node.identity = other.identity) key.exit.nodes
            other.exit.nodes) ∧
      ∀ (marked : List ProxyConfig) (proxy : ProxyConfig),
        (KeySet.ofKeys hasher (marked.map singletonKey)).contains (singletonKey proxy) = true ↔
          ∃ other ∈ marked, proxy.identity = other.identity := by
  have hpairwise : ∀ left right : ChainKey, left.eq right = true ↔
      List.Forall₂ (fun node other => node.identity = other.identity) left.exit.nodes
        right.exit.nodes := by
    intro left right
    rw [ChainKey.eq_iff, ← List.forall₂_eq_eq_eq, List.forall₂_map_left_iff,
      List.forall₂_map_right_iff]
  refine ⟨fun inputs => ⟨ProxyConfig.nodes_chain inputs, ProxyConfig.outermost_chain inputs⟩,
    fun config => ⟨config.head_nodes, config.outermost_direct, config.chainLen_eq⟩, hpairwise,
    ChainKey.eq_equivalence, fun hasher state _ _ => ChainKey.hash_eq hasher state,
    fun hasher => ⟨fun keys key => ?_, fun marked proxy => ?_⟩⟩
  · rw [KeySet.contains_ofKeys, List.any_eq_true]
    exact exists_congr fun other => and_congr_right fun _ => hpairwise key other
  · rw [KeySet.contains_ofKeys, List.any_map, List.any_eq_true]
    exact exists_congr fun other => and_congr_right fun _ => ChainKey.eq_singleton

def flaggedChain (isGate : Bool) : ProxyConfig :=
  .behind ⟨⟨.http, lit "exit", 8080, none, none, 0⟩, false⟩
    (.direct ⟨⟨.socks5, lit "gate", 1080, none, none, 1⟩, isGate⟩)

def portHasher : Hasher UInt64 where
  start := 0
  usize state n := state * 31 + n.toUInt64
  identity state node := state * 31 + node.2.2.1.toUInt64
  finish := id

theorem chain_key_laws_flagged :
    (ChainKey.mk (flaggedChain true)).hash portHasher 7 =
      (ChainKey.mk (flaggedChain false)).hash portHasher 7 :=
  chain_key_laws.2.2.2.2.1 portHasher 7 ⟨flaggedChain true⟩ ⟨flaggedChain false⟩ (by decide)

end Resocks5.Types.Linked
