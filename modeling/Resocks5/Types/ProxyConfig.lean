import Resocks5.Foundation.Bytes
import Mathlib.Data.List.Induction

namespace Resocks5.Types

open Resocks5.Foundation

inductive ProxyProtocol where
  | socks5
  | http
  | https
  deriving DecidableEq, Repr

/-- One node of a chain: the fields by which the program tells upstreams apart. -/
structure ProxyNode where
  protocol : ProxyProtocol
  host : Bytes
  port : UInt16
  user : Option Bytes
  password : Option Bytes
  gateLevel : UInt8
  deriving DecidableEq, Repr

/-- A node with its `gate` links followed to their end, the nearest gate first. -/
structure ProxyConfig where
  node : ProxyNode
  gate : List ProxyNode
  deriving DecidableEq, Repr

namespace ProxyConfig

/-- Outermost node first, exit last. -/
def nodes (config : ProxyConfig) : List ProxyNode :=
  (config.node :: config.gate).reverse

/-- Link one more node behind the chain built so far. -/
def link (chain : Option ProxyConfig) (node : ProxyConfig) : Option ProxyConfig :=
  match chain with
  | none => some ⟨node.node, []⟩
  | some outer => some ⟨node.node, outer.node :: outer.gate⟩

/-- From outermost node to exit; the gates the inputs carry are discarded. -/
def chain (nodes : List ProxyConfig) : Option ProxyConfig :=
  nodes.foldl link none

end ProxyConfig

/-- `same_node` and `same_upstream`: the gate links are no part of an identity. -/
def sameNode (a b : ProxyNode) : Bool :=
  a.protocol == b.protocol && a.host == b.host && a.port == b.port &&
    a.user == b.user && a.password == b.password && a.gateLevel == b.gateLevel

structure ChainKey where
  exit : ProxyConfig
  deriving DecidableEq, Repr

namespace ChainKey

def sameLinks : List ProxyNode → List ProxyNode → Bool
  | left :: leftGate, right :: rightGate =>
    sameNode left right && sameLinks leftGate rightGate
  | [], [] => true
  | _, _ => false

def eq (left right : ChainKey) : Bool :=
  sameLinks (left.exit.node :: left.exit.gate) (right.exit.node :: right.exit.gate)

instance : BEq ChainKey := ⟨eq⟩

end ChainKey

/-- The key of a proxy on its own, its gate cleared. -/
def singletonKey (proxy : ProxyConfig) : ChainKey :=
  ⟨{ proxy with gate := [] }⟩

@[simp] theorem sameNode_iff {a b : ProxyNode} : sameNode a b = true ↔ a = b := by
  cases a
  cases b
  simp [sameNode, and_assoc]

theorem ChainKey.sameLinks_iff {left right : List ProxyNode} :
    sameLinks left right = true ↔ left = right := by
  induction left generalizing right with
  | nil => cases right <;> simp [sameLinks]
  | cons node gate ih =>
      cases right with
      | nil => simp [sameLinks]
      | cons other otherGate => simp [sameLinks, ih]

theorem ChainKey.eq_iff {left right : ChainKey} : (left == right) = true ↔ left = right := by
  obtain ⟨⟨node, gate⟩⟩ := left
  obtain ⟨⟨other, otherGate⟩⟩ := right
  simp [BEq.beq, ChainKey.eq, ChainKey.sameLinks_iff]

instance : LawfulBEq ChainKey where
  eq_of_beq := ChainKey.eq_iff.mp
  rfl := ChainKey.eq_iff.mpr rfl

@[simp] theorem singletonKey_inj {a b : ProxyConfig} :
    singletonKey a = singletonKey b ↔ a.node = b.node := by
  simp [singletonKey]

namespace ProxyConfig

theorem nodes_ne_nil (config : ProxyConfig) : config.nodes ≠ [] := by simp [nodes]

@[simp] theorem nodes_link (chain : Option ProxyConfig) (node : ProxyConfig) :
    ((link chain node).map nodes).getD [] =
      (chain.map nodes).getD [] ++ [node.node] := by
  cases chain <;> simp [link, nodes]

theorem nodes_chain (inputs : List ProxyConfig) :
    ((chain inputs).map nodes).getD [] = inputs.map (·.node) := by
  induction inputs using List.reverseRecOn with
  | nil => rfl
  | append_singleton front last ih =>
      rw [chain, List.foldl_append, List.foldl_cons, List.foldl_nil, nodes_link]
      rw [chain] at ih
      rw [ih, List.map_append, List.map_singleton]

theorem chain_isSome (inputs : List ProxyConfig) (hne : inputs ≠ []) :
    (chain inputs).isSome = true := by
  cases hchain : chain inputs with
  | some _ => rfl
  | none =>
      have hnodes := nodes_chain inputs
      rw [hchain] at hnodes
      exact absurd (List.map_eq_nil_iff.mp hnodes.symm) hne

theorem nodes_injective : Function.Injective nodes := by
  rintro ⟨node, gate⟩ ⟨other, otherGate⟩ heq
  simpa [nodes, and_comm] using heq

theorem chain_eq_iff {left right : List ProxyConfig} :
    chain left = chain right ↔ left.map (·.node) = right.map (·.node) := by
  constructor
  · intro heq
    rw [← nodes_chain left, ← nodes_chain right, heq]
  · intro heq
    rw [← nodes_chain left, ← nodes_chain right] at heq
    cases hleft : chain left with
    | none =>
        cases hright : chain right with
        | none => rfl
        | some right => simp [hleft, hright, nodes] at heq
    | some left =>
        cases hright : chain right with
        | none => simp [hleft, hright, nodes] at heq
        | some right =>
            simp only [hleft, hright, Option.map_some, Option.getD_some] at heq
            rw [nodes_injective heq]

end ProxyConfig

end Resocks5.Types
