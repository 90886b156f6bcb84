import Resocks5.Net.HostPort
import Resocks5.Types.ConnectError

namespace Resocks5.Connect

open Resocks5.Foundation
open Resocks5.Net
open Resocks5.Types

/-- How each network step of one chain attempt turns out, by the index of its node. -/
structure Network where
  acquire : Except ConnectError Unit
  reserve : Nat → Bool
  tunnel : Nat → Except ConnectError Unit

inductive DialStep where
  | acquire
  | reserve (i : Nat)
  | tunnel (i : Nat) (target : Bytes)
  deriving DecidableEq, Repr

/-- The steps taken, and how the attempt ended. -/
structure Attempt where
  steps : List DialStep
  result : Except ChainError Unit

namespace Attempt

def fail (stage : ChainStage) (error : ConnectError) : Attempt :=
  ⟨[], .error ⟨stage, error⟩⟩

/-- Go on with `next` after a step that went well. -/
def step (dial : DialStep) (stage : ChainStage) (result : Except ConnectError Unit)
    (next : Attempt) : Attempt :=
  match result with
  | .error error => ⟨[dial], .error ⟨stage, error⟩⟩
  | .ok () => ⟨dial :: next.steps, next.result⟩

end Attempt

/-- Fail before any socket is opened if an HTTPS node cannot be served. -/
def checkTls (nodes : List ProxyNode) (tlsConnector : Bool) : Except ConnectError Unit :=
  match nodes.find? (·.protocol == .https), tlsConnector with
  | some node, false =>
    .error (.tls (lit "HTTPS upstream " ++ node.host ++ lit " requires TLS connector"))
  | _, _ => .ok ()

def runChainHops (network : Network) (target : Bytes) : Nat → List ProxyNode → Attempt
  | _, [] => ⟨[], .ok ()⟩
  | i, [_] => Attempt.step (.tunnel i target) .target (network.tunnel i) ⟨[], .ok ()⟩
  | i, _ :: next :: rest =>
    Attempt.step (.tunnel i (HostPort.format next.host next.port)) (.hop i) (network.tunnel i)
      (runChainHops network target (i + 1) (next :: rest))

/-- A permit for every inner node, before any tunnel handshake begins. -/
def reservePermits (network : Network) (next : Attempt) : Nat → List ProxyNode → Attempt
  | _, [] => next
  | i, node :: rest =>
    Attempt.step (.reserve i) (.hop (i - 1))
      (if network.reserve i then .ok () else .error (.atCapacity node.host node.port))
      (reservePermits network next (i + 1) rest)

def connectChain (network : Network) (tlsConnector : Bool) (chain : ProxyConfig)
    (targetAddr : Bytes) : Attempt :=
  match HostPort.parse targetAddr with
  | none => Attempt.fail .target (.invalidTarget targetAddr)
  | some target =>
    let nodes := chain.nodes
    match checkTls nodes tlsConnector with
    | .error error => Attempt.fail .connect error
    | .ok () =>
      Attempt.step .acquire .connect network.acquire <|
        if nodes.length = 1 then
          Attempt.step (.tunnel 0 targetAddr) .target (network.tunnel 0) ⟨[], .ok ()⟩
        else
          reservePermits network
            (runChainHops network (HostPort.format target.host target.port) 0 nodes) 1
            nodes.tail

/-! The steps of a chain in their order, and the label of a failure at each. -/

def DialStep.stage (nodes : List ProxyNode) : DialStep → ChainStage
  | .acquire => .connect
  | .reserve i => .hop (i - 1)
  | .tunnel i _ => if i + 1 = nodes.length then .target else .hop i

def Network.outcome (network : Network) (nodes : List ProxyNode) :
    DialStep → Except ConnectError Unit
  | .acquire => network.acquire
  | .reserve i =>
    match network.reserve i, nodes[i]? with
    | false, some node => .error (.atCapacity node.host node.port)
    | _, _ => .ok ()
  | .tunnel i _ => network.tunnel i

/-- Every node is asked for the next one, and the last one for `target`. -/
def hopRoute (target : Bytes) : Nat → List ProxyNode → List DialStep
  | _, [] => []
  | i, [_] => [.tunnel i target]
  | i, _ :: next :: rest =>
    .tunnel i (HostPort.format next.host next.port) :: hopRoute target (i + 1) (next :: rest)

/-- A lone node is asked for the target as it was written. -/
def targetText (nodes : List ProxyNode) (targetAddr : Bytes) (target : HostPort) : Bytes :=
  if nodes.length = 1 then targetAddr else HostPort.format target.host target.port

def route (nodes : List ProxyNode) (text : Bytes) : List DialStep :=
  .acquire :: ((List.range' 1 (nodes.length - 1)).map .reserve ++ hopRoute text 0 nodes)

namespace Attempt

/-- Either every step went well and was taken, or the first one that failed was the last one
taken, and it is the one that the error labels. -/
structure Walks (network : Network) (nodes : List ProxyNode) (dials : List DialStep)
    (attempt : Attempt) : Prop where
  done : (∀ dial ∈ dials, network.outcome nodes dial = .ok ()) → attempt = ⟨dials, .ok ()⟩
  failed : ∀ before dial after cause, dials = before ++ dial :: after →
    (∀ earlier ∈ before, network.outcome nodes earlier = .ok ()) →
    network.outcome nodes dial = .error cause →
    attempt = ⟨before ++ [dial], .error ⟨dial.stage nodes, cause⟩⟩

variable {network : Network} {nodes : List ProxyNode}

theorem walks_nil : Walks network nodes [] ⟨[], .ok ()⟩ where
  done _ := rfl
  failed before dial after cause hsplit := by
    cases List.append_ne_nil_of_right_ne_nil before (List.cons_ne_nil dial after) hsplit.symm

theorem walks_cons {dial : DialStep} {dials : List DialStep} {stage : ChainStage}
    {result : Except ConnectError Unit} {next : Attempt}
    (hresult : network.outcome nodes dial = result) (hstage : dial.stage nodes = stage)
    (hnext : Walks network nodes dials next) :
    Walks network nodes (dial :: dials) (step dial stage result next) where
  done hall := by
    obtain ⟨hdial, hrest⟩ := List.forall_mem_cons.mp hall
    rw [← hresult, hdial, hnext.done hrest]
    rfl
  failed before last after cause hsplit hbefore hlast := by
    cases before with
    | nil =>
      obtain ⟨rfl, rfl⟩ := List.cons.inj hsplit
      rw [← hresult, hlast, ← hstage]
      rfl
    | cons first before =>
      obtain ⟨rfl, hrest⟩ := List.cons.inj hsplit
      obtain ⟨hdial, hearlier⟩ := List.forall_mem_cons.mp hbefore
      rw [← hresult, hdial, hnext.failed before last after cause hrest hearlier hlast]
      rfl

end Attempt

variable {network : Network}

theorem runChainHops_walks (text : Bytes) (front back : List ProxyNode) :
    (runChainHops network text front.length back).Walks network (front ++ back)
      (hopRoute text front.length back) := by
  induction back generalizing front with
  | nil => exact Attempt.walks_nil
  | cons node rest ih =>
    cases rest with
    | nil =>
      refine Attempt.walks_cons rfl ?_ Attempt.walks_nil
      simp [DialStep.stage]
    | cons next rest =>
      have hnext := ih (front ++ [node])
      rw [List.length_append, List.length_singleton, List.append_assoc] at hnext
      refine Attempt.walks_cons rfl ?_ hnext
      simp [DialStep.stage]

theorem reservePermits_walks {next : Attempt} {dials : List DialStep}
    (front back : List ProxyNode) (hnext : next.Walks network (front ++ back) dials) :
    (reservePermits network next front.length back).Walks network (front ++ back)
      ((List.range' front.length back.length).map .reserve ++ dials) := by
  induction back generalizing front with
  | nil => exact hnext
  | cons node rest ih =>
    rw [List.length_cons, List.range'_succ, List.map_cons, List.cons_append]
    have hrest := ih (front ++ [node]) (by rwa [List.append_assoc])
    rw [List.length_append, List.length_singleton, List.append_assoc] at hrest
    refine Attempt.walks_cons ?_ rfl hrest
    rw [Network.outcome, show (front ++ node :: rest)[front.length]? = some node by simp]
    cases network.reserve front.length <;> rfl

/-- Past the preflight, a chain walks its route. -/
theorem connectChain_walks {tlsConnector : Bool} {chain : ProxyConfig} {targetAddr : Bytes}
    {target : HostPort} (htarget : HostPort.parse targetAddr = some target)
    (htls : checkTls chain.nodes tlsConnector = .ok ()) :
    (connectChain network tlsConnector chain targetAddr).Walks network chain.nodes
      (route chain.nodes (targetText chain.nodes targetAddr target)) := by
  simp only [connectChain, htarget, htls]
  refine Attempt.walks_cons rfl rfl ?_
  have hhops (text : Bytes) : (runChainHops network text 0 chain.nodes).Walks network chain.nodes
      (hopRoute text 0 chain.nodes) := runChainHops_walks text [] chain.nodes
  obtain ⟨first, rest, hnodes⟩ : ∃ first rest, chain.nodes = first :: rest :=
    List.exists_cons_of_ne_nil chain.nodes_ne_nil
  rw [targetText]
  split
  · rename_i hone
    rw [hnodes, List.length_cons, Nat.add_eq_right, List.length_eq_zero_iff] at hone
    subst hone
    rw [hnodes] at hhops ⊢
    exact hhops targetAddr
  · rw [hnodes] at hhops ⊢
    exact reservePermits_walks [first] rest (hhops _)

end Resocks5.Connect
