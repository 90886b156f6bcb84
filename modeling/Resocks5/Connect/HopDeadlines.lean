import Resocks5.Connect.ConnectChain
import Resocks5.Foundation.Timed

namespace Resocks5.Connect

open Resocks5.Foundation
open Resocks5.Net
open Resocks5.Types

/-! The time limits of a dial. -/

/-- How each network step turns out within its time limit, and when each hop begins. -/
structure TimedNetwork where
  acquire : Answer (Except ConnectError Unit)
  reserve : Nat → Bool
  begins : Nat → Instant
  secure : Nat → Answer (Except Bytes Unit)
  tunnel : Nat → Answer (Except ConnectError Unit)

/-- `serverName` is whether a host is a valid server name. -/
structure Dialer where
  connectTimeout : Duration
  handshakeTimeout : Duration
  serverName : Bytes → Bool
  tlsConnector : Bool

def upstreamEndpoint (node : ProxyNode) : Bytes := node.host ++ 0x3A :: render 10 node.port.toNat

def Attempt.timedStep (dial : DialStep) (stage : ChainStage)
    (result : Timed (Except ConnectError Unit)) (next : Timed Attempt) : Timed Attempt := do
  match ← result with
  | .error error => return Attempt.step dial stage (.error error) ⟨[], .ok ()⟩
  | .ok () => return Attempt.step dial stage (.ok ()) (← next)

namespace Dialer

variable (dialer : Dialer) (network : TimedNetwork)

def timedOut (node : ProxyNode) (kind : TimeoutKind) : Except ConnectError Unit :=
  .error (.timeout .handshake kind (upstreamEndpoint node) dialer.handshakeTimeout)

def tlsThenConnect (i : Nat) (node : ProxyNode) : Timed (Except ConnectError Unit) :=
  if dialer.serverName node.host then do
    let _deadline ← Instant.addOrPanic (network.begins i) dialer.handshakeTimeout
    match network.secure i with
    | .ready (.ok ()) => (network.tunnel i).await (dialer.timedOut node .httpsConnectHandshake)
    | .ready (.error text) =>
      return .error (.tls (lit "[HTTPS] TLS handshake to " ++ upstreamEndpoint node ++
        lit ": " ++ text))
    | .elapsed => return dialer.timedOut node .httpsTlsHandshake
    | .abandoned => .error .abandoned
  else return .error (.tls (lit "[HTTPS] invalid server name: " ++ node.host))

def httpsOnStream (node : ProxyNode) : Timed (Except ConnectError Unit) :=
  dialer.tlsThenConnect network 0 node

def httpsHop (i : Nat) (node : ProxyNode) : Timed (Except ConnectError Unit) :=
  dialer.tlsThenConnect network i node

def connectorMissing : ConnectError := .tls (lit "HTTPS upstream requires TLS connector")

def hop (i : Nat) (node : ProxyNode) : Timed (Except ConnectError Unit) :=
  match node.protocol with
  | .socks5 => (network.tunnel i).await (dialer.timedOut node .socks5Handshake)
  | .http => (network.tunnel i).await (dialer.timedOut node .httpHandshake)
  | .https =>
    if dialer.tlsConnector then dialer.httpsHop network i node
    else return .error connectorMissing

def runChainHops (target : Bytes) : Nat → List ProxyNode → Timed Attempt
  | _, [] => return ⟨[], .ok ()⟩
  | i, [node] =>
    Attempt.timedStep (.tunnel i target) .target (dialer.hop network i node)
      (return ⟨[], .ok ()⟩)
  | i, node :: next :: rest =>
    Attempt.timedStep (.tunnel i (HostPort.format next.host next.port)) (.hop i)
      (dialer.hop network i node) (runChainHops target (i + 1) (next :: rest))

def checkTlsSlot (node : ProxyNode) : Except ConnectError Unit :=
  if node.protocol = .https ∧ dialer.tlsConnector = false then .error connectorMissing else .ok ()

def connectProxyOn (node : ProxyNode) : Timed (Except ConnectError Unit) :=
  match dialer.checkTlsSlot node with
  | .error error => return .error error
  | .ok () =>
    match node.protocol with
    | .socks5 => (network.tunnel 0).await (dialer.timedOut node .socks5Handshake)
    | .http => (network.tunnel 0).await (dialer.timedOut node .httpHandshake)
    | .https => dialer.httpsOnStream network node

def reservePermits (next : Timed Attempt) : Nat → List ProxyNode → Timed Attempt
  | _, [] => next
  | i, node :: rest =>
    Attempt.timedStep (.reserve i) (.hop (i - 1))
      (return if network.reserve i then .ok () else .error (.atCapacity node.host node.port))
      (reservePermits next (i + 1) rest)

/-- A socket of the pool; a fresh one is connected under the connect timeout. -/
def acquire (node : ProxyNode) : Timed (Except ConnectError Unit) :=
  network.acquire.await
    (.error (.timeout .connect .tcpConnect (upstreamEndpoint node) dialer.connectTimeout))

def connectChain (chain : ProxyConfig) (targetAddr : Bytes) : Timed Attempt :=
  match HostPort.parse targetAddr with
  | none => return Attempt.fail .target (.invalidTarget targetAddr)
  | some target =>
    match checkTls chain.nodes dialer.tlsConnector with
    | .error error => return Attempt.fail .connect error
    | .ok () =>
      match chain.nodes with
      | [] => return ⟨[], .ok ()⟩
      | [node] =>
        Attempt.timedStep .acquire .connect (dialer.acquire network node) <|
          Attempt.timedStep (.tunnel 0 targetAddr) .target (dialer.connectProxyOn network node)
            (return ⟨[], .ok ()⟩)
      | first :: inner =>
        Attempt.timedStep .acquire .connect (dialer.acquire network first) <|
          reservePermits network
            (dialer.runChainHops network (HostPort.format target.host target.port) 0
              (first :: inner)) 1 inner

/-! Where the deadlines of the hops fit on the clock. -/

/-- A hop whose deadline is computed computes one that the clock can represent. -/
def Fits (i : Nat) (node : ProxyNode) : Prop :=
  node.protocol = .https → dialer.tlsConnector = true → dialer.serverName node.host = true →
    network.begins i + dialer.handshakeTimeout ≤ Instant.max

def Opens (i : Nat) (node : ProxyNode) : Prop :=
  network.tunnel i = .ready (.ok ()) ∧
    (node.protocol = .https → dialer.tlsConnector = true ∧ dialer.serverName node.host = true ∧
      network.secure i = .ready (.ok ()))

def Reaches (nodes : List ProxyNode) (targetAddr : Bytes) (i : Nat) : Prop :=
  (HostPort.parse targetAddr).isSome = true ∧ network.acquire = .ready (.ok ()) ∧
    (∀ k, k + 1 < nodes.length → network.reserve (k + 1) = true) ∧
    ∀ j < i, ∀ node, nodes[j]? = some node → dialer.Opens network j node

end Dialer

theorem Attempt.safe_timedStep_iff {dial : DialStep} {stage : ChainStage}
    {result : Timed (Except ConnectError Unit)} {next : Timed Attempt} :
    (Attempt.timedStep dial stage result next).Safe ↔
      result.Safe ∧ (result = .ok (.ok ()) → next.Safe) := by
  rw [timedStep, Timed.safe_bind_iff]
  refine and_congr_right fun _ => ⟨fun hnext hok => ?_, fun hnext value hvalue => ?_⟩
  · exact (Timed.safe_bind_iff.mp (hnext (.ok ()) hok)).1
  · cases value with
    | error error => exact Timed.safe_pure _
    | ok _ => exact Timed.safe_bind_iff.mpr ⟨hnext hvalue, fun _ _ => Timed.safe_pure _⟩

theorem Attempt.timedStep_eq_ok {dial : DialStep} {stage : ChainStage}
    {result : Timed (Except ConnectError Unit)} {next : Timed Attempt} {attempt : Attempt}
    (hended : Attempt.timedStep dial stage result next = .ok attempt) :
    ∃ outcome rest, result = .ok outcome ∧ (outcome = .ok () → next = .ok rest) ∧
      attempt = Attempt.step dial stage outcome rest := by
  cases result with
  | error halt => cases hended
  | ok outcome =>
    cases outcome with
    | error error => exact ⟨.error error, _, rfl, nofun, (Except.ok.inj hended).symm⟩
    | ok _ =>
      cases next with
      | error halt => cases hended
      | ok rest => exact ⟨.ok (), rest, rfl, fun _ => rfl, (Except.ok.inj hended).symm⟩

theorem Attempt.step_congr {dial : DialStep} {stage : ChainStage}
    {outcome : Except ConnectError Unit} {rest other : Attempt}
    (hrest : outcome = .ok () → rest = other) :
    Attempt.step dial stage outcome rest = Attempt.step dial stage outcome other := by
  cases outcome with
  | error error => rfl
  | ok _ => rw [hrest rfl]

namespace Dialer

variable {dialer : Dialer} {network : TimedNetwork}

theorem tlsThenConnect_safe_iff {i : Nat} {node : ProxyNode} :
    (dialer.tlsThenConnect network i node).Safe ↔
      (dialer.serverName node.host = true →
        network.begins i + dialer.handshakeTimeout ≤ Instant.max) := by
  unfold tlsThenConnect
  split
  · rename_i hname
    rw [Timed.safe_addOrPanic_bind, forall_prop_of_true hname]
    refine and_iff_left ?_
    split
    · exact Timed.safe_await _ _
    · exact Timed.safe_pure _
    · exact Timed.safe_pure _
    · exact Timed.safe_abandoned
  · rename_i hname
    exact iff_of_true (Timed.safe_pure _) fun htrue => absurd htrue hname

theorem hop_safe_iff {i : Nat} {node : ProxyNode} :
    (dialer.hop network i node).Safe ↔ dialer.Fits network i node := by
  unfold hop Fits
  cases hprotocol : node.protocol with
  | socks5 => exact iff_of_true (Timed.safe_await _ _) nofun
  | http => exact iff_of_true (Timed.safe_await _ _) nofun
  | https =>
    rw [forall_prop_of_true rfl]
    dsimp only
    split
    · rename_i hconnector
      rw [forall_prop_of_true hconnector]
      exact tlsThenConnect_safe_iff
    · rename_i hconnector
      exact iff_of_true (Timed.safe_pure _) fun htrue => absurd htrue hconnector

theorem await_eq_ok {answer : Answer (Except ConnectError Unit)} {node : ProxyNode}
    {kind : TimeoutKind} :
    answer.await (dialer.timedOut node kind) = .ok (.ok ()) ↔ answer = .ready (.ok ()) := by
  have hlate : dialer.timedOut node kind ≠ .ok () := fun heq => by cases heq
  exact Answer.await_eq_iff hlate

theorem tlsThenConnect_eq_ok {i : Nat} {node : ProxyNode}
    (hname : dialer.serverName node.host = true)
    (hfits : network.begins i + dialer.handshakeTimeout ≤ Instant.max) :
    dialer.tlsThenConnect network i node = .ok (.ok ()) ↔
      network.tunnel i = .ready (.ok ()) ∧ network.secure i = .ready (.ok ()) := by
  rw [tlsThenConnect, if_pos hname, Timed.addOrPanic_bind hfits]
  split
  · rename_i hsecure
    rw [await_eq_ok]
    exact (and_iff_left hsecure).symm
  · rename_i hsecure
    exact iff_of_false nofun fun hboth => by simp [hsecure] at hboth
  · rename_i hsecure
    exact iff_of_false nofun fun hboth => by simp [hsecure] at hboth
  · rename_i hsecure
    exact iff_of_false nofun fun hboth => by simp [hsecure] at hboth

theorem hop_eq_ok {i : Nat} {node : ProxyNode} (hfits : dialer.Fits network i node) :
    dialer.hop network i node = .ok (.ok ()) ↔ dialer.Opens network i node := by
  unfold hop Opens
  unfold Fits at hfits
  cases hprotocol : node.protocol with
  | socks5 => exact await_eq_ok.trans (and_iff_left fun heq => by cases heq).symm
  | http => exact await_eq_ok.trans (and_iff_left fun heq => by cases heq).symm
  | https =>
    rw [forall_prop_of_true rfl]
    dsimp only
    split
    · rename_i hconnector
      by_cases hname : dialer.serverName node.host = true
      · rw [httpsHop, tlsThenConnect_eq_ok hname (hfits hprotocol hconnector hname)]
        exact and_congr_right fun _ => ⟨fun hsecure => ⟨hconnector, hname, hsecure⟩,
          fun hall => hall.2.2⟩
      · rw [httpsHop, tlsThenConnect, if_neg hname]
        exact iff_of_false nofun fun hall => hname hall.2.2.1
    · rename_i hconnector
      exact iff_of_false nofun fun hall => hconnector hall.2.1

/-- On a socket of its own a node is dialed as it is inside a tunnel. -/
theorem connectProxyOn_eq_hop (node : ProxyNode) :
    dialer.connectProxyOn network node = dialer.hop network 0 node := by
  unfold connectProxyOn checkTlsSlot hop
  cases node.protocol with
  | socks5 => rfl
  | http => rfl
  | https =>
    cases dialer.tlsConnector with
    | false => rfl
    | true => rfl

theorem connectProxyOn_safe_iff {node : ProxyNode} :
    (dialer.connectProxyOn network node).Safe ↔ dialer.Fits network 0 node := by
  rw [connectProxyOn_eq_hop, hop_safe_iff]

theorem runChainHops_safe_cons {target : Bytes} {i : Nat} {node : ProxyNode}
    {rest : List ProxyNode} :
    (dialer.runChainHops network target i (node :: rest)).Safe ↔
      dialer.Fits network i node ∧
        (dialer.Opens network i node → (dialer.runChainHops network target (i + 1) rest).Safe) := by
  cases rest with
  | nil =>
    simp only [runChainHops, Attempt.safe_timedStep_iff, hop_safe_iff]
    exact and_congr_right fun _ => iff_of_true (fun _ => Timed.safe_pure _) fun _ => Timed.safe_pure _
  | cons next rest =>
    rw [runChainHops, Attempt.safe_timedStep_iff, hop_safe_iff]
    exact and_congr_right fun hfits => by rw [hop_eq_ok hfits]

theorem runChainHops_safe_iff {target : Bytes} {i : Nat} {nodes : List ProxyNode} :
    (dialer.runChainHops network target i nodes).Safe ↔
      ∀ k node, nodes[k]? = some node →
        (∀ j < k, ∀ behind, nodes[j]? = some behind → dialer.Opens network (i + j) behind) →
          dialer.Fits network (i + k) node := by
  induction nodes generalizing i with
  | nil => exact iff_of_true (Timed.safe_pure _) fun k node hnode => by simp at hnode
  | cons node rest ih => rw [runChainHops_safe_cons, forall_behind_cons, ih]

theorem reservePermits_safe_iff {next : Timed Attempt} {i : Nat} {nodes : List ProxyNode} :
    (reservePermits network next i nodes).Safe ↔
      ((∀ k < nodes.length, network.reserve (k + i) = true) → next.Safe) := by
  induction nodes generalizing i with
  | nil => exact ⟨fun hnext _ => hnext, fun hall => hall fun k hk => absurd hk (Nat.not_lt_zero k)⟩
  | cons node rest ih =>
    rw [reservePermits, Attempt.safe_timedStep_iff, ih, and_iff_right (Timed.safe_pure _)]
    rw [List.length_cons, Nat.forall_lt_succ_left, and_imp, Nat.zero_add]
    refine imp_congr ?_ (imp_congr_left ?_)
    · cases network.reserve i with
      | false => exact iff_of_false nofun nofun
      | true => exact iff_of_true rfl rfl
    · simp only [Nat.add_assoc, Nat.add_comm 1]

theorem acquire_safe_iff {node : ProxyNode} {next : Timed Attempt} :
    (Attempt.timedStep .acquire .connect (dialer.acquire network node) next).Safe ↔
      (network.acquire = .ready (.ok ()) → next.Safe) := by
  have hlate : (.error (.timeout .connect .tcpConnect (upstreamEndpoint node)
      dialer.connectTimeout) : Except ConnectError Unit) ≠ .ok () := fun heq => by cases heq
  rw [Attempt.safe_timedStep_iff, acquire, Answer.await_eq_iff hlate]
  exact and_iff_right (Timed.safe_await _ _)

theorem checkTls_error {nodes : List ProxyNode} {tlsConnector : Bool} {error : ConnectError}
    (herror : checkTls nodes tlsConnector = .error error) : tlsConnector = false := by
  unfold checkTls at herror
  split at herror
  · rfl
  · cases herror

theorem single_safe_iff {node : ProxyNode} {targetAddr : Bytes}
    (htarget : (HostPort.parse targetAddr).isSome = true) :
    (Attempt.timedStep .acquire .connect (dialer.acquire network node) <|
      Attempt.timedStep (.tunnel 0 targetAddr) .target (dialer.connectProxyOn network node)
        (return ⟨[], .ok ()⟩)).Safe ↔
      ∀ i other, [node][i]? = some other → dialer.Reaches network [node] targetAddr i →
        dialer.Fits network i other := by
  rw [acquire_safe_iff, Attempt.safe_timedStep_iff, connectProxyOn_safe_iff]
  constructor
  · rintro hfits i other hother ⟨-, hacquire, -⟩
    obtain ⟨rfl, rfl⟩ : i = 0 ∧ node = other := by
      cases i with
      | zero => exact ⟨rfl, Option.some.inj hother⟩
      | succ i => simp at hother
    exact (hfits hacquire).1
  · intro hall hacquire
    refine ⟨hall 0 node rfl ⟨htarget, hacquire, fun k hk => ?_, nofun⟩, fun _ => Timed.safe_pure _⟩
    simp at hk

theorem hops_safe_iff {first : ProxyNode} {inner : List ProxyNode} {targetAddr text : Bytes}
    (htarget : (HostPort.parse targetAddr).isSome = true) :
    (Attempt.timedStep .acquire .connect (dialer.acquire network first) <|
      reservePermits network (dialer.runChainHops network text 0 (first :: inner)) 1 inner).Safe ↔
      ∀ i node, (first :: inner)[i]? = some node →
        dialer.Reaches network (first :: inner) targetAddr i → dialer.Fits network i node := by
  rw [acquire_safe_iff, reservePermits_safe_iff, runChainHops_safe_iff]
  simp only [Nat.zero_add]
  constructor
  · rintro hfits i node hnode ⟨-, hacquire, hreserve, hopens⟩
    exact hfits hacquire (fun k hk => hreserve k (Nat.succ_lt_succ hk)) i node hnode hopens
  · intro hall hacquire hreserve i node hnode hopens
    exact hall i node hnode
      ⟨htarget, hacquire, fun k hk => hreserve k (Nat.lt_of_succ_lt_succ hk), hopens⟩

theorem connectChain_safe_iff {chain : ProxyConfig} {targetAddr : Bytes} :
    (dialer.connectChain network chain targetAddr).Safe ↔
      ∀ i node, chain.nodes[i]? = some node →
        dialer.Reaches network chain.nodes targetAddr i → dialer.Fits network i node := by
  unfold connectChain
  generalize chain.nodes = nodes
  cases hparse : HostPort.parse targetAddr with
  | none =>
    refine iff_of_true (Timed.safe_pure _) fun _ _ _ hreaches => ?_
    have hsome := hreaches.1
    rw [hparse] at hsome
    cases hsome
  | some target =>
    cases htls : checkTls nodes dialer.tlsConnector with
    | error error =>
      refine iff_of_true (Timed.safe_pure _) fun _ _ _ _ _ hconnector => ?_
      rw [checkTls_error htls] at hconnector
      cases hconnector
    | ok _ =>
      have hsome : (HostPort.parse targetAddr).isSome = true := by rw [hparse]; rfl
      cases nodes with
      | nil => exact iff_of_true (Timed.safe_pure _) fun _ _ hnode => by simp at hnode
      | cons first inner =>
        cases inner with
        | nil => exact single_safe_iff hsome
        | cons second rest => exact hops_safe_iff hsome

/-! What a timed dial does where it neither panics nor is given up. -/

def untimed (dialer : Dialer) (network : TimedNetwork) (nodes : List ProxyNode) : Network where
  acquire := ((nodes.head?.bind fun node => (dialer.acquire network node).toOption).getD (.ok ()))
  reserve := network.reserve
  tunnel i := ((nodes[i]?.bind fun node => (dialer.hop network i node).toOption).getD (.ok ()))

theorem untimed_tunnel {nodes : List ProxyNode} {i : Nat} {node : ProxyNode}
    {outcome : Except ConnectError Unit} (hnode : nodes[i]? = some node)
    (hhop : dialer.hop network i node = .ok outcome) :
    (dialer.untimed network nodes).tunnel i = outcome := by
  simp [untimed, hnode, hhop, Except.toOption]

theorem untimed_acquire {nodes : List ProxyNode} {node : ProxyNode}
    {outcome : Except ConnectError Unit} (hnode : nodes.head? = some node)
    (hacquire : dialer.acquire network node = .ok outcome) :
    (dialer.untimed network nodes).acquire = outcome := by
  simp [untimed, hnode, hacquire, Except.toOption]

theorem runChainHops_untimed {target : Bytes} (front back : List ProxyNode) {attempt : Attempt}
    (hended : dialer.runChainHops network target front.length back = .ok attempt) :
    attempt = Connect.runChainHops (dialer.untimed network (front ++ back)) target front.length
      back := by
  induction back generalizing front attempt with
  | nil => exact (Except.ok.inj hended).symm
  | cons node rest ih =>
    have hnode : (front ++ node :: rest)[front.length]? = some node := by simp
    cases rest with
    | nil =>
      obtain ⟨outcome, behind, hhop, hbehind, rfl⟩ := Attempt.timedStep_eq_ok hended
      rw [Connect.runChainHops, untimed_tunnel hnode hhop]
      exact Attempt.step_congr fun hok => (Except.ok.inj (hbehind hok)).symm
    | cons next rest =>
      obtain ⟨outcome, behind, hhop, hbehind, rfl⟩ := Attempt.timedStep_eq_ok hended
      rw [Connect.runChainHops, untimed_tunnel hnode hhop]
      refine Attempt.step_congr fun hok => ?_
      have hrest := ih (front ++ [node]) (by simpa using hbehind hok)
      simpa using hrest

theorem reservePermits_untimed {nodes : List ProxyNode} {next : Timed Attempt} {plain : Attempt}
    (hnext : ∀ attempt, next = .ok attempt → attempt = plain) {i : Nat} {inner : List ProxyNode}
    {attempt : Attempt} (hended : reservePermits network next i inner = .ok attempt) :
    attempt = Connect.reservePermits (dialer.untimed network nodes) plain i inner := by
  induction inner generalizing i attempt with
  | nil => exact hnext attempt hended
  | cons node rest ih =>
    obtain ⟨outcome, behind, houtcome, hbehind, rfl⟩ := Attempt.timedStep_eq_ok hended
    obtain rfl := Except.ok.inj houtcome
    exact Attempt.step_congr fun hok => ih (hbehind hok)

/-- A dial that comes to its end is an attempt on the network as it turns out. -/
theorem connectChain_untimed {chain : ProxyConfig} {targetAddr : Bytes} {attempt : Attempt}
    (hended : dialer.connectChain network chain targetAddr = .ok attempt) :
    attempt = Connect.connectChain (dialer.untimed network chain.nodes) dialer.tlsConnector chain
      targetAddr := by
  unfold connectChain at hended
  unfold Connect.connectChain
  have hnonempty : chain.nodes ≠ [] := chain.nodes_ne_nil
  generalize chain.nodes = nodes at hended hnonempty ⊢
  cases hparse : HostPort.parse targetAddr with
  | none =>
    rw [hparse] at hended
    exact (Except.ok.inj hended).symm
  | some target =>
    rw [hparse] at hended
    dsimp only at hended ⊢
    cases htls : checkTls nodes dialer.tlsConnector with
    | error error =>
      rw [htls] at hended
      exact (Except.ok.inj hended).symm
    | ok _ =>
      rw [htls] at hended
      cases nodes with
      | nil => exact absurd rfl hnonempty
      | cons first inner =>
        cases inner with
        | nil =>
          obtain ⟨outcome, behind, hacquire, hbehind, rfl⟩ := Attempt.timedStep_eq_ok hended
          rw [untimed_acquire rfl hacquire]
          refine Attempt.step_congr fun hok => ?_
          obtain ⟨tunneled, last, htunnel, hlast, rfl⟩ := Attempt.timedStep_eq_ok (hbehind hok)
          rw [connectProxyOn_eq_hop] at htunnel
          rw [List.length_singleton, if_pos rfl, untimed_tunnel rfl htunnel]
          exact Attempt.step_congr fun hok => (Except.ok.inj (hlast hok)).symm
        | cons second rest =>
          obtain ⟨outcome, behind, hacquire, hbehind, rfl⟩ := Attempt.timedStep_eq_ok hended
          have hlong : (first :: second :: rest).length ≠ 1 := by simp
          rw [untimed_acquire rfl hacquire, if_neg hlong]
          exact Attempt.step_congr fun hok =>
            reservePermits_untimed (fun _ => runChainHops_untimed [] _) (hbehind hok)

end Dialer

end Resocks5.Connect
