import Resocks5.Connect.ConnectResponse
import Resocks5.Connect.HopDeadlines
import Resocks5.Net.ProxyLine

namespace Resocks5.Connect

open Resocks5.Foundation
open Resocks5.Net
open Resocks5.Types

/-! A chain that is dialed without a pool, under one limit for the whole call. -/

namespace ChainStage

def encode : ChainStage → UInt64
  | .connect => 0
  | .hop n => n.toUInt64 + 1
  | .target => 0xFFFFFFFFFFFFFFFF

def decode (raw : UInt64) : ChainStage :=
  if raw = 0 then .connect
  else if raw = 0xFFFFFFFFFFFFFFFF then .target
  else .hop (raw - 1).toNat

theorem decode_hop {n : Nat} (hfits : n + 1 < 0xFFFFFFFFFFFFFFFF) :
    decode (encode (.hop n)) = .hop n := by
  have hnext : (n.toUInt64 + 1).toNat = n + 1 := by
    rw [UInt64.toNat_add, UInt64.toNat_one, Nat.toUInt64, UInt64.toNat_ofNat']
    omega
  have hconnect : n.toUInt64 + 1 ≠ 0 := by
    intro hzero
    rw [hzero, UInt64.toNat_zero] at hnext
    exact absurd hnext.symm n.succ_ne_zero
  have htarget : n.toUInt64 + 1 ≠ 0xFFFFFFFFFFFFFFFF := by
    intro hlast
    rw [hlast] at hnext
    exact absurd hnext.symm (Nat.ne_of_lt hfits)
  rw [encode, decode, if_neg hconnect, if_neg htarget, UInt64.add_sub_cancel, Nat.toUInt64,
    UInt64.toNat_ofNat', Nat.mod_eq_of_lt (by omega)]

end ChainStage

/-- The steps begun, the stage stored last, and how the call ended if nobody gave it up. -/
structure ChainRun where
  steps : List DialStep
  progress : UInt64
  outcome : Timed (Except ChainError Unit)

/-- Take a step while `progress` is stored; `label` blames a stage for its failure. -/
def ChainRun.step (progress : UInt64) (dial : DialStep) (label : ConnectError → ChainStage)
    (result : Timed (Except ConnectError Unit)) (next : ChainRun) : ChainRun :=
  match result with
  | .error halt => ⟨[dial], progress, .error halt⟩
  | .ok (.error error) => ⟨[dial], progress, .ok (.error ⟨label error, error⟩)⟩
  | .ok (.ok ()) => ⟨dial :: next.steps, next.progress, next.outcome⟩

def ChainRun.refuse (stage : ChainStage) (error : ConnectError) : ChainRun :=
  ⟨[], ChainStage.encode .connect, .ok (.error ⟨stage, error⟩)⟩

def isConnectStage : ConnectError → Bool
  | .timeout stage _ _ _ => stage == .connect
  | .io stage _ => stage == .connect
  | _ => false

def singleStage (error : ConnectError) : ChainStage :=
  if isConnectStage error then .connect else .target

namespace Dialer

variable (dialer : Dialer) (network : TimedNetwork)

/-- A plain TCP connect; whatever goes wrong in it is an error of the connect stage. -/
def tcpDial (node : ProxyNode) : Timed (Except ConnectError Unit) :=
  match network.acquire with
  | .ready (.ok ()) => return .ok ()
  | .ready (.error _) => return .error (.io .connect (some (upstreamEndpoint node)))
  | .elapsed =>
    return .error (.timeout .connect .tcpConnect (upstreamEndpoint node) dialer.connectTimeout)
  | .abandoned => .error .abandoned

def handshakeOnTcp (node : ProxyNode) : Timed (Except ConnectError Unit) :=
  match node.protocol with
  | .socks5 => (network.tunnel 0).await (dialer.timedOut node .socks5Handshake)
  | .http => (network.tunnel 0).await (dialer.timedOut node .httpHandshake)
  | .https => dialer.httpsOnStream network node

/-- `onTcp` is what the caller stores once the socket is connected. -/
def dialInner (node : ProxyNode) (host : Bytes) (port : UInt16) (onTcp : UInt64) : ChainRun :=
  match dialer.checkTlsSlot node with
  | .error error => .refuse (singleStage error) error
  | .ok () =>
    .step (ChainStage.encode .connect) .acquire singleStage (dialer.tcpDial network node) <|
      .step onTcp (.tunnel 0 (HostPort.format (stripBrackets host) port)) singleStage
        (dialer.handshakeOnTcp network node) ⟨[], onTcp, .ok (.ok ())⟩

def chainHops (target : Bytes) : UInt64 → Nat → List ProxyNode → ChainRun
  | progress, _, [] => ⟨[], progress, .ok (.ok ())⟩
  | _, i, [node] =>
    .step (ChainStage.encode .target) (.tunnel i target) (fun _ => .target)
      (dialer.hop network i node) ⟨[], ChainStage.encode .target, .ok (.ok ())⟩
  | _, i, node :: next :: rest =>
    .step (ChainStage.encode (.hop i)) (.tunnel i (HostPort.format next.host next.port))
      (fun _ => .hop i) (dialer.hop network i node)
      (chainHops target (ChainStage.encode (.hop i)) (i + 1) (next :: rest))

def chainInner (proxy : ProxyConfig) (host : Bytes) (port : UInt16) : ChainRun :=
  if proxy.gate.isEmpty then
    dialer.dialInner network proxy.node host port (ChainStage.encode .target)
  else
    match checkTls proxy.nodes dialer.tlsConnector with
    | .error error => .refuse .connect error
    | .ok () =>
      match proxy.nodes with
      | [] => ⟨[], ChainStage.encode .connect, .ok (.ok ())⟩
      | outermost :: inner =>
        .step (ChainStage.encode .connect) .acquire (fun _ => .connect)
          (dialer.tcpDial network outermost) <|
          dialer.chainHops network (HostPort.format (stripBrackets host) port)
            (ChainStage.encode .connect) 0 (outermost :: inner)

def chainOver (proxy : ProxyConfig) (host : Bytes) (port : UInt16) : ChainRun :=
  match checkTls proxy.nodes dialer.tlsConnector with
  | .error error => .refuse .connect error
  | .ok () =>
    dialer.chainHops network (HostPort.format (stripBrackets host) port)
      (ChainStage.encode .connect) 0 proxy.nodes

end Dialer

def totalTimeout (proxy : ProxyConfig) (total : Duration) : ConnectError :=
  .timeout .total .total (upstreamEndpoint proxy.node) total

def totalTimeoutError (proxy : ProxyConfig) (progress : UInt64) (total : Duration) : ChainError :=
  ⟨ChainStage.decode progress, totalTimeout proxy total⟩

/-- A run is given up when the limit for the whole of it expires. -/
def withTotalTimeout (proxy : ProxyConfig) (totalTimeout : Option Duration) (run : ChainRun)
    (failIfElapsed : Bool) : ChainRun :=
  match totalTimeout with
  | none => run
  | some total =>
    if failIfElapsed && total == 0 then
      let progress := ChainStage.encode .connect
      ⟨[], progress, .ok (.error (totalTimeoutError proxy progress total))⟩
    else
      match run.outcome with
      | .error .abandoned =>
        { run with outcome := .ok (.error (totalTimeoutError proxy run.progress total)) }
      | _ => run

namespace Dialer

variable (dialer : Dialer) (network : TimedNetwork) (totalTimeout : Option Duration)

def dialChain (proxy : ProxyConfig) (host : Bytes) (port : UInt16) : ChainRun :=
  withTotalTimeout proxy totalTimeout (dialer.chainInner network proxy host port) false

def dialChainOver (proxy : ProxyConfig) (host : Bytes) (port : UInt16) : ChainRun :=
  withTotalTimeout proxy totalTimeout (dialer.chainOver network proxy host port) true

end Dialer

/-! Only a TCP connect fails in the connect stage. -/

section

open Prog

theorem fail_spares {α : Type} {error : ConnectError} (hlater : isConnectStage error = false) :
    (fail error : ClientProg α).Never (isConnectStage · = true) := by
  intro hconnect
  rw [hlater] at hconnect
  cases hconnect

theorem negotiate_spares (method : UInt8) :
    (negotiate method).Never (isConnectStage · = true) := by
  simp only [negotiate, writeAll, readExact, write_bind, exact_bind, ok_bind]
  intro response _
  dsimp only
  split
  · exact fail_spares rfl
  · split
    · exact fail_spares rfl
    · trivial

theorem sendCredentials_spares (username password : Bytes) :
    (sendCredentials username password).Never (isConnectStage · = true) := by
  rw [sendCredentials]
  split
  · exact fail_spares rfl
  · simp only [writeAll, readExact, write_bind, exact_bind, ok_bind]
    intro response _
    dsimp only
    split
    · exact fail_spares rfl
    · split
      · exact fail_spares rfl
      · trivial

theorem readBound_spares (atyp : UInt8) : (readBound atyp).Never (isConnectStage · = true) := by
  unfold readBound
  split
  · exact fun _ _ => trivial
  · split
    · simp only [readU8, exact_bind, ok_bind]
      intro len _
      dsimp only
      split
      · exact fail_spares rfl
      · exact fun _ _ => trivial
    · split
      · exact fun _ _ => trivial
      · exact fail_spares rfl

theorem readReply_spares : readReply.Never (isConnectStage · = true) := by
  simp only [readReply, readExact, exact_bind, ok_bind]
  intro header _
  dsimp only
  split
  · exact fail_spares rfl
  · split
    · exact fail_spares rfl
    · split
      · exact fail_spares rfl
      · exact readBound_spares _

theorem socks5Handshake_spares (host : Bytes) (port : UInt16) (auth : Option (Bytes × Bytes)) :
    (socks5Handshake host port auth).Never (isConnectStage · = true) := by
  unfold socks5Handshake
  split
  · exact fail_spares rfl
  · cases auth with
    | none =>
      refine (negotiate_spares 0).bind fun _ => ?_
      cases address host with
      | error len => exact fail_spares rfl
      | ok addr => exact readReply_spares
    | some pair =>
      refine (negotiate_spares 2).bind fun _ => ?_
      refine (sendCredentials_spares pair.1 pair.2).bind fun _ => ?_
      cases address host with
      | error len => exact fail_spares rfl
      | ok addr => exact readReply_spares

theorem writeConnectRequest_spares (base64 : Base64) (target : Bytes) (proxy : ProxyNode) :
    (writeConnectRequest base64 target proxy).Never (isConnectStage · = true) := by
  rw [writeConnectRequest]
  split
  · exact fail_spares rfl
  · trivial

theorem remaining_spares {head : ResponseHead} {error : ConnectError}
    (hfailed : head.remaining = .error error) : isConnectStage error = false := by
  unfold ResponseHead.remaining at hfailed
  split at hfailed
  · obtain rfl := Except.error.inj hfailed
    rfl
  · cases hfailed

theorem judgeHead_spares {head : Bytes} {error : ConnectError}
    (hfailed : judgeHead head = .error error) : isConnectStage error = false := by
  unfold judgeHead at hfailed
  dsimp only at hfailed
  split at hfailed
  · cases hfailed
  · split at hfailed
    · cases hfailed
    · obtain rfl := Except.error.inj hfailed
      rfl

theorem advance_spares {head : ResponseHead} {chunk : Bytes} {error : ConnectError}
    (hfailed : head.advance chunk = .error error) : isConnectStage error = false := by
  unfold ResponseHead.advance at hfailed
  dsimp only at hfailed
  split at hfailed
  · obtain rfl := Except.error.inj hfailed
    rfl
  · split at hfailed
    · cases hfailed
    · cases hjudged : judgeHead (head.filled ++ chunk) with
      | ok last =>
        rw [hjudged] at hfailed
        cases hfailed
      | error cause =>
        rw [hjudged] at hfailed
        obtain rfl := Except.error.inj hfailed
        exact judgeHead_spares hjudged

end

inductive HandshakeError : ConnectError → Prop
  | io (endpoint : Option Bytes) : HandshakeError (.io .handshake endpoint)
  | socks5 {host : Bytes} {port : UInt16} {auth : Option (Bytes × Bytes)}
      {events : List (Event Empty)} {error : ConnectError}
      (hruns : (socks5Handshake host port auth).Runs events (.fail error)) : HandshakeError error
  | request {base64 : Base64} {target : Bytes} {node : ProxyNode} {events : List (Event Empty)}
      {error : ConnectError}
      (hruns : (writeConnectRequest base64 target node).Runs events (.fail error)) :
      HandshakeError error
  | full {head : ResponseHead} {error : ConnectError} (hfailed : head.remaining = .error error) :
      HandshakeError error
  | response {head : ResponseHead} {chunk : Bytes} {error : ConnectError}
      (hfailed : head.advance chunk = .error error) : HandshakeError error

theorem HandshakeError.spares {error : ConnectError} (hhandshake : HandshakeError error) :
    isConnectStage error = false := by
  cases hhandshake with
  | io endpoint => rfl
  | socks5 hruns => exact Bool.eq_false_iff.mpr ((socks5Handshake_spares _ _ _).runs hruns)
  | request hruns => exact Bool.eq_false_iff.mpr ((writeConnectRequest_spares _ _ _).runs hruns)
  | full hfailed => exact remaining_spares hfailed
  | response hfailed => exact advance_spares hfailed

/-! Whom a failure blames. -/

def Dialer.turnsOut (dialer : Dialer) (network : TimedNetwork) (nodes : List ProxyNode) :
    DialStep → Timed (Except ConnectError Unit)
  | .acquire => (nodes.head?.map (dialer.tcpDial network)).getD (.ok (.ok ()))
  | .reserve _ => .ok (.ok ())
  | .tunnel i _ => (nodes[i]?.map (dialer.hop network i)).getD (.ok (.ok ()))

/-- The steps follow the route, and the last one is blamed for what it did. -/
structure ChainRun.Blames (dialer : Dialer) (network : TimedNetwork) (nodes : List ProxyNode)
    (route : List DialStep) (run : ChainRun) : Prop where
  follows : run.steps <+: route
  whole : run.outcome = .ok (.ok ()) → run.steps = route
  failed : ∀ error, run.outcome = .ok (.error error) → ∃ dial, run.steps.getLast? = some dial ∧
    error.stage = dial.stage nodes ∧
    dialer.turnsOut network nodes dial = .ok (.error error.error)
  halted : ∀ halt, run.outcome = .error halt → ∃ dial, run.steps.getLast? = some dial ∧
    ChainStage.decode run.progress = dial.stage nodes ∧
    dialer.turnsOut network nodes dial = .error halt

section

variable {dialer : Dialer} {network : TimedNetwork} {nodes : List ProxyNode}

namespace ChainRun

theorem Blames.done (progress : UInt64) :
    Blames dialer network nodes [] ⟨[], progress, .ok (.ok ())⟩ where
  follows := List.nil_prefix
  whole _ := rfl
  failed _ herror := by cases herror
  halted _ hhalt := by cases hhalt

theorem getLast?_cons_of_some {dial last : DialStep} {steps : List DialStep}
    (hlast : steps.getLast? = some last) : (dial :: steps).getLast? = some last := by
  rw [List.getLast?_cons, hlast]
  rfl

theorem Blames.step {route : List DialStep} {next : ChainRun} {progress : UInt64}
    {dial : DialStep} {label : ConnectError → ChainStage}
    {result : Timed (Except ConnectError Unit)} (hnext : Blames dialer network nodes route next)
    (hprogress : ChainStage.decode progress = dial.stage nodes)
    (hlabel : ∀ error, result = .ok (.error error) → label error = dial.stage nodes)
    (hresult : dialer.turnsOut network nodes dial = result) :
    Blames dialer network nodes (dial :: route) (step progress dial label result next) := by
  cases result with
  | error halt =>
    exact
      { follows := (List.prefix_cons_inj dial).mpr List.nil_prefix
        whole := fun hok => by cases hok
        failed := fun error herror => by cases herror
        halted := fun other hhalt => by
          cases hhalt
          exact ⟨dial, rfl, hprogress, hresult⟩ }
  | ok answer =>
    cases answer with
    | error error =>
      exact
        { follows := (List.prefix_cons_inj dial).mpr List.nil_prefix
          whole := fun hok => by cases hok
          failed := fun other herror => by
            cases herror
            exact ⟨dial, rfl, hlabel error rfl, hresult⟩
          halted := fun halt hhalt => by cases hhalt }
    | ok _ =>
      exact
        { follows := (List.prefix_cons_inj dial).mpr hnext.follows
          whole := fun hok => congrArg (dial :: ·) (hnext.whole hok)
          failed := fun error herror => by
            obtain ⟨last, hlast, hblamed⟩ := hnext.failed error herror
            exact ⟨last, getLast?_cons_of_some hlast, hblamed⟩
          halted := fun halt hhalt => by
            obtain ⟨last, hlast, hblamed⟩ := hnext.halted halt hhalt
            exact ⟨last, getLast?_cons_of_some hlast, hblamed⟩ }

end ChainRun

/-- A vector holds no more. -/
def isizeMax : Nat := 0x7FFFFFFFFFFFFFFF

theorem Dialer.chainHops_blames {target : Bytes} (progress : UInt64)
    (front back : List ProxyNode) (hlength : (front ++ back).length ≤ isizeMax) :
    ChainRun.Blames dialer network (front ++ back) (hopRoute target front.length back)
      (dialer.chainHops network target progress front.length back) := by
  induction back generalizing front progress with
  | nil => exact .done progress
  | cons node rest ih =>
    have hnode : (front ++ node :: rest)[front.length]? = some node := by simp
    cases rest with
    | nil =>
      have hstage (text : Bytes) :
          DialStep.stage (front ++ [node]) (.tunnel front.length text) = .target := by
        simp [DialStep.stage]
      refine (ChainRun.Blames.done _).step ?_ (fun _ _ => (hstage target).symm) ?_
      · rw [hstage]
        rfl
      · rw [turnsOut, hnode]
        rfl
    | cons next rest =>
      have hstage (text : Bytes) : DialStep.stage (front ++ node :: next :: rest)
          (.tunnel front.length text) = .hop front.length := by
        simp [DialStep.stage]
      have hrest := ih (ChainStage.encode (.hop front.length)) (front ++ [node])
        (by simpa using hlength)
      rw [List.length_append, List.length_singleton, List.append_assoc,
        List.singleton_append] at hrest
      refine hrest.step ?_ (fun _ _ => (hstage _).symm) ?_
      · rw [hstage]
        refine ChainStage.decode_hop ?_
        rw [List.length_append, List.length_cons, List.length_cons, isizeMax] at hlength
        omega
      · rw [turnsOut, hnode]
        rfl

namespace Dialer

theorem handshakeOnTcp_eq_hop {node : ProxyNode} (htls : dialer.checkTlsSlot node = .ok ()) :
    dialer.handshakeOnTcp network node = dialer.hop network 0 node := by
  unfold checkTlsSlot at htls
  unfold handshakeOnTcp hop
  cases hprotocol : node.protocol with
  | socks5 => rfl
  | http => rfl
  | https =>
    cases hconnector : dialer.tlsConnector with
    | false =>
      rw [if_pos ⟨hprotocol, hconnector⟩] at htls
      cases htls
    | true => rfl

theorem tcpDial_stage {node : ProxyNode} {error : ConnectError}
    (hfailed : dialer.tcpDial network node = .ok (.error error)) : isConnectStage error = true := by
  unfold tcpDial at hfailed
  split at hfailed
  · cases hfailed
  · cases hfailed
    rfl
  · cases hfailed
    rfl
  · cases hfailed

theorem await_stage {answer : Foundation.Answer (Except ConnectError Unit)} {node : ProxyNode}
    {kind : TimeoutKind} {error : ConnectError}
    (hspoken : ∀ cause, answer = .ready (.error cause) → HandshakeError cause)
    (hfailed : answer.await (dialer.timedOut node kind) = .ok (.error error)) :
    isConnectStage error = false := by
  cases answer with
  | ready result =>
    obtain rfl := Except.ok.inj hfailed
    exact (hspoken error rfl).spares
  | elapsed =>
    cases hfailed
    rfl
  | abandoned => cases hfailed

theorem hop_stage {i : Nat} {node : ProxyNode} {error : ConnectError}
    (hspoken : ∀ cause, network.tunnel i = .ready (.error cause) → HandshakeError cause)
    (hfailed : dialer.hop network i node = .ok (.error error)) : isConnectStage error = false := by
  unfold hop at hfailed
  split at hfailed
  · exact await_stage hspoken hfailed
  · exact await_stage hspoken hfailed
  · split at hfailed
    · unfold httpsHop tlsThenConnect at hfailed
      split at hfailed
      · cases hdeadline : Instant.addOrPanic (network.begins i) dialer.handshakeTimeout with
        | error halt =>
          rw [hdeadline] at hfailed
          cases hfailed
        | ok deadline =>
          simp only [hdeadline, bind, Except.bind] at hfailed
          split at hfailed
          · exact await_stage hspoken hfailed
          · cases hfailed
            rfl
          · cases hfailed
            rfl
          · cases hfailed
      · cases hfailed
        rfl
    · cases hfailed
      rfl

/-- Nothing is dialed where a node of the chain needs TLS that there is not. -/
def Refuses (dialer : Dialer) (proxy : ProxyConfig) (error : ChainError) : Prop :=
  (proxy.gate = [] ∧ dialer.checkTlsSlot proxy.node = .error error.error ∧
      error.stage = .target) ∨
    (proxy.gate ≠ [] ∧ checkTls proxy.nodes dialer.tlsConnector = .error error.error ∧
      error.stage = .connect)

theorem dialInner_blames {proxy : ProxyConfig} {host : Bytes} {port : UInt16}
    (hgate : proxy.gate = [])
    (hspoken : ∀ error, network.tunnel 0 = .ready (.error error) → HandshakeError error)
    (htls : dialer.checkTlsSlot proxy.node = .ok ()) :
    ChainRun.Blames dialer network proxy.nodes
      (.acquire :: hopRoute (HostPort.format (stripBrackets host) port) 0 proxy.nodes)
      (dialer.dialInner network proxy.node host port (ChainStage.encode .target)) := by
  have hnodes : proxy.nodes = [proxy.node] := by rw [ProxyConfig.nodes, hgate]; rfl
  rw [dialInner, htls, hnodes]
  refine ((ChainRun.Blames.done _).step rfl (fun error herror => ?_) ?_).step rfl
    (fun error herror => ?_) rfl
  · rw [handshakeOnTcp_eq_hop htls] at herror
    rw [singleStage, hop_stage hspoken herror]
    rfl
  · rw [handshakeOnTcp_eq_hop htls]
    rfl
  · rw [singleStage, if_pos (tcpDial_stage herror)]
    rfl

theorem chainInner_blames {proxy : ProxyConfig} {host : Bytes} {port : UInt16}
    (hlength : proxy.nodes.length ≤ isizeMax)
    (hspoken : ∀ error, network.tunnel 0 = .ready (.error error) → HandshakeError error) :
    (∃ error, dialer.Refuses proxy error ∧
      dialer.chainInner network proxy host port = .refuse error.stage error.error) ∨
    ChainRun.Blames dialer network proxy.nodes
      (.acquire :: hopRoute (HostPort.format (stripBrackets host) port) 0 proxy.nodes)
      (dialer.chainInner network proxy host port) := by
  rw [chainInner]
  split
  · rename_i hgate
    rw [List.isEmpty_iff] at hgate
    cases htls : dialer.checkTlsSlot proxy.node with
    | ok _ => exact .inr (dialInner_blames hgate hspoken htls)
    | error error =>
      have hmissing : error = connectorMissing := by
        unfold checkTlsSlot at htls
        split at htls
        · exact (Except.error.inj htls).symm
        · cases htls
      refine .inl ⟨⟨.target, error⟩, .inl ⟨hgate, htls, rfl⟩, ?_⟩
      rw [dialInner, htls, hmissing]
      rfl
  · rename_i hgate
    rw [List.isEmpty_iff] at hgate
    split
    · rename_i error htls
      exact .inl ⟨⟨.connect, error⟩, .inr ⟨hgate, htls, rfl⟩, rfl⟩
    · refine .inr ?_
      have hhops : ChainRun.Blames dialer network proxy.nodes
          (hopRoute (HostPort.format (stripBrackets host) port) 0 proxy.nodes)
          (dialer.chainHops network (HostPort.format (stripBrackets host) port)
            (ChainStage.encode .connect) 0 proxy.nodes) :=
        chainHops_blames _ [] proxy.nodes hlength
      have hnonempty : proxy.nodes ≠ [] := proxy.nodes_ne_nil
      generalize proxy.nodes = nodes at hhops hnonempty ⊢
      cases nodes with
      | nil => exact absurd rfl hnonempty
      | cons outermost inner => exact hhops.step rfl (fun _ _ => rfl) rfl

end Dialer

/-- What is known of a call when it has ended. -/
structure ChainRun.Accounts (dialer : Dialer) (network : TimedNetwork) (proxy : ProxyConfig)
    (limit : Option Duration) (refused : ChainError → Prop) (route : List DialStep)
    (run : ChainRun) : Prop where
  follows : run.steps <+: route
  whole : run.outcome = .ok (.ok ()) → run.steps = route
  failed : ∀ error, run.outcome = .ok (.error error) →
    (run.steps = [] ∧ refused error) ∨
      ∃ dial, run.steps.getLast? = some dial ∧ error.stage = dial.stage proxy.nodes ∧
        (dialer.turnsOut network proxy.nodes dial = .ok (.error error.error) ∨
          ∃ total, limit = some total ∧ error.error = totalTimeout proxy total ∧
            dialer.turnsOut network proxy.nodes dial = .error .abandoned)

section

variable {dialer : Dialer} {network : TimedNetwork} {proxy : ProxyConfig}
  {limit : Option Duration}

theorem ChainRun.Accounts.of_refused {refused : ChainError → Prop} {route : List DialStep}
    {error : ChainError} (hrefused : refused error) {progress : UInt64} :
    Accounts dialer network proxy limit refused route ⟨[], progress, .ok (.error error)⟩ where
  follows := List.nil_prefix
  whole hok := by cases hok
  failed other herror := by
    cases herror
    exact .inl ⟨rfl, hrefused⟩

theorem ChainRun.Blames.withTotalTimeout {refused : ChainError → Prop} {route : List DialStep}
    {run : ChainRun} (hblames : run.Blames dialer network proxy.nodes route)
    {failIfElapsed : Bool} (helapsed : failIfElapsed = true → limit = some 0 →
      refused ⟨.connect, totalTimeout proxy 0⟩) :
    (Connect.withTotalTimeout proxy limit run failIfElapsed).Accounts dialer network proxy limit
      refused route := by
  have hplain : run.Accounts dialer network proxy limit refused route :=
    { follows := hblames.follows
      whole := hblames.whole
      failed := fun error herror => by
        obtain ⟨dial, hlast, hstage, hresult⟩ := hblames.failed error herror
        exact .inr ⟨dial, hlast, hstage, .inl hresult⟩ }
  unfold Connect.withTotalTimeout
  cases limit with
  | none => exact hplain
  | some total =>
    dsimp only
    split
    · rename_i hnow
      rw [Bool.and_eq_true, beq_iff_eq] at hnow
      obtain ⟨hfail, rfl⟩ := hnow
      exact .of_refused (helapsed hfail rfl)
    · split
      · rename_i hhalt
        exact
          { follows := hblames.follows
            whole := fun hok => by cases hok
            failed := fun error herror => by
              cases herror
              obtain ⟨dial, hlast, hstage, hresult⟩ := hblames.halted _ hhalt
              exact .inr ⟨dial, hlast, hstage, .inr ⟨total, rfl, rfl, hresult⟩⟩ }
      · exact hplain

theorem ChainRun.Accounts.refuse {refused : ChainError → Prop} {route : List DialStep}
    {stage : ChainStage} {cause : ConnectError} (hrefused : refused ⟨stage, cause⟩)
    {failIfElapsed : Bool} (helapsed : failIfElapsed = true → limit = some 0 →
      refused ⟨.connect, totalTimeout proxy 0⟩) :
    (Connect.withTotalTimeout proxy limit (.refuse stage cause) failIfElapsed).Accounts dialer
      network proxy limit refused route := by
  unfold Connect.withTotalTimeout
  cases limit with
  | none => exact .of_refused hrefused
  | some total =>
    dsimp only
    split
    · rename_i hnow
      rw [Bool.and_eq_true, beq_iff_eq] at hnow
      obtain ⟨hfail, rfl⟩ := hnow
      exact .of_refused (helapsed hfail rfl)
    · exact .of_refused hrefused

/-- A dialed chain follows its route, and a failure or an expiry blames the step it stopped at. -/
theorem dial_chain_blames {host : Bytes} {port : UInt16}
    (hlength : proxy.nodes.length ≤ isizeMax)
    (hspoken : ∀ error, network.tunnel 0 = .ready (.error error) → HandshakeError error) :
    (dialer.dialChain network limit proxy host port).Accounts dialer network proxy limit
        (dialer.Refuses proxy)
        (.acquire :: hopRoute (HostPort.format (stripBrackets host) port) 0 proxy.nodes) ∧
      (dialer.dialChainOver network limit proxy host port).Accounts dialer network proxy limit
        (fun error => error.stage = .connect ∧
          (checkTls proxy.nodes dialer.tlsConnector = .error error.error ∨
            limit = some 0 ∧ error.error = totalTimeout proxy 0))
        (hopRoute (HostPort.format (stripBrackets host) port) 0 proxy.nodes) := by
  constructor
  · have hnever : false = true → limit = some 0 →
        dialer.Refuses proxy ⟨.connect, totalTimeout proxy 0⟩ := fun hfalse => by cases hfalse
    rw [Dialer.dialChain]
    obtain ⟨error, hrefuses, heq⟩ | hblames := dialer.chainInner_blames hlength hspoken
    · rw [heq]
      exact .refuse hrefuses hnever
    · exact hblames.withTotalTimeout hnever
  · rw [Dialer.dialChainOver, Dialer.chainOver]
    split
    · rename_i error htls
      exact .refuse ⟨rfl, .inl htls⟩ fun _ hlimit => ⟨rfl, .inr ⟨hlimit, rfl⟩⟩
    · exact (Dialer.chainHops_blames _ [] proxy.nodes hlength).withTotalTimeout
        fun _ hlimit => ⟨rfl, .inr ⟨hlimit, rfl⟩⟩

end

def gatedExit : ProxyConfig where
  node := ⟨.http, lit "exit", 8080, none, none, 0⟩
  gate := [⟨.socks5, lit "inner", 1080, none, none, 1⟩, ⟨.socks5, lit "outer", 1081, none, none, 2⟩]

def plainDialer : Dialer where
  connectTimeout := Duration.ofSecs 10
  handshakeTimeout := Duration.ofSecs 10
  serverName _ := true
  tlsConnector := false

def stallingAt (stalled : Nat) : TimedNetwork where
  acquire := .ready (.ok ())
  reserve _ := true
  begins _ := 0
  secure _ := .ready (.ok ())
  tunnel i := if i = stalled then .abandoned else .ready (.ok ())

theorem dial_chain_blames_stalled :
    (plainDialer.dialChain (stallingAt 1) (some (Duration.ofSecs 15)) gatedExit (lit "[::1]")
        443).outcome =
      .ok (.error ⟨.hop 1, totalTimeout gatedExit (Duration.ofSecs 15)⟩) ∧
    (plainDialer.dialChain (stallingAt 1) (some (Duration.ofSecs 15)) gatedExit (lit "[::1]")
        443).steps <+:
      .acquire :: hopRoute (HostPort.format (stripBrackets (lit "[::1]")) 443) 0
        gatedExit.nodes := by
  have hspoken (error : ConnectError) (hfailed : (stallingAt 1).tunnel 0 = .ready (.error error)) :
      HandshakeError error := by cases hfailed
  have hlength : gatedExit.nodes.length ≤ isizeMax := by decide
  exact ⟨rfl, (dial_chain_blames hlength hspoken).1.follows⟩

/-! The same chain out of the pool. -/

def DialStep.onWire : DialStep → Bool
  | .reserve _ => false
  | .acquire | .tunnel _ _ => true

/-- What is left of a run when nobody waits for the end of an abandoned one. -/
def ChainRun.attempt (run : ChainRun) : Timed Attempt :=
  run.outcome.map (Attempt.mk run.steps)

/-- They begin the same steps on the wire, and end alike. -/
def ChainRun.Agrees (run pooled : ChainRun) : Prop :=
  run.steps = pooled.steps.filter DialStep.onWire ∧ run.outcome = pooled.outcome

namespace Dialer

variable (dialer : Dialer) (network : TimedNetwork)

/-! `connect_chain` with the steps that it begins; the pool stores no progress. -/

def begunHops (progress : UInt64) (target : Bytes) : Nat → List ProxyNode → ChainRun
  | _, [] => ⟨[], progress, .ok (.ok ())⟩
  | i, [node] =>
    .step progress (.tunnel i target) (fun _ => .target) (dialer.hop network i node)
      ⟨[], progress, .ok (.ok ())⟩
  | i, node :: next :: rest =>
    .step progress (.tunnel i (HostPort.format next.host next.port)) (fun _ => .hop i)
      (dialer.hop network i node) (begunHops progress target (i + 1) (next :: rest))

def begunPermits (progress : UInt64) (next : ChainRun) : Nat → List ProxyNode → ChainRun
  | _, [] => next
  | i, node :: rest =>
    .step progress (.reserve i) (fun _ => .hop (i - 1))
      (return if network.reserve i then .ok () else .error (.atCapacity node.host node.port))
      (begunPermits progress next (i + 1) rest)

def begunChain (chain : ProxyConfig) (targetAddr : Bytes) : ChainRun :=
  let progress := ChainStage.encode .connect
  match HostPort.parse targetAddr with
  | none => .refuse .target (.invalidTarget targetAddr)
  | some target =>
    match checkTls chain.nodes dialer.tlsConnector with
    | .error error => .refuse .connect error
    | .ok () =>
      match chain.nodes with
      | [] => ⟨[], progress, .ok (.ok ())⟩
      | [node] =>
        .step progress .acquire (fun _ => .connect) (dialer.acquire network node) <|
          .step progress (.tunnel 0 targetAddr) (fun _ => .target)
            (dialer.connectProxyOn network node) ⟨[], progress, .ok (.ok ())⟩
      | first :: inner =>
        .step progress .acquire (fun _ => .connect) (dialer.acquire network first) <|
          begunPermits network progress
            (dialer.begunHops network progress (HostPort.format target.host target.port) 0
              (first :: inner)) 1 inner

end Dialer

namespace ChainRun

theorem attempt_step (progress : UInt64) (dial : DialStep) (stage : ChainStage)
    (result : Timed (Except ConnectError Unit)) (next : ChainRun) :
    (step progress dial (fun _ => stage) result next).attempt =
      Attempt.timedStep dial stage result next.attempt := by
  obtain ⟨steps, last, outcome⟩ := next
  cases result with
  | error halt => rfl
  | ok answer =>
    cases answer with
    | error error => rfl
    | ok _ =>
      cases outcome with
      | error halt => rfl
      | ok result => rfl

theorem Agrees.step {run pooled : ChainRun} (hagrees : run.Agrees pooled) {dial : DialStep}
    (hwire : dial.onWire = true) (progress other : UInt64) (label : ConnectError → ChainStage)
    (result : Timed (Except ConnectError Unit)) :
    (step progress dial label result run).Agrees (step other dial label result pooled) := by
  have hone : [dial] = [dial].filter DialStep.onWire := by
    rw [List.filter_cons_of_pos hwire, List.filter_nil]
  cases result with
  | error halt => exact ⟨hone, rfl⟩
  | ok answer =>
    cases answer with
    | error error => exact ⟨hone, rfl⟩
    | ok _ =>
      obtain ⟨hsteps, houtcome⟩ := hagrees
      refine ⟨?_, houtcome⟩
      change dial :: run.steps = (dial :: pooled.steps).filter DialStep.onWire
      rw [List.filter_cons_of_pos hwire, hsteps]

theorem Agrees.begunPermits {run pooled : ChainRun} (hagrees : run.Agrees pooled)
    (hreserve : ∀ i, network.reserve i = true) (progress : UInt64) (i : Nat)
    (inner : List ProxyNode) :
    run.Agrees (Dialer.begunPermits network progress pooled i inner) := by
  induction inner generalizing i with
  | nil => exact hagrees
  | cons node rest ih =>
    rw [Dialer.begunPermits, if_pos (hreserve i)]
    exact ih (i + 1)

end ChainRun

theorem Dialer.begunHops_attempt (progress : UInt64) (target : Bytes) (i : Nat)
    (nodes : List ProxyNode) :
    (dialer.begunHops network progress target i nodes).attempt =
      dialer.runChainHops network target i nodes := by
  induction nodes generalizing i with
  | nil => rfl
  | cons node rest ih =>
    cases rest with
    | nil => exact ChainRun.attempt_step _ _ _ _ _
    | cons next rest => rw [begunHops, runChainHops, ChainRun.attempt_step, ih]

theorem Dialer.begunPermits_attempt (progress : UInt64) (next : ChainRun) (i : Nat)
    (inner : List ProxyNode) :
    (begunPermits network progress next i inner).attempt =
      reservePermits network next.attempt i inner := by
  induction inner generalizing i with
  | nil => rfl
  | cons node rest ih => rw [begunPermits, reservePermits, ChainRun.attempt_step, ih]

/-- The steps begun belong to the pooled dial. -/
theorem Dialer.begunChain_attempt (chain : ProxyConfig) (targetAddr : Bytes) :
    (dialer.begunChain network chain targetAddr).attempt =
      dialer.connectChain network chain targetAddr := by
  rw [begunChain, connectChain]
  cases HostPort.parse targetAddr with
  | none => rfl
  | some target =>
    dsimp only
    cases checkTls chain.nodes dialer.tlsConnector with
    | error error => rfl
    | ok _ =>
      cases chain.nodes with
      | nil => rfl
      | cons first inner =>
        cases inner with
        | nil => exact (ChainRun.attempt_step _ _ _ _ _).trans (by rw [ChainRun.attempt_step]; rfl)
        | cons second rest =>
          dsimp only
          rw [ChainRun.attempt_step, begunPermits_attempt, begunHops_attempt]

theorem Dialer.chainHops_agrees (target : Bytes) (progress other : UInt64) (i : Nat)
    (nodes : List ProxyNode) :
    (dialer.chainHops network target progress i nodes).Agrees
      (dialer.begunHops network other target i nodes) := by
  induction nodes generalizing progress i with
  | nil => exact ⟨rfl, rfl⟩
  | cons node rest ih =>
    cases rest with
    | nil =>
      have hdone : ChainRun.Agrees ⟨[], ChainStage.encode .target, .ok (.ok ())⟩
          ⟨[], other, .ok (.ok ())⟩ := ⟨rfl, rfl⟩
      exact hdone.step rfl _ _ _ _
    | cons next rest => exact (ih _ (i + 1)).step rfl _ _ _ _

theorem stripBrackets_parsed {targetAddr : Bytes} {target : HostPort}
    (hparse : HostPort.parse targetAddr = some target) :
    stripBrackets target.host = target.host := by
  have hopen : target.host.head? ≠ some 0x5B := by
    obtain ⟨_, -, hv6, -⟩ | ⟨_, -, -, -, hhead, -⟩ := HostPort.parse_cases hparse
    · exact ipv6_no_bracket hv6
    · exact hhead
  rw [stripBrackets, if_neg]
  simp [hopen]

theorem Dialer.acquire_eq_tcpDial {node : ProxyNode}
    (hrefused : ∀ error, network.acquire = .ready (.error error) →
      error = .io .connect (some (upstreamEndpoint node))) :
    dialer.acquire network node = dialer.tcpDial network node := by
  rw [acquire, tcpDial]
  cases hacquire : network.acquire with
  | ready result =>
    cases result with
    | ok _ => rfl
    | error error =>
      rw [hrefused error hacquire]
      rfl
  | elapsed => rfl
  | abandoned => rfl

/-- With a permit for every node, a chain out of the pool is dialed like one without: the same
steps are begun, whether or not they come to an end. -/
theorem dial_chain_agrees {targetAddr : Bytes} {target : HostPort} (hgate : proxy.gate ≠ [])
    (hparse : HostPort.parse targetAddr = some target)
    (hreserve : ∀ i, network.reserve i = true)
    (hrefused : ∀ outermost ∈ proxy.nodes.head?, ∀ error,
      network.acquire = .ready (.error error) →
        error = .io .connect (some (upstreamEndpoint outermost))) :
    (dialer.dialChain network none proxy target.host target.port).Agrees
        (dialer.begunChain network proxy targetAddr) ∧
      (dialer.begunChain network proxy targetAddr).attempt =
        dialer.connectChain network proxy targetAddr := by
  refine ⟨?_, dialer.begunChain_attempt proxy targetAddr⟩
  have hempty : proxy.gate.isEmpty = false := by simpa using hgate
  have hlong : 2 ≤ proxy.nodes.length := by
    have hpos := List.length_pos_iff.mpr hgate
    rw [ProxyConfig.nodes, List.length_reverse, List.length_cons]
    omega
  rw [Dialer.dialChain, withTotalTimeout, Dialer.chainInner, hempty, Dialer.begunChain, hparse,
    stripBrackets_parsed hparse]
  dsimp only
  generalize proxy.nodes = nodes at hlong hrefused ⊢
  cases htls : checkTls nodes dialer.tlsConnector with
  | error error => exact ⟨rfl, rfl⟩
  | ok _ =>
    cases nodes with
    | nil => cases hlong
    | cons first inner =>
      cases inner with
      | nil => cases hlong with | step hnone => cases hnone
      | cons second rest =>
        dsimp only
        rw [Dialer.acquire_eq_tcpDial (hrefused first rfl)]
        exact ((Dialer.chainHops_agrees _ _ _ 0 _).begunPermits hreserve _ 1 _).step rfl _ _ _ _

end

theorem dial_chain_agrees_gated :
    ((plainDialer.dialChain (stallingAt 3) none gatedExit (lit "::1") 443).steps =
        [.acquire, .tunnel 0 (lit "inner:1080"), .tunnel 1 (lit "exit:8080"),
          .tunnel 2 (lit "[::1]:443")] ∧
      (plainDialer.begunChain (stallingAt 1) gatedExit (lit "[::1]:443")).steps =
        [.acquire, .reserve 1, .reserve 2, .tunnel 0 (lit "inner:1080"),
          .tunnel 1 (lit "exit:8080")]) ∧
    ((plainDialer.dialChain (stallingAt 3) none gatedExit (lit "::1") 443).Agrees
        (plainDialer.begunChain (stallingAt 3) gatedExit (lit "[::1]:443")) ∧
      (plainDialer.begunChain (stallingAt 3) gatedExit (lit "[::1]:443")).attempt =
        plainDialer.connectChain (stallingAt 3) gatedExit (lit "[::1]:443")) ∧
    (plainDialer.dialChain (stallingAt 1) none gatedExit (lit "::1") 443).Agrees
        (plainDialer.begunChain (stallingAt 1) gatedExit (lit "[::1]:443")) ∧
      (plainDialer.begunChain (stallingAt 1) gatedExit (lit "[::1]:443")).attempt =
        plainDialer.connectChain (stallingAt 1) gatedExit (lit "[::1]:443") := by
  have hgate : gatedExit.gate ≠ [] := by decide
  have hparse : HostPort.parse (lit "[::1]:443") = some ⟨lit "::1", 443⟩ := by decide
  have hrefused (stalled : Nat) (outermost : ProxyNode) (_ : outermost ∈ gatedExit.nodes.head?)
      (error : ConnectError) (hfailed : (stallingAt stalled).acquire = .ready (.error error)) :
      error = .io .connect (some (upstreamEndpoint outermost)) := by cases hfailed
  have hagrees (stalled : Nat) := @dial_chain_agrees plainDialer (stallingAt stalled) gatedExit _
    ⟨lit "::1", 443⟩ hgate hparse (fun _ => rfl) (hrefused stalled)
  exact ⟨⟨rfl, by decide⟩, hagrees 3, hagrees 1⟩

end Resocks5.Connect
