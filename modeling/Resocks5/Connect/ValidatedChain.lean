import Resocks5.Connect.ConnectChain
import Resocks5.Inbound.HttpAgreement
import Resocks5.Inbound.SocksAgreement
import Resocks5.Inbound.Dialable
import Resocks5.Recovery.EffectiveTarget
import Resocks5.Types.Validate

namespace Resocks5.Connect

open Resocks5.Foundation
open Resocks5.Inbound
open Resocks5.Net
open Resocks5.Recovery
open Resocks5.Types
open Prog

/-! Validated chains at their intermediate hops. -/

/-- What a node is sent to open a tunnel; over TLS if it is an HTTPS one. -/
def encoder (base64 : Base64) (node : ProxyNode) (target : Bytes) : ClientProg Unit :=
  match node.protocol with
  | .socks5 => handshakeOverStream target (sentCredentials node)
  | .http | .https => writeConnectRequest base64 target node

def hopTarget (next : ProxyNode) : Bytes := HostPort.format next.host next.port

def Decodes (base64 : Base64) (node : ProxyNode) (target user password : Bytes) : Prop :=
  match node.protocol with
  | .socks5 => ∀ options : ServerOptions,
    Inevitably (Duplex.Step Empty.elim fun credentials : Credentials =>
        decide (credentials = Credentials.new user password))
      (· = ⟨.ok (), [], [], .ok (identityOf options (some (user, password)))⟩)
      ⟨sendCredentials user password, [], [], subnegotiate options⟩
  | .http | .https => ∃ value,
    authValue (headLines (connectRequest base64 target node)).headers = ok (some value) ∧
      basicCredentials base64 value = ok (user, password)

/-- What is configured is sent: a pair that the other side decodes, or nothing. -/
def Presented (base64 : Base64) (node : ProxyNode) (target : Bytes) : Prop :=
  match sentCredentials node with
  | some (user, password) => node.user = some user ∧ node.password = some password ∧
      Decodes base64 node target user password
  | none => node.user = none ∧ node.password = none

def Spared (bad : ConnectError → Bool) (prog : ClientProg Unit) : Prop :=
  ∀ events error, Runs prog events (fail error) → bad error = false

/-- The hop from `node` to `next` cannot fail on this side. -/
structure Dialable (base64 : Base64) (node next : ProxyNode) : Prop where
  target : HostPort.parse (hopTarget next) = some ⟨next.host, next.port⟩
  accepted : Spared isLocal (encoder base64 node (hopTarget next))
  presented : Presented base64 node (hopTarget next)

/-- A host that is written without brackets, and with colons only in an IPv6 address. -/
structure Bare (host : Bytes) : Prop where
  bracket : host.head? ≠ some 0x5B
  colon : (0x3A : UInt8) ∈ host → (parseIpv6 host).isSome = true

theorem parse_hopTarget {next : ProxyNode} (hhost : next.host ≠ []) :
    HostPort.parse (hopTarget next) = some ⟨next.host, next.port⟩ ↔ Bare next.host := by
  cases hv6 : (parseIpv6 next.host).isSome with
  | true =>
      refine ⟨fun _ => ⟨fun hhead => ?_, fun _ => hv6⟩, fun _ => ?_⟩
      · exact ipv6_bracket hv6 (List.mem_of_mem_head? hhead)
      · exact HostPort.parse_format_ipv6 hv6 next.port
  | false =>
      have htarget : hopTarget next = next.host ++ 0x3A :: render 10 next.port.toNat := by
        rw [hopTarget, HostPort.format, if_neg (by simp [hv6])]
      rw [htarget, parse_name hhost (render_no_byte (by decide) _) (parseU16_render next.port)]
      exact ⟨fun hboth => ⟨hboth.1, hboth.2⟩, fun hbare => ⟨hbare.bracket, hbare.colon⟩⟩

/-! The steps of a dialed chain. -/

theorem Attempt.mem_step {dial other : DialStep} {stage : ChainStage}
    {result : Except ConnectError Unit} {next : Attempt}
    (hmem : other ∈ (Attempt.step dial stage result next).steps) :
    other = dial ∨ other ∈ next.steps := by
  cases result with
  | error error => exact .inl (List.mem_singleton.mp hmem)
  | ok value => exact List.mem_cons.mp hmem

theorem runChainHops_target {network : Network} {text target : Bytes} {j : Nat} (k : Nat)
    (nodes : List ProxyNode)
    (hstep : DialStep.tunnel j target ∈ (runChainHops network text k nodes).steps) :
    ∃ i, j = k + i ∧ ∀ next, nodes[i + 1]? = some next → target = hopTarget next := by
  induction nodes generalizing k with
  | nil =>
      rw [runChainHops] at hstep
      cases hstep
  | cons node rest ih =>
      cases rest with
      | nil =>
          obtain heq | hstep := Attempt.mem_step hstep
          · obtain ⟨rfl, rfl⟩ := DialStep.tunnel.inj heq
            refine ⟨0, rfl, fun other hother => ?_⟩
            cases hother
          · cases hstep
      | cons next rest =>
          obtain heq | hstep := Attempt.mem_step hstep
          · obtain ⟨rfl, rfl⟩ := DialStep.tunnel.inj heq
            refine ⟨0, rfl, fun other hother => ?_⟩
            obtain rfl : next = other := Option.some.inj hother
            rfl
          · obtain ⟨i, rfl, hnext⟩ := ih (k + 1) hstep
            exact ⟨i + 1, by omega, hnext⟩

theorem reservePermits_tunnel {network : Network} {next : Attempt} {i j : Nat}
    {target : Bytes} {nodes : List ProxyNode}
    (hstep : DialStep.tunnel j target ∈ (reservePermits network next i nodes).steps) :
    DialStep.tunnel j target ∈ next.steps := by
  induction nodes generalizing i with
  | nil => exact hstep
  | cons node rest ih =>
      obtain heq | hstep := Attempt.mem_step hstep
      · cases heq
      · exact ih hstep

theorem connectChain_target {network : Network} {tlsConnector : Bool} {chain : ProxyConfig}
    {targetAddr target : Bytes} {i : Nat} {next : ProxyNode}
    (hnext : chain.nodes[i + 1]? = some next)
    (hstep : DialStep.tunnel i target ∈
      (connectChain network tlsConnector chain targetAddr).steps) : target = hopTarget next := by
  unfold connectChain at hstep
  split at hstep
  · cases hstep
  · dsimp only at hstep
    split at hstep
    · cases hstep
    · obtain heq | hstep := Attempt.mem_step hstep
      · cases heq
      · split at hstep
        · rename_i hone
          have hlength : i + 1 < chain.nodes.length := (List.getElem?_eq_some_iff.mp hnext).1
          omega
        · obtain ⟨j, rfl, htarget⟩ := runChainHops_target 0 _ (reservePermits_tunnel hstep)
          exact htarget next (by simpa using hnext)

/-! What the encoders take. -/

theorem Spared.of_never {bad : ConnectError → Bool} {prog : ClientProg Unit}
    (hnever : prog.Never fun error => bad error = true) : Spared bad prog := by
  intro events error hruns
  cases hbad : bad error with
  | false => rfl
  | true => exact absurd hbad (hnever.runs hruns)

section

variable {base64 : Base64} {entry : Entry} {next : ProxyNode}

theorem sentCredentials_some {node : ProxyNode} {user password : Bytes}
    (hsent : sentCredentials node = some (user, password)) :
    node.user = some user ∧ node.password = some password := by
  unfold sentCredentials at hsent
  split at hsent
  · rename_i huser hpassword
    cases hsent
    exact ⟨huser, hpassword⟩
  · cases hsent

theorem sent_pairOk (hentry : EntryOk entry) {user password : Bytes}
    (hsent : sentCredentials entry.node = some (user, password)) :
    PairOk entry.node.protocol user password := by
  obtain ⟨huser, hpassword⟩ := sentCredentials_some hsent
  exact hentry.credentials user password huser hpassword

theorem hopTarget_clean {next : Entry} (hnext : EntryOk next) :
    ∀ b ∈ hopTarget next.node, isUnprintable b = false :=
  format_clean (hostForbidden_clean hnext.allowed) next.node.port

theorem encoder_basic (base64 : Base64) {node : ProxyNode} (hprotocol : node.protocol ≠ .socks5)
    (target : Bytes) : encoder base64 node target = writeConnectRequest base64 target node := by
  unfold encoder
  split
  · rename_i hsocks
    exact absurd hsocks hprotocol
  · rfl
  · rfl

theorem encoder_socks (base64 : Base64) {node : ProxyNode} (hprotocol : node.protocol = .socks5)
    (target : Bytes) :
    encoder base64 node target = handshakeOverStream target (sentCredentials node) := by
  rw [encoder, hprotocol]

theorem basic_accepted {next : Entry} (hnext : EntryOk next) {node : ProxyNode}
    (hprotocol : node.protocol ≠ .socks5) :
    Spared isLocal (encoder base64 node (hopTarget next.node)) := by
  rw [encoder_basic base64 hprotocol, writeConnectRequest_clean base64 (hopTarget_clean hnext)]
  exact Spared.of_never trivial

theorem socks_spared (hentry : EntryOk entry) (hprotocol : entry.node.protocol = .socks5)
    {bad : ConnectError → Bool} (hbad : ∀ error, bad error = true → isLocal error = true)
    {host : Bytes} {port : UInt16}
    (htarget : bad (.invalidTarget (HostPort.format host port)) = true → host ≠ [] ∧ port ≠ 0)
    (hname : bad (.protocol (.socks5DomainTooLong host.length)) = true →
      HostPort.Spellable host) :
    (socks5Handshake host port (sentCredentials entry.node)).Never fun error =>
      bad error = true := by
  refine socks5Handshake_never hbad htarget (fun user password hsent _ => ?_) fun _ => hname
  obtain ⟨⟨_, huser⟩, _, hpassword⟩ := (sent_pairOk hentry hsent).counted hprotocol
  exact ⟨huser, hpassword⟩

theorem credentials_accepted (base64 : Base64) (hentry : EntryOk entry) (target : Bytes)
    {events : List (Event Empty)} {error : ConnectError}
    (hruns : Runs (encoder base64 entry.node target) events (fail error))
    (hlocal : isLocal error = true) : refusesTarget error = true := by
  have hspared : Spared (fun error => isLocal error && !refusesTarget error)
      (encoder base64 entry.node target) := by
    refine Spared.of_never ?_
    by_cases hprotocol : entry.node.protocol = .socks5
    · rw [encoder_socks base64 hprotocol, handshakeOverStream]
      split
      · simp [Never, refusesTarget]
      · refine socks_spared hentry hprotocol (fun error hbad => ?_) (fun hbad => ?_) fun hbad => ?_
        · exact (Bool.and_eq_true_iff.mp hbad).1
        · simp [refusesTarget] at hbad
        · simp [refusesTarget] at hbad
    · rw [encoder_basic base64 hprotocol, writeConnectRequest]
      split
      · simp [violation, Never, refusesTarget]
      · trivial
  have hbad := hspared events error hruns
  simpa [hlocal] using hbad

theorem socks_run_to_target {host : Bytes} {port : UInt16} {len : Nat}
    (hentry : EntryOk entry) (hprotocol : entry.node.protocol = .socks5) (hhost : host ≠ [])
    (hport : port ≠ 0) (haddress : address host = .error len) :
    ∃ events, Runs (socks5Handshake host port (sentCredentials entry.node)) events
      (fail (.protocol (.socks5DomainTooLong len))) := by
  have hvalid : ¬ (host.isEmpty ∨ port = 0) := by
    simp [hhost, hport]
  rw [socks5Handshake, if_neg hvalid, haddress]
  cases hsent : sentCredentials entry.node with
  | none =>
      exact ⟨[.put [5, 1, 0], .take [5, 0]],
        .cons (.putAll _ _) (.cons (.fill (by decide) (by decide)) (.nil _))⟩
  | some pair =>
      obtain ⟨user, password⟩ := pair
      obtain ⟨⟨_, huser⟩, _, hpassword⟩ := (sent_pairOk hentry hsent).counted hprotocol
      have hshort : ¬ (255 < user.length ∨ 255 < password.length) := by omega
      refine ⟨[.put [5, 1, 2], .take [5, 2],
        .put (1 :: user.length.toUInt8 :: user ++ password.length.toUInt8 :: password),
        .take [1, 0]], ?_⟩
      dsimp only
      rw [sendCredentials, if_neg hshort]
      refine .cons (.putAll _ _) (.cons (.fill (by decide) (by decide)) ?_)
      exact .cons (.putAll _ _) (.cons (.fill (by decide) (by decide)) (.nil _))

theorem socks_accepted {next : Entry} (hentry : EntryOk entry) (hnext : EntryOk next)
    (hprotocol : entry.node.protocol = .socks5) (hbare : Bare next.node.host)
    (base64 : Base64) :
    Spared isLocal (encoder base64 entry.node (hopTarget next.node)) ↔
      HostPort.Spellable next.node.host := by
  have hparse := (parse_hopTarget hnext.host).mpr hbare
  rw [encoder_socks base64 hprotocol, handshakeOverStream_parsed hparse]
  constructor
  · intro hspared
    by_contra hlong
    have haddress := address_error.mpr ⟨hlong, rfl⟩
    obtain ⟨events, hruns⟩ := socks_run_to_target hentry hprotocol hnext.host hnext.port haddress
    cases hspared events _ hruns
  · intro hspelled
    refine Spared.of_never (socks_spared hentry hprotocol (fun _ hbad => hbad) ?_ ?_)
    · exact fun _ => ⟨hnext.host, hnext.port⟩
    · exact fun _ => hspelled

/-! What the other side reads. -/

theorem presented_of_ok {next : Entry} (base64 : Base64) (hentry : EntryOk entry)
    (hnext : EntryOk next) : Presented base64 entry.node (hopTarget next.node) := by
  unfold Presented
  split
  · rename_i user password hsent
    obtain ⟨huser, hpassword⟩ := sentCredentials_some hsent
    have hutf8 := entry.user user (Option.mem_def.mpr huser)
    have hutf8' := entry.password password (Option.mem_def.mpr hpassword)
    have hpair := sent_pairOk hentry hsent
    have hbasic : entry.node.protocol ≠ .socks5 → ∃ value,
        authValue (headLines (connectRequest base64 (hopTarget next.node) entry.node)).headers =
          ok (some value) ∧ basicCredentials base64 value = ok (user, password) := by
      intro hprotocol
      obtain ⟨hcolon, _⟩ := hpair.basic hprotocol
      rw [connectRequest_eq, headLines_joined (request_isLine (hopTarget_clean hnext) base64 _)]
      dsimp only
      rw [authValue_headers, hsent]
      exact ⟨_, rfl, basicCredentials_ok base64 hutf8 hutf8' hcolon⟩
    refine ⟨huser, hpassword, ?_⟩
    unfold Decodes
    split
    · rename_i hprotocol
      obtain ⟨hulen, hplen⟩ := hpair.counted hprotocol
      intro options
      refine Duplex.Meets.inevitably id id ?_
      have hmeets : Duplex.Meets Empty.elim
          (fun credentials => decide (credentials = Credentials.new user password))
          ⟨ok (), [], [], ok (identityOf options (some (user, password)))⟩
          ⟨sendCredentials user password >>= ok, [], [], subnegotiate options >>= ok⟩ :=
        credentials_meets hutf8 hutf8' hulen hplen (decide_eq_true rfl) ok ok .refl
      rwa [bind_ok, bind_ok] at hmeets
    · rename_i hprotocol
      exact hbasic (by simp [hprotocol])
    · rename_i hprotocol
      exact hbasic (by simp [hprotocol])
  · rename_i hsent
    unfold sentCredentials at hsent
    have hpaired := hentry.paired
    split at hsent
    · cases hsent
    · rename_i hnone
      cases huser : entry.node.user with
      | none => simpa [huser] using hpaired
      | some user =>
          cases hpassword : entry.node.password with
          | none => simp [huser, hpassword] at hpaired
          | some password => exact absurd hpassword (hnone user password huser)

end

/-- At every intermediate hop of a validated chain the credentials are taken and read back, an HTTP
node takes the target, and the hop is clear of failures on this side just where the next host is
bare and, in front of it, SOCKS5 can spell it. -/
theorem validated_chain_hops (base64 : Base64) {entries : List Entry} {chain : ProxyConfig}
    (hnodes : chain.nodes = entries.map Entry.node) (hvalid : validate entries = .ok ())
    {i : Nat} {node next : ProxyNode} (hnode : chain.nodes[i]? = some node)
    (hnext : chain.nodes[i + 1]? = some next) :
    (∀ network tlsConnector targetAddr target,
      DialStep.tunnel i target ∈ (connectChain network tlsConnector chain targetAddr).steps →
        target = hopTarget next) ∧
      Presented base64 node (hopTarget next) ∧
      (∀ events error, Runs (encoder base64 node (hopTarget next)) events (fail error) →
        isLocal error = true → refusesTarget error = true) ∧
      (node.protocol ≠ .socks5 → Spared isLocal (encoder base64 node (hopTarget next))) ∧
      (HostPort.parse (hopTarget next) = some ⟨next.host, next.port⟩ ↔ Bare next.host) ∧
      (Dialable base64 node next ↔
        Bare next.host ∧ (node.protocol = .socks5 → HostPort.Spellable next.host)) := by
  have hall := validate_ok.mp hvalid
  have hbehind := hnext
  rw [hnodes, List.getElem?_map] at hnode hnext
  obtain ⟨entry, hat, rfl⟩ := Option.map_eq_some_iff.mp hnode
  obtain ⟨other, hat', rfl⟩ := Option.map_eq_some_iff.mp hnext
  have hentry := hall entry (List.mem_of_getElem? hat)
  have hother := hall other (List.mem_of_getElem? hat')
  have hpresented := presented_of_ok base64 hentry hother
  refine ⟨fun _ _ _ _ hstep => connectChain_target hbehind hstep, hpresented,
    fun _ _ hruns hlocal => credentials_accepted base64 hentry _ hruns hlocal,
    basic_accepted hother, parse_hopTarget hother.host, ?_⟩
  constructor
  · intro hdialable
    have hbare := (parse_hopTarget hother.host).mp hdialable.target
    refine ⟨hbare, fun hprotocol => ?_⟩
    exact (socks_accepted hentry hother hprotocol hbare base64).mp hdialable.accepted
  · rintro ⟨hbare, hspelled⟩
    refine ⟨(parse_hopTarget hother.host).mpr hbare, ?_, hpresented⟩
    by_cases hprotocol : entry.node.protocol = .socks5
    · exact (socks_accepted hentry hother hprotocol hbare base64).mpr (hspelled hprotocol)
    · exact basic_accepted hother hprotocol

def gateEntry : Entry where
  node := ⟨.socks5, lit "gate", 1080, some (lit "user"), some (lit "pass"), 1⟩
  isGate := true
  host := by decide
  user := by decide
  password := by decide

def exitEntry (host : Bytes) (hhost : isUtf8 host = true) : Entry where
  node := ⟨.socks5, host, 1080, none, none, 0⟩
  isGate := false
  host := hhost
  user := by simp
  password := by simp

def namedExit : Entry := exitEntry (lit "exit") (by decide)

def namedChain : ProxyConfig := ⟨namedExit.node, [gateEntry.node]⟩

theorem validated_chain_hops_named :
    Presented Base64.standard gateEntry.node (hopTarget namedExit.node) ∧
      (Dialable Base64.standard gateEntry.node namedExit.node ↔
        Bare namedExit.node.host ∧
          (gateEntry.node.protocol = .socks5 → HostPort.Spellable namedExit.node.host)) := by
  have hnodes : namedChain.nodes = [gateEntry, namedExit].map Entry.node := rfl
  obtain ⟨_, hpresented, _, _, _, hdialable⟩ := validated_chain_hops Base64.standard hnodes
    (by decide +kernel) (i := 0) rfl rfl
  exact ⟨hpresented, hdialable⟩

def colonExit : Entry := exitEntry (lit "a:b") (by decide)

def bracketExit : Entry := exitEntry (lit "[::1]") (by decide)

theorem longName_utf8 : isUtf8 (List.replicate 256 0x61) = true :=
  isUtf8_ascii fun b hb => by
    rw [List.eq_of_mem_replicate hb]
    decide

def longExit : Entry := exitEntry (List.replicate 256 0x61) longName_utf8

/-- Hosts that pass the check: one that is no target, one that is another target, and one that is
too long for SOCKS5. -/
theorem validated_chain_undialable :
    (validate [gateEntry, colonExit] = .ok () ∧
      Runs (encoder Base64.standard gateEntry.node (hopTarget colonExit.node)) []
        (fail (.invalidTarget (hopTarget colonExit.node)))) ∧
    (validate [gateEntry, bracketExit] = .ok () ∧
      HostPort.parse (hopTarget bracketExit.node) = some ⟨lit "::1", 1080⟩ ∧
      bracketExit.node.host ≠ lit "::1") ∧
    validate [gateEntry, longExit] = .ok () ∧
      ∃ events, Runs (encoder Base64.standard gateEntry.node (hopTarget longExit.node)) events
        (fail (.protocol (.socks5DomainTooLong 256))) := by
  have hgate : EntryOk gateEntry := validateNode_ok.mp (by decide +kernel)
  refine ⟨⟨by decide +kernel, ?_⟩, ⟨by decide +kernel, by decide +kernel, by decide⟩,
    by decide +kernel, ?_⟩
  · have hparse : HostPort.parse (hopTarget colonExit.node) = none := by decide +kernel
    rw [encoder_socks _ rfl, handshakeOverStream, hparse]
    exact .nil _
  · have hparse : HostPort.parse (hopTarget longExit.node) =
        some ⟨longExit.node.host, 1080⟩ := by decide +kernel
    have haddress : address longExit.node.host = .error 256 := by decide +kernel
    rw [encoder_socks _ rfl, handshakeOverStream_parsed hparse]
    exact socks_run_to_target hgate rfl (by decide) (by decide) haddress

end Resocks5.Connect
