import Resocks5.Connect.Socks5Handshake
import Resocks5.Foundation.Duplex
import Resocks5.Inbound.Http

namespace Resocks5.Inbound

open Resocks5.Connect
open Resocks5.Foundation
open Resocks5.Foundation.Duplex
open Resocks5.Net
open Resocks5.Types
open Prog

/-! The SOCKS5 client and the SOCKS5 server on one connection. -/

def clientEnd (host : Bytes) (port : UInt16) (auth : Option (Bytes × Bytes)) (payload : Bytes) :
    ClientProg Unit := do
  socks5Handshake host port auth
  writeAll payload

def serverEnd (base64 : Base64) (options : ServerOptions) (payload : Bytes) :
    ServerProg IncomingRequest := do
  let request ← accept base64 options
  request.reply .established
  writeAll payload
  return request

/-- The same IP address for a literal, the same bytes for anything else. -/
def SameHost (host other : Bytes) : Prop :=
  match parseIpv4 host with
  | some addr => parseIpv4 other = some addr
  | none =>
    match parseIpv6 host with
    | some addr => parseIpv6 other = some addr
    | none => other = host

def targetOf (host : Bytes) (port : UInt16) : Bytes :=
  match parseIpv4 host with
  | some addr => addr.display ++ 0x3A :: render 10 port.toNat
  | none =>
    match parseIpv6 host with
    | some addr => 0x5B :: addr.display ++ 0x5D :: 0x3A :: render 10 port.toNat
    | none => host ++ 0x3A :: render 10 port.toNat

def identityOf (options : ServerOptions) : Option (Bytes × Bytes) → Identity
  | some (username, password) =>
    ⟨some username, none,
      if options.retainCredentials then some (Credentials.new username password) else none⟩
  | none => Identity.unknown

def requestOf (options : ServerOptions) (host : Bytes) (port : UInt16)
    (auth : Option (Bytes × Bytes)) : IncomingRequest where
  protocol := .socks5
  target := targetOf host port
  username := (identityOf options auth).username
  usernameRaw := (identityOf options auth).usernameRaw
  credentials := (identityOf options auth).retained
  pipeline := []

theorem lengthByte {n : Nat} (hle : n ≤ 255) : n.toUInt8.toNat = n :=
  UInt8.toNat_ofNat_of_lt' (Nat.lt_succ_of_le hle)

theorem lengthByte_ne_zero {n : Nat} (hpos : 1 ≤ n) (hle : n ≤ 255) : n.toUInt8 ≠ 0 := by
  intro hzero
  have hn := lengthByte hle
  rw [hzero] at hn
  exact absurd hn.symm (Nat.ne_of_gt hpos)

section

variable {α β : Type} {answer : Empty → Bool} {granted : Credentials → Bool}
  {final : Duplex Empty ConnectError α Credentials ServerError β}

theorem negotiate_meets {options : ServerOptions} {method : UInt8}
    (hchosen : chooseMethod options [method] = some method) (base64 : Base64)
    (f : Unit → ClientProg α) (g : IncomingRequest → ServerProg β)
    (hmeets : Meets answer granted final
      ⟨f (), [], [], serveMethod options method >>= g⟩) :
    Meets answer granted final
      ⟨negotiate method >>= f, [], [], accept base64 options >>= g⟩ := by
  simp only [negotiate, writeAll, readExact, write_bind, exact_bind, ok_bind]
  refine Meets.leftWrite ?_
  simp only [accept, readSome, read_bind, ok_bind, List.nil_append]
  refine Meets.rightByte ?_
  simp only [if_pos, socks, readU8, readExact, exact_bind, ok_bind]
  refine Meets.rightExact [1] rfl rfl ?_
  simp only [List.headD_cons]
  refine Meets.rightExact [method] rfl rfl ?_
  simp only [hchosen, writeAll, write_bind, ok_bind]
  refine Meets.rightWrite ?_
  refine Meets.leftExact [5, method] rfl rfl ?_
  simpa using hmeets

theorem credentials_meets {options : ServerOptions} {username password : Bytes}
    (husername : isUtf8 username = true) (hpassword : isUtf8 password = true)
    (hulen : 1 ≤ username.length ∧ username.length ≤ 255)
    (hplen : 1 ≤ password.length ∧ password.length ≤ 255)
    (hgranted : granted (Credentials.new username password) = true)
    (f : Unit → ClientProg α) (g : Identity → ServerProg β)
    (hmeets : Meets answer granted final
      ⟨f (), [], [], g (identityOf options (some (username, password)))⟩) :
    Meets answer granted final
      ⟨sendCredentials username password >>= f, [], [], subnegotiate options >>= g⟩ := by
  have hshort : ¬ (255 < username.length ∨ 255 < password.length) := by omega
  have hupos := lengthByte_ne_zero hulen.1 hulen.2
  have hppos := lengthByte_ne_zero hplen.1 hplen.2
  simp only [sendCredentials, if_neg hshort, writeAll, readExact, write_bind, exact_bind, ok_bind]
  refine Meets.leftWrite ?_
  simp only [subnegotiate, readExact, readU8, exact_bind, ok_bind]
  refine Meets.rightExact [1, username.length.toUInt8] rfl rfl ?_
  simp only [List.getD_cons_zero, List.getD_cons_succ, ne_eq, not_true_eq_false, if_false,
    if_neg hupos, exact_bind]
  refine Meets.rightExact username rfl (lengthByte hulen.2) ?_
  refine Meets.rightExact [password.length.toUInt8] rfl rfl ?_
  simp only [List.headD_cons, hppos, if_false, exact_bind]
  refine Meets.rightExact password (List.append_nil password).symm (lengthByte hplen.2) ?_
  simp only [credentialText, if_pos husername, if_pos hpassword, verify, call, ask_bind, ok_bind]
  refine Meets.rightAsk ?_
  rw [Credentials.new] at hgranted
  simp only [hgranted, if_true, writeAll, write_bind, ok_bind]
  refine Meets.rightWrite ?_
  refine Meets.leftExact [1, 0] rfl rfl ?_
  simpa [identityOf, Credentials.new] using hmeets

theorem octets16_port (port : UInt16) :
    (((octets16 port).getD 0 0).toNat * 256 + ((octets16 port).getD 1 0).toNat).toUInt16 =
      port :=
  joinBytes_split port

theorem ipv6OfOctets_octets (addr : Ipv6) : ipv6OfOctets (Ipv6.octets addr) = addr := by
  obtain ⟨segments, height⟩ := addr
  obtain ⟨s₀, s₁, s₂, s₃, s₄, s₅, s₆, s₇, rfl⟩ : ∃ s₀ s₁ s₂ s₃ s₄ s₅ s₆ s₇,
      segments = [s₀, s₁, s₂, s₃, s₄, s₅, s₆, s₇] := by
    match segments, height with
    | [s₀, s₁, s₂, s₃, s₄, s₅, s₆, s₇], _ => exact ⟨s₀, s₁, s₂, s₃, s₄, s₅, s₆, s₇, rfl⟩
  simp [ipv6OfOctets, Ipv6.octets, octets16, List.range_succ, joinBytes_split]

theorem ipv6_octets_length (addr : Ipv6) : (Ipv6.octets addr).length = 16 := by
  obtain ⟨segments, height⟩ := addr
  simp [Ipv6.octets, octets16, List.length_flatMap, height]

theorem port_meets {port : UInt16} {f : ClientProg α} {g : UInt16 → ServerProg β}
    (hmeets : Meets answer granted final ⟨f, [], [], g port⟩) :
    Meets answer granted final ⟨f, octets16 port, [], readU16 >>= g⟩ := by
  simp only [readU16, exact_bind, ok_bind]
  refine Meets.rightExact (octets16 port) (List.append_nil _).symm rfl ?_
  rwa [octets16_port]

theorem ipv4_meets (addr : Ipv4) (port : UInt16) {f : ClientProg α} {g : Bytes → ServerProg β}
    (hmeets : Meets answer granted final
      ⟨f, [], [], g (addr.display ++ 0x3A :: render 10 port.toNat)⟩) :
    Meets answer granted final
      ⟨f, Ipv4.octets addr ++ octets16 port, [], readIpv4Target >>= g⟩ := by
  simp only [readIpv4Target, readExact, exact_bind, ok_bind, bind_assoc]
  refine Meets.rightExact (Ipv4.octets addr) rfl rfl ?_
  exact port_meets hmeets

theorem ipv6_meets (addr : Ipv6) (port : UInt16) {f : ClientProg α} {g : Bytes → ServerProg β}
    (hmeets : Meets answer granted final
      ⟨f, [], [], g (0x5B :: addr.display ++ 0x5D :: 0x3A :: render 10 port.toNat)⟩) :
    Meets answer granted final
      ⟨f, Ipv6.octets addr ++ octets16 port, [], readIpv6Target >>= g⟩ := by
  simp only [readIpv6Target, readExact, exact_bind, ok_bind, bind_assoc]
  refine Meets.rightExact (Ipv6.octets addr) rfl (ipv6_octets_length addr).symm ?_
  refine port_meets ?_
  rw [ipv6OfOctets_octets]
  simpa using hmeets

theorem domain_meets {host : Bytes} {port : UInt16} (hlength : host.length ≤ 255)
    (hhost : host ≠ []) (hutf8 : isUtf8 host = true)
    (hclean : ∀ b ∈ host, isUnprintable b = false)
    (hparse : (HostPort.parse (host ++ 0x3A :: render 10 port.toNat)).isSome = true)
    {f : ClientProg α} {g : Bytes → ServerProg β}
    (hmeets : Meets answer granted final
      ⟨f, [], [], g (host ++ 0x3A :: render 10 port.toNat)⟩) :
    Meets answer granted final
      ⟨f, host.length.toUInt8 :: host ++ octets16 port, [], readDomainTarget >>= g⟩ := by
  simp only [readDomainTarget, readU8, readExact, exact_bind, ok_bind, bind_assoc]
  refine Meets.rightExact [host.length.toUInt8] rfl rfl ?_
  simp only [List.headD_cons]
  refine Meets.rightExact host rfl (lengthByte hlength) ?_
  refine port_meets ?_
  have hany : host.any isUnprintable = false := List.any_eq_false.mpr (by simpa using hclean)
  have hnone : (HostPort.parse (host ++ 0x3A :: render 10 port.toNat)).isNone = false := by
    simpa using hparse
  simp only [hutf8, hany, hnone, hhost, List.isEmpty_iff, Bool.not_true, Bool.or_false]
  simpa using hmeets

theorem request_meets {host addr : Bytes} {port : UInt16}
    (haddress : address host = .ok addr) (hhost : host ≠ []) (hutf8 : isUtf8 host = true)
    (hclean : ∀ b ∈ host, isUnprintable b = false)
    (hparse : (HostPort.parse (HostPort.format host port)).isSome = true)
    (f : Unit → ClientProg α) (g : Bytes → ServerProg β)
    (hmeets : Meets answer granted final ⟨f (), [], [], g (targetOf host port)⟩) :
    Meets answer granted final
      ⟨writeAll (5 :: 1 :: 0 :: addr ++ octets16 port) >>= f, [], [], readTarget >>= g⟩ := by
  simp only [writeAll, write_bind, ok_bind]
  refine Meets.leftWrite ?_
  simp only [readTarget, readExact, exact_bind, ok_bind]
  unfold address at haddress
  unfold targetOf at hmeets
  split at haddress
  · rename_i v4 hv4
    obtain rfl := Except.ok.inj haddress
    simp only [hv4] at hmeets
    refine Meets.rightExact [5, 1, 0, 1] rfl rfl ?_
    exact ipv4_meets v4 port hmeets
  · rename_i hv4
    split at haddress
    · rename_i v6 hv6
      obtain rfl := Except.ok.inj haddress
      simp only [hv4, hv6] at hmeets
      refine Meets.rightExact [5, 1, 0, 4] rfl rfl ?_
      exact ipv6_meets v6 port hmeets
    · rename_i hv6
      split at haddress
      · cases haddress
      · rename_i hshort
        obtain rfl := Except.ok.inj haddress
        simp only [hv4, hv6] at hmeets
        rw [HostPort.format, if_neg (by simp [hv6])] at hparse
        refine Meets.rightExact [5, 1, 0, 3] rfl rfl ?_
        exact domain_meets (Nat.le_of_not_lt hshort) hhost hutf8 hclean hparse hmeets

theorem reply_meets (f : Unit → ClientProg α) (g : Unit → ServerProg β)
    (hmeets : Meets answer granted final ⟨f (), [], [], g ()⟩) :
    Meets answer granted final
      ⟨readReply >>= f, [], [], writeAll (socksReply 0) >>= g⟩ := by
  simp only [writeAll, write_bind, ok_bind]
  refine Meets.rightWrite ?_
  simp only [readReply, readExact, exact_bind, ok_bind]
  refine Meets.leftExact [5, 0, 0, 1] rfl rfl ?_
  simp only [List.getD_cons_zero, List.getD_cons_succ, ne_eq, not_true_eq_false, if_false, readBound,
    if_true, readExact, exact_bind, ok_bind]
  refine Meets.leftExact [0, 0, 0, 0, 0, 0] rfl rfl ?_
  simpa using hmeets

end

theorem parse_targetOf {host : Bytes} {port : UInt16}
    (hparse : HostPort.parse (HostPort.format host port) = some ⟨host, port⟩) :
    ∃ other, HostPort.parse (targetOf host port) = some ⟨other, port⟩ ∧ SameHost host other := by
  unfold targetOf SameHost
  cases hv4 : parseIpv4 host with
  | some addr =>
      exact ⟨addr.display, HostPort.parse_ipv4 addr port, parseIpv4_display addr⟩
  | none =>
      cases hv6 : parseIpv6 host with
      | some addr =>
          exact ⟨addr.display, HostPort.parse_ipv6 addr port, parseIpv6_display addr⟩
      | none =>
          rw [HostPort.format, if_neg (by simp [hv6])] at hparse
          exact ⟨host, hparse, rfl⟩

theorem address_ok {host : Bytes} (hlength : host.length ≤ 255) :
    ∃ addr, address host = .ok addr := by
  unfold address
  split
  · exact ⟨_, rfl⟩
  · split
    · exact ⟨_, rfl⟩
    · exact ⟨_, if_neg (Nat.not_lt.mpr hlength)⟩

/-- The client and the server come to the same host, port and user over every schedule and every
cut of their bytes, and leave what follows the handshake untouched. -/
theorem socks5_agreement (base64 : Base64) (options : ServerOptions)
    (granted : Credentials → Bool) (host : Bytes) (port : UInt16)
    (auth : Option (Bytes × Bytes)) (clientPayload serverPayload : Bytes)
    (hparse : HostPort.parse (HostPort.format host port) = some ⟨host, port⟩)
    (hhost : host ≠ []) (hlength : host.length ≤ 255) (hutf8 : isUtf8 host = true)
    (hclean : ∀ b ∈ host, isUnprintable b = false) (hport : port ≠ 0)
    (hauth : ∀ username password, auth = some (username, password) →
      isUtf8 username = true ∧ isUtf8 password = true ∧
      (1 ≤ username.length ∧ username.length ≤ 255) ∧
      (1 ≤ password.length ∧ password.length ≤ 255))
    (hgranted : ∀ username password, auth = some (username, password) →
      granted (Credentials.new username password) = true)
    (hmethod : if auth.isSome then options.password = true else options.anonymous = true) :
    ∃ request other,
      Inevitably (Duplex.Step Empty.elim granted)
        (· = ⟨.ok (), clientPayload, serverPayload, .ok request⟩)
        ⟨clientEnd host port auth clientPayload, [], [], serverEnd base64 options serverPayload⟩ ∧
      HostPort.parse request.target = some ⟨other, port⟩ ∧ SameHost host other ∧
      request.username = auth.map Prod.fst := by
  obtain ⟨other, hother, hsame⟩ := parse_targetOf hparse
  obtain ⟨addr, haddress⟩ := address_ok hlength
  refine ⟨requestOf options host port auth, other, ?_, hother, hsame, ?_⟩
  · refine Meets.inevitably id id ?_
    have hsome : (HostPort.parse (HostPort.format host port)).isSome = true := by
      rw [hparse]
      rfl
    have hrest : Meets Empty.elim granted
        ⟨.ok (), clientPayload, serverPayload, .ok (requestOf options host port auth)⟩
        ⟨writeAll (5 :: 1 :: 0 :: addr ++ octets16 port) >>= fun _ => readReply >>= fun _ =>
          writeAll clientPayload, [], [],
          readTarget >>= fun target => writeAll (socksReply 0) >>= fun _ =>
            writeAll serverPayload >>= fun _ =>
              ok { requestOf options host port auth with target }⟩ := by
      refine request_meets haddress hhost hutf8 hclean hsome _ _ ?_
      refine reply_meets _ _ ?_
      simp only [writeAll, write_bind, ok_bind]
      refine Meets.leftWrite ?_
      exact Meets.rightWrite Meets.refl
    simp only [clientEnd, serverEnd, socks5Handshake, List.isEmpty_iff, hhost, hport, or_self,
      if_false, haddress]
    cases auth with
    | none =>
        have hchosen : chooseMethod options [0] = some 0 := by
          have hanonymous : options.anonymous = true := hmethod
          simp [chooseMethod, hanonymous]
        simp only [bind_assoc]
        refine negotiate_meets hchosen base64 _ _ ?_
        simpa [serveMethod, requestOf, identityOf, IncomingRequest.reply, replyBytes] using hrest
    | some pair =>
        obtain ⟨username, password⟩ := pair
        obtain ⟨husername, hpassword, hulen, hplen⟩ := hauth username password rfl
        have hchosen : chooseMethod options [2] = some 2 := by
          have hallowed : options.password = true := hmethod
          simp [chooseMethod, hallowed]
        simp only [bind_assoc]
        refine negotiate_meets hchosen base64 _ _ ?_
        simp only [serveMethod, if_true, bind_assoc]
        refine credentials_meets husername hpassword hulen hplen
          (hgranted username password rfl) _ _ ?_
        simpa [requestOf, IncomingRequest.reply, replyBytes] using hrest
  · cases auth with
    | none => rfl
    | some pair => rfl

/-- A named host, with a password. -/
theorem socks5_agreement_named :
    ∃ request other,
      Inevitably (Duplex.Step Empty.elim fun _ => true)
        (· = ⟨.ok (), lit "hello", lit "world", .ok request⟩)
        ⟨clientEnd (lit "example.org") 443 (some (lit "user", lit "pass")) (lit "hello"), [], [],
          serverEnd Base64.standard ⟨false, true, false, false, false⟩ (lit "world")⟩ ∧
      HostPort.parse request.target = some ⟨other, 443⟩ ∧ SameHost (lit "example.org") other ∧
      request.username = some (lit "user") := by
  refine socks5_agreement Base64.standard ⟨false, true, false, false, false⟩ (fun _ => true)
    (lit "example.org") 443 (some (lit "user", lit "pass")) (lit "hello") (lit "world")
    (by decide +kernel) (by decide) (by decide) (by decide) (by decide +kernel) (by decide) ?_
    (fun _ _ _ => rfl) rfl
  rintro username password hauth
  cases hauth
  decide

end Resocks5.Inbound
