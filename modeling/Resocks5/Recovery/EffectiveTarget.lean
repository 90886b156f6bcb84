import Resocks5.Inbound.AuthSound
import Resocks5.Recovery.HostDecided

namespace Resocks5.Recovery

open Resocks5.Foundation
open Resocks5.Inbound
open Resocks5.Net
open Prog

/-! The target that a recovered host makes. -/

/-- The port of `IPv4:port`. -/
def ipv4LiteralPort (target : Bytes) : Option Bytes :=
  (rsplitOnce 0x3A target).bind fun (host, port) =>
    if (parseIpv4 host).isSome then some port else none

/-- What the dialer gets for a first payload. -/
def effectiveTarget (buf target port : Bytes) : Bytes :=
  match recoverHost buf with
  | some host => host ++ 0x3A :: port
  | none => target

/-- A name that stands before a port as it is: printable, and no colon but in an IPv6 address
without brackets. -/
structure PlainName (host : Bytes) : Prop where
  clean : ∀ b ∈ host, isUnprintable b = false
  bracket : host.head? ≠ some 0x5B
  colon : (0x3A : UInt8) ∈ host → (parseIpv6 host).isSome = true

/-- The name in the ClientHello of a payload is plain, or where there is none that of the first
`Host` line. -/
structure PlainPayload (buf : Bytes) : Prop where
  sni : ∀ name, parseSni buf = some name → PlainName name
  http : parseSni buf = none → ∀ host, NamesHost host buf → PlainName host

theorem ipv6_bracket {host : Bytes} (hhost : (parseIpv6 host).isSome = true) :
    (0x5B : UInt8) ∉ host := by
  obtain ⟨addr, hparse⟩ := Option.isSome_iff_exists.mp hhost
  intro hmem
  exact absurd (parseIpv6_bytes hparse _ hmem) (by decide)

theorem parse_name {host port : Bytes} (hne : host ≠ []) (hport : (0x3A : UInt8) ∉ port)
    {p : UInt16} (hp : parseU16 port = some p) :
    HostPort.parse (host ++ 0x3A :: port) = some ⟨host, p⟩ ↔
      host.head? ≠ some 0x5B ∧ ((0x3A : UInt8) ∈ host → (parseIpv6 host).isSome = true) := by
  obtain ⟨b, tail, rfl⟩ := List.exists_cons_of_ne_nil hne
  by_cases hb : b = 0x5B
  · subst hb
    refine ⟨fun hparse => ?_, fun h => absurd rfl h.1⟩
    rw [List.cons_append, HostPort.parse] at hparse
    obtain ⟨⟨inner, after⟩, hsplit, hrest⟩ := Option.bind_eq_some_iff.mp hparse
    dsimp only at hrest
    split at hrest
    · cases hrest
    · rename_i hsome
      obtain ⟨text, _, htext⟩ := Option.bind_eq_some_iff.mp hrest
      obtain ⟨_, _, hpair⟩ := Option.map_eq_some_iff.mp htext
      obtain ⟨rfl, _⟩ := HostPort.mk.inj hpair
      exact absurd List.mem_cons_self
        (ipv6_bracket (by simpa [Option.isSome_iff_ne_none] using hsome))
  · have hhead : (b :: tail).head? ≠ some 0x5B := fun h => hb (Option.some.inj h)
    have hplain : HostPort.parse (b :: tail ++ 0x3A :: port) =
        (rsplitOnce 0x3A (b :: tail ++ 0x3A :: port)).bind fun (host, port) =>
          if host.contains 0x3A then
            if (parseIpv6 host).isNone then none
            else (parseU16 port).map fun port => ⟨host, port⟩
          else if host.isEmpty then none
          else (parseU16 port).map fun port => ⟨host, port⟩ := by
      rw [List.cons_append, HostPort.parse]
      exact fun rest heq => hb (List.cons.inj heq).1
    rw [hplain, rsplitOnce_append hport, Option.bind_some]
    dsimp only
    rw [hp]
    by_cases hcolon : (0x3A : UInt8) ∈ b :: tail
    · rw [if_pos (List.contains_iff_mem.mpr hcolon)]
      cases hsix : parseIpv6 (b :: tail) with
      | none => simp [hcolon]
      | some addr => simp [hb]
    · rw [if_neg (fun hcontains => hcolon (List.contains_iff_mem.mp hcontains))]
      simp [hb, hcolon]

theorem ipv4LiteralPort_parse {target port : Bytes} (hport : ipv4LiteralPort target = some port)
    {pair : HostPort} (hparse : HostPort.parse target = some pair) :
    (0x3A : UInt8) ∉ port ∧ parseU16 port = some pair.port ∧ ∀ b ∈ port, b ∈ target := by
  obtain ⟨⟨host, tail⟩, hsplit, hrest⟩ := Option.bind_eq_some_iff.mp hport
  obtain ⟨rfl, hcolon⟩ := rsplitOnce_eq_some.mp hsplit
  dsimp only at hrest
  split at hrest
  · rename_i haddress
    obtain rfl := Option.some.inj hrest
    obtain ⟨addr, haddr⟩ := Option.isSome_iff_exists.mp haddress
    refine ⟨hcolon, ?_, fun b hb => List.mem_append_right _ (List.mem_cons_of_mem _ hb)⟩
    obtain ⟨other, hbracket, _⟩ | ⟨other, hplain, hother, _, _, _, hp⟩ :=
      HostPort.parse_cases hparse
    · exfalso
      cases host with
      | nil => cases haddr
      | cons b host =>
          obtain ⟨rfl, _⟩ := List.cons.inj hbracket
          exact absurd (parseIpv4_bytes haddr _ List.mem_cons_self) (by decide)
    · have hsame := congrArg (rsplitOnce 0x3A) hplain
      rw [rsplitOnce_append hcolon, rsplitOnce_append hother] at hsame
      obtain ⟨_, rfl⟩ := Prod.mk.inj (Option.some.inj hsame)
      exact hp
  · cases hrest

theorem serverNames_ne_nil {fuel : Nat} {list name : Bytes}
    (hname : serverNames fuel list = some name) : name ≠ [] := by
  induction fuel generalizing list with
  | zero => cases hname
  | succ fuel ih =>
      match list, hname with
      | [], hname => cases hname
      | [_], hname => cases hname
      | [_, _], hname => cases hname
      | nameType :: high :: low :: rest, hname =>
          rw [serverNames] at hname
          split at hname
          · cases hname
          · split at hname
            · dsimp only at hname
              split at hname
              · rename_i hsome
                obtain rfl := Option.some.inj hname
                simp only [Bool.and_eq_true, Bool.not_eq_true', List.isEmpty_eq_false_iff] at hsome
                simpa using hsome.2
              · cases hname
            · exact ih hname

theorem sniExtension_ne_nil {fuel : Nat} {extensions name : Bytes}
    (hname : sniExtension fuel extensions = some name) : name ≠ [] := by
  induction fuel generalizing extensions with
  | zero => cases hname
  | succ fuel ih =>
      match extensions, hname with
      | [], hname => cases hname
      | [_], hname => cases hname
      | [_, _], hname => cases hname
      | [_, _, _], hname => cases hname
      | typeHigh :: typeLow :: high :: low :: rest, hname =>
          rw [sniExtension] at hname
          split at hname
          · cases hname
          · split at hname
            · unfold parseServerNameExt at hname
              split at hname
              · split at hname
                · cases hname
                · exact serverNames_ne_nil hname
              · cases hname
            · exact ih hname

theorem parseSni_ne_nil {buf name : Bytes} (hname : parseSni buf = some name) : name ≠ [] := by
  rw [parseSni] at hname
  split at hname
  · cases hname
  · obtain ⟨message, _, hname⟩ := Option.bind_eq_some_iff.mp hname
    unfold parseHandshake at hname
    split at hname
    · split at hname
      · cases hname
      · obtain ⟨extensions, _, hname⟩ := Option.bind_eq_some_iff.mp hname
        exact sniExtension_ne_nil hname
    · cases hname

theorem hostOf_ne_nil {value host : Bytes} (hhost : hostOf value = some host) : host ≠ [] := by
  rw [hostOf] at hhost
  split at hhost
  · cases hhost
  · dsimp only at hhost
    split at hhost
    · cases hhost
    · rename_i hval
      obtain rfl := Option.some.inj hhost
      rw [Ne, List.map_eq_nil_iff]
      split
      · split
        · rename_i hsome
          simp only [Bool.and_eq_true, Bool.not_eq_true', List.isEmpty_eq_false_iff] at hsome
          exact hsome.1
        · simpa using hval
      · simpa using hval

theorem hostHeader_ne_nil {fuel : Nat} {headers host : Bytes}
    (hhost : hostHeader fuel headers = some host) : host ≠ [] := by
  induction fuel generalizing headers with
  | zero => cases hhost
  | succ fuel ih =>
      rw [hostHeader] at hhost
      split at hhost
      · cases hhost
      · split at hhost
        · cases hhost
        · split at hhost
          · exact ih hhost
          · split at hhost
            · exact hostOf_ne_nil hhost
            · exact ih hhost

theorem recoverHost_ne_nil {buf host : Bytes} (hhost : recoverHost buf = some host) :
    host ≠ [] := by
  rw [recoverHost] at hhost
  cases hsni : parseSni buf with
  | some name =>
      rw [hsni] at hhost
      obtain rfl := Option.some.inj hhost
      exact parseSni_ne_nil hsni
  | none =>
      rw [hsni, Option.none_or] at hhost
      obtain ⟨⟨request, headers⟩, _, hhost⟩ := Option.bind_eq_some_iff.mp hhost
      dsimp only at hhost
      split at hhost
      · exact hostHeader_ne_nil hhost
      · cases hhost

theorem plainPayload_iff {buf host : Bytes} (hhost : recoverHost buf = some host) :
    PlainPayload buf ↔ PlainName host := by
  rw [recoverHost, Option.or_eq_some_iff] at hhost
  obtain hsni | ⟨hnone, hhttp⟩ := hhost
  · refine ⟨fun hplain => hplain.sni host hsni,
      fun hplain => ⟨fun name hname => ?_, fun hnone => ?_⟩⟩
    · obtain rfl := Option.some.inj (hsni.symm.trans hname)
      exact hplain
    · rw [hsni] at hnone
      cases hnone
  · rw [parseHttpHost_names] at hhttp
    refine ⟨fun hplain => hplain.http hnone host hhttp,
      fun hplain => ⟨fun name hname => ?_, fun _ other hother => ?_⟩⟩
    · rw [hnone] at hname
      cases hname
    · rw [← parseHttpHost_names] at hhttp hother
      obtain rfl := Option.some.inj (hhttp.symm.trans hother)
      exact hplain

/-- After a request for an IPv4 address that was accepted, the target made of a recovered host is
clean and means this host and port exactly if the payload carries a plain name. -/
theorem recovered_target (base64 : Base64) (options : ServerOptions)
    {events : List (Event Credentials)} {request : IncomingRequest}
    (hruns : Runs (accept base64 options) events (ok request)) {port : Bytes}
    (hport : ipv4LiteralPort request.target = some port) {buf host : Bytes}
    (hhost : recoverHost buf = some host) :
    ∃ ip p, HostPort.parse request.target = some ⟨ip, p⟩ ∧
      (((∀ b ∈ effectiveTarget buf request.target port, isUnprintable b = false) ∧
        HostPort.parse (effectiveTarget buf request.target port) = some ⟨host, p⟩) ↔
          PlainPayload buf) := by
  obtain ⟨_, _, ⟨hparse, hclean⟩, _⟩ := (accept_safe base64 options).runs hruns
  obtain ⟨⟨ip, p⟩, hpair⟩ := Option.isSome_iff_exists.mp hparse
  obtain ⟨hcolon, hp, htail⟩ := ipv4LiteralPort_parse hport hpair
  have htarget : effectiveTarget buf request.target port = host ++ 0x3A :: port := by
    rw [effectiveTarget, hhost]
  refine ⟨ip, p, hpair, ?_⟩
  rw [plainPayload_iff hhost, htarget, parse_name (recoverHost_ne_nil hhost) hcolon hp]
  constructor
  · rintro ⟨hprintable, hbracket, hsix⟩
    exact ⟨fun b hb => hprintable b (List.mem_append_left _ hb), hbracket, hsix⟩
  · rintro ⟨hprintable, hbracket, hsix⟩
    refine ⟨fun b hb => ?_, hbracket, hsix⟩
    obtain hb | hb := List.mem_append.mp hb
    · exact hprintable b hb
    · obtain rfl | hb := List.mem_cons.mp hb
      · decide
      · exact hclean b (htail b hb)

def addressEvents : List (Event Credentials) :=
  [.take [5], .take [1], .take [0], .put [5, 0], .take [5, 1, 0, 1], .take [1, 2, 3, 4],
    .take [0, 80]]

def addressOptions : ServerOptions := ⟨true, false, false, false, false⟩

def addressRequest : IncomingRequest := ⟨.socks5, lit "1.2.3.4:80", none, none, none, []⟩

theorem address_runs :
    Runs (accept Base64.standard addressOptions) addressEvents (ok addressRequest) :=
  .cons (.read (by decide) (by decide)) <| .cons (.fill (by decide) (by decide)) <|
    .cons (.fill (by decide) (by decide)) <| .cons (.putAll _ _) <|
    .cons (.fill (by decide) (by decide)) <| .cons (.fill (by decide) (by decide)) <|
    .cons (.fill (by decide) (by decide)) <| .nil _

def plainPayload : Bytes := lit "GET / HTTP/1.1\r\nA: b\r\nHost: A.b:8080\r\n\r\n"

/-- A plain name comes through, in lower case and without its own port. -/
theorem recovered_target_plain :
    effectiveTarget plainPayload addressRequest.target (lit "80") = lit "a.b:80" ∧
      (∀ b ∈ effectiveTarget plainPayload addressRequest.target (lit "80"),
        isUnprintable b = false) ∧
      ∃ p, HostPort.parse (effectiveTarget plainPayload addressRequest.target (lit "80")) =
        some ⟨lit "a.b", p⟩ := by
  have hhost : recoverHost plainPayload = some (lit "a.b") := by decide +kernel
  have hname : PlainName (lit "a.b") := ⟨by decide +kernel, by decide +kernel, by decide +kernel⟩
  obtain ⟨_, p, _, htarget⟩ := recovered_target Base64.standard addressOptions address_runs
    (show ipv4LiteralPort addressRequest.target = some (lit "80") by decide +kernel) hhost
  obtain ⟨hclean, hparse⟩ := htarget.mpr ((plainPayload_iff hhost).mpr hname)
  exact ⟨by decide +kernel, hclean, p, hparse⟩

/-- A blank inside a `Host` value, and an address in brackets. -/
theorem recovered_target_blank :
    Runs (accept Base64.standard addressOptions) addressEvents (ok addressRequest) ∧
    ipv4LiteralPort addressRequest.target = some (lit "80") ∧
    recoverHost (lit "GET / HTTP/1.1\r\nHost: a b\r\n\r\n") = some (lit "a b") ∧
    (∃ b ∈ effectiveTarget (lit "GET / HTTP/1.1\r\nHost: a b\r\n\r\n") addressRequest.target
      (lit "80"), isUnprintable b = true) ∧
    recoverHost (lit "GET / HTTP/1.1\r\nHost: [::1]:8\r\n\r\n") = some (lit "[::1]") ∧
    HostPort.parse (effectiveTarget (lit "GET / HTTP/1.1\r\nHost: [::1]:8\r\n\r\n")
      addressRequest.target (lit "80")) = some ⟨lit "::1", 80⟩ :=
  ⟨address_runs, by decide +kernel, by decide +kernel, by decide +kernel, by decide +kernel,
    by decide +kernel⟩

end Resocks5.Recovery
