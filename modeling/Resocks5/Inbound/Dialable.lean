import Resocks5.Connect.Refusal
import Resocks5.Inbound.AuthSound
import Resocks5.Rating.Selection
import Resocks5.Session.Rotator

namespace Resocks5.Inbound

open Resocks5.Connect
open Resocks5.Foundation
open Resocks5.Net
open Resocks5.Rating
open Resocks5.Session
open Resocks5.Types
open Prog

/-! Accepted targets on their way out. -/

/-- An encoder ends in an error, with any credentials and against any upstream. A dialed pair is
spelled again. -/
inductive Fails (base64 : Base64) (target : Bytes) (error : ConnectError) : Prop
  | socks5 (auth : Option (Bytes × Bytes)) (events : List (Event Empty))
      (hruns : Runs (handshakeOverStream target auth) events (fail error))
  | http (proxy : ProxyNode) (events : List (Event Empty))
      (hruns : Runs (writeConnectRequest base64 target proxy) events (fail error))
  | dialed (pair : HostPort) (proxy : ProxyNode) (events : List (Event Empty))
      (hparse : HostPort.parse target = some pair)
      (hruns : Runs (writeConnectRequest base64 (HostPort.format pair.host pair.port) proxy)
        events (fail error))

def Refused (base64 : Base64) (target : Bytes) (error : ConnectError) : Prop :=
  refusesTarget error = true ∧ Fails base64 target error

/-- How the two refusals of an accepted target come about. -/
def Undialable (host : Bytes) (port : UInt16) (error : ConnectError) : Prop :=
  (port = 0 ∧ error = .invalidTarget (HostPort.format host port)) ∨
    (port ≠ 0 ∧ ¬ HostPort.Spellable host ∧
      error = .protocol (.socks5DomainTooLong host.length))

theorem format_clean {host : Bytes} (hclean : ∀ b ∈ host, isUnprintable b = false)
    (port : UInt16) : ∀ b ∈ HostPort.format host port, isUnprintable b = false := by
  intro b hb
  have hport : ∀ b ∈ render 10 port.toNat, isUnprintable b = false := fun b hb =>
    targetByte_clean b (targetByte_port b hb)
  unfold HostPort.format at hb
  split at hb
  · simp only [List.cons_append, List.mem_cons, List.mem_append] at hb
    obtain rfl | hb | rfl | rfl | hb := hb
    · rfl
    · exact hclean b hb
    · rfl
    · rfl
    · exact hport b hb
  · rw [List.mem_append, List.mem_cons] at hb
    obtain hb | rfl | hb := hb
    · exact hclean b hb
    · rfl
    · exact hport b hb

theorem handshakeOverStream_parsed {target : Bytes} {pair : HostPort}
    (hparse : HostPort.parse target = some pair) (auth : Option (Bytes × Bytes)) :
    handshakeOverStream target auth = socks5Handshake pair.host pair.port auth := by
  rw [handshakeOverStream, hparse]

section

variable {base64 : Base64} {target : Bytes} {pair : HostPort} {error : ConnectError}
  (hparse : HostPort.parse target = some pair)

include hparse

theorem refused_socks5 (hclean : ∀ b ∈ target, isUnprintable b = false)
    (hfails : Fails base64 target error) :
    ∃ auth events, Runs (socks5Handshake pair.host pair.port auth) events (fail error) := by
  have hsent : ∀ {bytes : Bytes} {events : List (Event Empty)},
      ¬ Runs (writeAll bytes : ClientProg Unit) events (fail error) := by
    intro bytes events hruns
    have hnever : (writeAll bytes : ClientProg Unit).Never fun _ => True := trivial
    exact hnever.runs hruns trivial
  cases hfails with
  | socks5 auth events hruns =>
      rw [handshakeOverStream_parsed hparse] at hruns
      exact ⟨auth, events, hruns⟩
  | http proxy events hruns =>
      rw [writeConnectRequest_clean base64 hclean] at hruns
      exact absurd hruns hsent
  | dialed other proxy events hother hruns =>
      have hhost : ∀ b ∈ other.host, isUnprintable b = false := fun b hb =>
        hclean b ((HostPort.parse_infix hother).subset hb)
      rw [writeConnectRequest_clean base64 (format_clean hhost other.port)] at hruns
      exact absurd hruns hsent

theorem undialable_of_refused (hclean : ∀ b ∈ target, isUnprintable b = false)
    (hrefused : Refused base64 target error) : Undialable pair.host pair.port error := by
  obtain ⟨hrefuses, hfails⟩ := hrefused
  obtain ⟨auth, events, hruns⟩ := refused_socks5 hparse hclean hfails
  have hnever : (socks5Handshake pair.host pair.port auth).Never fun error =>
      refusesTarget error = true ∧ ¬ Undialable pair.host pair.port error := by
    refine socks5Handshake_never (fun error hbad => isLocal_of_refusesTarget hbad.1) ?_ ?_ ?_
    · rintro ⟨_, hdialable⟩
      exact ⟨HostPort.parse_ne_nil hparse, fun hzero => hdialable (.inl ⟨hzero, rfl⟩)⟩
    · rintro username password _ ⟨hcredentials, _⟩
      cases hcredentials
    · rintro hport ⟨_, hdialable⟩
      by_contra hlong
      exact hdialable (.inr ⟨hport, hlong, rfl⟩)
  by_contra hdialable
  exact hnever.runs hruns ⟨hrefuses, hdialable⟩

theorem refused_of_undialable (hundialable : Undialable pair.host pair.port error) :
    Refused base64 target error := by
  obtain ⟨hzero, rfl⟩ | ⟨hport, hlong, rfl⟩ := hundialable
  · refine ⟨rfl, .socks5 none [] ?_⟩
    rw [handshakeOverStream_parsed hparse, socks5Handshake, if_pos (.inr hzero)]
    exact .nil _
  · have hhost : ¬ (pair.host.isEmpty ∨ pair.port = 0) := by
      rw [List.isEmpty_iff]
      exact fun hinvalid => hinvalid.elim (HostPort.parse_ne_nil hparse) hport
    refine ⟨rfl, .socks5 none [.put [5, 1, 0], .take [5, 0]] ?_⟩
    rw [handshakeOverStream_parsed hparse, socks5Handshake, if_neg hhost,
      address_error.mpr ⟨hlong, rfl⟩]
    exact .cons (.putAll _ _) (.cons (.fill (by decide) (by decide)) (.nil _))

end

theorem undialable_soft {host : Bytes} {port : UInt16} {error : ConnectError} {ρ : Type u}
    (hundialable : Undialable host port error) (arith : FloatArith) (rotator : Rotator ρ)
    (proxy : ProxyConfig) (now : Instant) :
    rotator.recordError arith proxy error now = (none, rotator.recordFailure arith proxy now) := by
  obtain ⟨_, rfl⟩ | ⟨_, _, rfl⟩ := hundialable
  · rfl
  · rfl

/-- An accepted target is refused by an encoder for port zero, or for a name that SOCKS5 cannot
spell and only HTTP can bring, and for nothing else; either costs the upstream a soft failure. -/
theorem accepted_dialable (base64 : Base64) (options : ServerOptions)
    {events : List (Event Credentials)} {request : IncomingRequest}
    (hruns : Runs (accept base64 options) events (ok request)) :
    ∃ host port, HostPort.parse request.target = some ⟨host, port⟩ ∧
      (request.protocol = .socks5 → HostPort.Spellable host) ∧
      (∀ error, Refused base64 request.target error ↔ Undialable host port error) ∧
      ∀ error, Refused base64 request.target error → ∀ (ρ : Type) (arith : FloatArith)
        (rotator : Rotator ρ) (proxy : ProxyConfig) (now : Instant),
        rotator.recordError arith proxy error now =
          (none, rotator.recordFailure arith proxy now) := by
  obtain ⟨_, _, ⟨hparse, hclean⟩, hspelled⟩ := (accept_safe base64 options).runs hruns
  obtain ⟨⟨host, port⟩, hparse⟩ := Option.isSome_iff_exists.mp hparse
  refine ⟨host, port, hparse, fun hsocks => hspelled hsocks _ hparse, fun error => ⟨?_, ?_⟩, ?_⟩
  · exact undialable_of_refused hparse hclean
  · exact refused_of_undialable hparse
  · intro error hrefused ρ arith rotator proxy now
    exact undialable_soft (undialable_of_refused hparse hclean hrefused) arith rotator proxy now

def portZeroEvents : List (Event Credentials) :=
  [.take [5], .take [1], .take [0], .put [5, 0], .take [5, 1, 0, 3], .take [1], .take [0x68],
    .take [0, 0]]

def portZeroOptions : ServerOptions := ⟨true, false, false, false, false⟩

def portZeroRequest : IncomingRequest := ⟨.socks5, lit "h:0", none, none, none, []⟩

theorem portZero_runs :
    Runs (accept Base64.standard portZeroOptions) portZeroEvents (ok portZeroRequest) :=
  .cons (.read (by decide) (by decide)) <| .cons (.fill (by decide) (by decide)) <|
    .cons (.fill (by decide) (by decide)) <| .cons (.putAll _ _) <|
    .cons (.fill (by decide) (by decide)) <| .cons (.fill (by decide) (by decide)) <|
    .cons (.fill (by decide) (by decide)) <| .cons (.fill (by decide) (by decide)) <| .nil _

theorem accepted_dialable_port_zero :
    ∃ host port, HostPort.parse portZeroRequest.target = some ⟨host, port⟩ ∧
      ∀ error, Refused Base64.standard portZeroRequest.target error ↔ Undialable host port error := by
  obtain ⟨host, port, hparse, _, hrefused, _⟩ :=
    accepted_dialable Base64.standard portZeroOptions portZero_runs
  exact ⟨host, port, hparse, hrefused⟩

def unaskedProxy : ProxyConfig := ⟨⟨.socks5, lit "p", 1080, none, none, 0⟩, []⟩

def unaskedRotator : Rotator UInt64 where
  proxies := [unaskedProxy]
  ratings := Ratings.fresh 1 ⟨.finite 30, .finite 1, .finite 8, .finite 1, .finite 1⟩
    ⟨1, 30, 600, 25, one_le_u32Max⟩ 0 7

/-- The upstream is not even asked, and pays for it. -/
theorem accepted_undialable :
    ∃ error, Runs (accept Base64.standard portZeroOptions) portZeroEvents (ok portZeroRequest) ∧
      Runs (handshakeOverStream portZeroRequest.target none) [] (fail error) ∧
      refusesTarget error = true ∧
      unaskedRotator.ratings.inner.cells.map Sand.level = [.finite 0] ∧
      (unaskedRotator.recordError Ratings.exactArith unaskedProxy error 0).2.ratings.inner.cells.map
        Sand.level = [.finite 1] := by
  refine ⟨.invalidTarget (lit "h:0"), portZero_runs, ?_, rfl, by decide +kernel, by decide +kernel⟩
  have hparse : HostPort.parse (lit "h:0") = some ⟨lit "h", 0⟩ := by decide +kernel
  have hformat : HostPort.format (lit "h") 0 = lit "h:0" := by decide +kernel
  have hhandshake := handshakeOverStream_parsed hparse none
  rw [socks5Handshake, if_pos (.inr rfl), hformat] at hhandshake
  have htarget : portZeroRequest.target = lit "h:0" := rfl
  rw [htarget, hhandshake]
  exact .nil _

end Resocks5.Inbound
