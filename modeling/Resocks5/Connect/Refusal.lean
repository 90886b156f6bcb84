import Resocks5.Connect.ConnectResponse

namespace Resocks5.Connect

open Resocks5.Foundation
open Resocks5.Net
open Resocks5.Types
open Prog

/-! What the client refuses by itself. -/

def refusesTarget : ConnectError → Bool
  | .invalidTarget _ => true
  | .protocol (.socks5DomainTooLong _) => true
  | .protocol .httpInvalidConnectTarget => true
  | _ => false

def isLocal : ConnectError → Bool
  | .protocol (.socks5CredentialsTooLong _ _) => true
  | error => refusesTarget error

theorem isLocal_of_refusesTarget {error : ConnectError} (hrefuses : refusesTarget error = true) :
    isLocal error = true := by
  unfold isLocal
  split
  · rfl
  · exact hrefuses

theorem address_error {host : Bytes} {len : Nat} :
    address host = .error len ↔ ¬ HostPort.Spellable host ∧ len = host.length := by
  unfold address HostPort.Spellable
  cases hv4 : parseIpv4 host with
  | some addr => simp
  | none =>
      cases hv6 : parseIpv6 host with
      | some addr => simp
      | none =>
          dsimp only
          split
          · rename_i hlong
            simp [Nat.not_le.mpr hlong, eq_comm]
          · rename_i hshort
            simp [Nat.not_lt.mp hshort]

section

variable {bad : ConnectError → Prop} (hbad : ∀ error, bad error → isLocal error = true)

include hbad

theorem never_remote {α : Type} {error : ConnectError} (hremote : isLocal error = false) :
    (fail error : ClientProg α).Never bad := by
  intro herror
  rw [hbad error herror] at hremote
  cases hremote

theorem negotiate_never (method : UInt8) : (negotiate method).Never bad := by
  simp only [negotiate, writeAll, readExact, write_bind, exact_bind, ok_bind]
  intro response _
  dsimp only
  split
  · exact never_remote hbad rfl
  · split
    · exact never_remote hbad rfl
    · trivial

theorem sendCredentials_never {username password : Bytes}
    (hshort : bad (.protocol (.socks5CredentialsTooLong username.length password.length)) →
      username.length ≤ 255 ∧ password.length ≤ 255) :
    (sendCredentials username password).Never bad := by
  rw [sendCredentials]
  split
  · rename_i hlong
    intro herror
    obtain ⟨huser, hpassword⟩ := hshort herror
    omega
  · simp only [writeAll, readExact, write_bind, exact_bind, ok_bind]
    intro response _
    dsimp only
    split
    · exact never_remote hbad rfl
    · split
      · exact never_remote hbad rfl
      · trivial

theorem readReply_never : readReply.Never bad := by
  simp only [readReply, readExact, exact_bind, ok_bind]
  intro header _
  dsimp only
  split
  · exact never_remote hbad rfl
  · split
    · exact never_remote hbad rfl
    · split
      · exact never_remote hbad rfl
      · unfold readBound
        split
        · exact fun _ _ => trivial
        · split
          · simp only [readU8, exact_bind, ok_bind]
            intro len _
            dsimp only
            split
            · exact never_remote hbad rfl
            · exact fun _ _ => trivial
          · split
            · exact fun _ _ => trivial
            · exact never_remote hbad rfl

theorem socks5Handshake_never {host : Bytes} {port : UInt16} {auth : Option (Bytes × Bytes)}
    (htarget : bad (.invalidTarget (HostPort.format host port)) → host ≠ [] ∧ port ≠ 0)
    (hauth : ∀ username password, auth = some (username, password) →
      bad (.protocol (.socks5CredentialsTooLong username.length password.length)) →
      username.length ≤ 255 ∧ password.length ≤ 255)
    (hname : port ≠ 0 → bad (.protocol (.socks5DomainTooLong host.length)) →
      HostPort.Spellable host) :
    (socks5Handshake host port auth).Never bad := by
  have hlong : port ≠ 0 → ∀ len, address host = .error len →
      ¬ bad (.protocol (.socks5DomainTooLong len)) := by
    intro hport len haddress herror
    obtain ⟨hlong, rfl⟩ := address_error.mp haddress
    exact hlong (hname hport herror)
  unfold socks5Handshake
  split
  · rename_i hinvalid
    intro herror
    obtain ⟨hhost, hport⟩ := htarget herror
    rw [List.isEmpty_iff] at hinvalid
    exact hinvalid.elim hhost hport
  · rename_i hvalid
    have hport : port ≠ 0 := fun hzero => hvalid (.inr hzero)
    cases auth with
    | none =>
        refine (negotiate_never hbad 0).bind fun _ => ?_
        split
        · rename_i len haddress
          exact hlong hport len haddress
        · exact readReply_never hbad
    | some pair =>
        obtain ⟨username, password⟩ := pair
        refine (negotiate_never hbad 2).bind fun _ => ?_
        refine (sendCredentials_never hbad (hauth username password rfl)).bind fun _ => ?_
        split
        · rename_i len haddress
          exact hlong hport len haddress
        · exact readReply_never hbad

end

theorem writeConnectRequest_clean (base64 : Base64) {target : Bytes}
    (hclean : ∀ b ∈ target, isUnprintable b = false) (proxy : ProxyNode) :
    writeConnectRequest base64 target proxy = writeAll (connectRequest base64 target proxy) := by
  rw [writeConnectRequest, if_neg]
  simpa using hclean

end Resocks5.Connect
