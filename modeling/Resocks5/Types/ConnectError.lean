import Resocks5.Types.ProxyConfig
import Resocks5.Foundation.Timed

namespace Resocks5.Types

open Resocks5.Foundation

inductive Stage where
  | connect
  | handshake
  | total
  deriving DecidableEq, Repr

inductive TimeoutKind where
  | tcpConnect
  | socks5Handshake
  | httpHandshake
  | httpsTlsHandshake
  | httpsConnectHandshake
  | total
  deriving DecidableEq, Repr

inductive ProtocolViolation where
  | socks5BadVersion (got : UInt8)
  | socks5BadAuthVersion (got : UInt8)
  | socks5UnknownAddressType (got : UInt8)
  | socks5BadReserved (got : UInt8)
  | socks5EmptyBoundDomain
  | socks5DomainTooLong (len : Nat)
  | socks5CredentialsTooLong (usernameLen passwordLen : Nat)
  | httpInvalidConnectTarget
  | httpResponseTooLarge
  | httpClosedEarly
  deriving DecidableEq, Repr

/-- The I/O error behind `io` and `tls` is left out: nothing classifies it. -/
inductive ConnectError where
  | timeout (stage : Stage) (kind : TimeoutKind) (endpoint : Bytes) (after : Duration)
  | io (stage : Stage) (endpoint : Option Bytes)
  | proxyRejected (protocol : ProxyProtocol) (code : Option UInt16) (response : Bytes)
  | authFailed (status : UInt8)
  | methodUnsupported (got : UInt8) (withAuth : Bool)
  | protocol (violation : ProtocolViolation)
  | invalidTarget (target : Bytes)
  | tlsFeatureMissing (host : Bytes)
  | tls (message : Bytes)
  | atCapacity (host : Bytes) (port : UInt16)
  deriving DecidableEq, Repr

namespace ConnectError

def isUpstreamDown : ConnectError → Bool
  | .timeout _ kind _ _ => kind == .tcpConnect || kind == .httpsTlsHandshake
  | .io stage _ => stage == .connect
  | .authFailed _ | .methodUnsupported _ _ => true
  | .protocol (.socks5BadVersion _) | .protocol (.socks5BadAuthVersion _) => true
  | .tls _ => true
  | _ => false

/-- Capacity limits describe local load, not upstream health. -/
def countsAgainstUpstream : ConnectError → Bool
  | .atCapacity _ _ => false
  | _ => true

end ConnectError

/-- Which step of a chain failed; nodes are numbered from the outermost. -/
inductive ChainStage where
  | connect
  | hop (n : Nat)
  | target
  deriving DecidableEq, Repr

structure ChainError where
  stage : ChainStage
  error : ConnectError
  deriving DecidableEq, Repr

end Resocks5.Types
