import Resocks5.Inbound.Request
import Resocks5.Net.HostPort

namespace Resocks5.Inbound

open Resocks5.Foundation
open Resocks5.Net

/-! Opt-in validation of the pieces of an HTTP CONNECT request. -/

namespace StrictHttp

inductive StrictViolation where
  | bad (reason : Bytes)
  | unsupported
  deriving DecidableEq, Repr

abbrev Verdict := Except StrictViolation

def bad {α : Type} (reason : String) : Verdict α := .error (.bad (lit reason))

def isTchar (b : UInt8) : Bool :=
  isAsciiAlphanumeric b || (lit "!#$%&'*+-.^_\x60|~").contains b

def isAuthorityHostByte (b : UInt8) : Bool :=
  isAsciiAlphanumeric b || (lit "-._~!$&'()*+,;=").contains b

/-- Authority-host bytes, and `%` with two hex digits. -/
def validAuthorityHost : Bytes → Bool
  | [] => true
  | 0x25 :: rest =>
    match rest with
    | high :: low :: rest =>
      isAsciiHexDigit high && isAsciiHexDigit low && validAuthorityHost rest
    | _ => false
  | b :: rest => isAuthorityHostByte b && validAuthorityHost rest

def validPortDigits (port : Bytes) : Bool :=
  !port.isEmpty && port.length ≤ 5 && port.all isAsciiDigit

/-- `uri-host [ ":" port ]`. -/
def validHostValue : Bytes → Bool
  | 0x5B :: rest =>
    match splitOnce 0x5D rest with
    | none => false
    | some (inside, after) =>
      if (parseIpv6 inside).isNone then false
      else
        match after with
        | 0x3A :: port => validPortDigits port
        | after => after.isEmpty
  | value =>
    match splitOnce 0x3A value with
    | some (host, port) => !host.isEmpty && validAuthorityHost host && validPortDigits port
    | none => !value.isEmpty && validAuthorityHost value

def words : Bytes → List Bytes
  | [] => [[]]
  | b :: rest =>
    if b = 0x20 then [] :: words rest
    else
      match words rest with
      | [] => [[b]]
      | word :: rest => (b :: word) :: rest

def isMalformedVersion (version : Bytes) : Bool :=
  version.length ≠ 8 || !(lit "HTTP/").isPrefixOf version ||
    !isAsciiDigit (version.getD 5 0) || version.getD 6 0 ≠ 0x2E ||
    !isAsciiDigit (version.getD 7 0)

def authorityPort : Bytes → Verdict Bytes
  | 0x5B :: rest =>
    match splitOnce 0x5D rest with
    | none => bad "strict HTTP: bare IPv6 authority"
    | some (inside, after) =>
      if (parseIpv6 inside).isNone then
        bad "strict HTTP: bracketed authority is not an IPv6 address"
      else
        match after with
        | 0x3A :: port => .ok port
        | _ => bad "strict HTTP: authority is missing a port"
  | target =>
    match rsplitOnce 0x3A target with
    | none => bad "strict HTTP: authority is missing a port"
    | some (host, port) =>
      if host.isEmpty then bad "strict HTTP: authority host is empty"
      else if host.contains 0x3A then bad "strict HTTP: bare IPv6 authority"
      else if !validAuthorityHost host then bad "strict HTTP: invalid authority host"
      else .ok port

def checkPort (port : Bytes) : Verdict Unit :=
  if port.isEmpty || 5 < port.length || !port.all isAsciiDigit then
    bad "strict HTTP: invalid authority port"
  else
    let value := numeralValue 10 port
    if 1 ≤ value ∧ value ≤ 65535 then .ok ()
    else bad "strict HTTP: invalid authority port"

structure Seen where
  hostCount : Nat
  hostValue : Option Bytes
  proxyAuthCount : Nat
  deriving DecidableEq, Repr

def checkHeader (line : Bytes) (seen : Seen) : Verdict Seen :=
  if line.head? = some 0x20 ∨ line.head? = some 0x09 then
    bad "strict HTTP: obsolete line folding"
  else
    match splitOnce 0x3A line with
    | none => bad "strict HTTP: header line is missing a colon"
    | some (name, value) =>
      if name.isEmpty then bad "strict HTTP: empty header field name"
      else if name.getLast? = some 0x20 ∨ name.getLast? = some 0x09 then
        bad "strict HTTP: whitespace before header colon"
      else if !name.all isTchar then bad "strict HTTP: invalid header field name"
      else if value.any fun b => (b < 0x20 && b != 0x09) || b == 0x7F then
        bad "strict HTTP: invalid header field value"
      else if name.map toAsciiLower = lit "host" then
        .ok { seen with hostCount := seen.hostCount + 1, hostValue := some (trimAscii value) }
      else if name.map toAsciiLower = lit "proxy-authorization" then
        .ok { seen with proxyAuthCount := seen.proxyAuthCount + 1 }
      else .ok seen

def checkHeaders : List Bytes → Seen → Verdict Seen
  | [], seen => .ok seen
  | line :: rest, seen => (checkHeader line seen).bind (checkHeaders rest)

def checkSeen (version : Bytes) (seen : Seen) : Verdict Unit :=
  if version = lit "HTTP/1.1" ∧ seen.hostCount = 0 then
    bad "strict HTTP: missing Host header"
  else if 1 < seen.hostCount then bad "strict HTTP: duplicate Host header"
  else if seen.hostValue.any (·.isEmpty) then bad "strict HTTP: empty Host header"
  else if seen.hostValue.any fun host => !(isUtf8 host && validHostValue host) then
    bad "strict HTTP: invalid Host header"
  else if 1 < seen.proxyAuthCount then
    bad "strict HTTP: duplicate Proxy-Authorization header"
  else .ok ()

/-- The method is checked elsewhere. -/
def validate (requestLine : Bytes) (headers : List Bytes) : Verdict Unit :=
  match words requestLine with
  | [method, target, version] =>
    if [method, target, version].any fun part =>
        part.isEmpty || part.any fun b => b == 0x09 || isAsciiControl b then
      bad "strict HTTP: malformed request line"
    else if isMalformedVersion version then bad "strict HTTP: malformed HTTP-version"
    else if version ≠ lit "HTTP/1.0" ∧ version ≠ lit "HTTP/1.1" then .error .unsupported
    else
      (authorityPort target).bind fun port =>
        (checkPort port).bind fun _ =>
          (checkHeaders headers ⟨0, none, 0⟩).bind (checkSeen version)
  | _ => bad "strict HTTP: malformed request line"

end StrictHttp

end Resocks5.Inbound
