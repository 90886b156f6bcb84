import Resocks5.Foundation.Prog
import Resocks5.Net.HostPort
import Resocks5.Types.ConnectError

namespace Resocks5.Connect

open Resocks5.Foundation
open Resocks5.Net
open Resocks5.Types
open Prog

/-! The SOCKS5 side of the client. -/

abbrev ClientProg := Prog Empty ConnectError

def violation {α : Type} (violation : ProtocolViolation) : ClientProg α :=
  fail (.protocol violation)

def negotiate (method : UInt8) : ClientProg Unit := do
  writeAll [5, 1, method]
  let response ← readExact 2
  if response.getD 0 0 ≠ 5 then violation (.socks5BadVersion (response.getD 0 0))
  else if response.getD 1 0 ≠ method then
    fail (.methodUnsupported (response.getD 1 0) (method == 2))
  else return ()

/-- RFC 1929. -/
def sendCredentials (username password : Bytes) : ClientProg Unit := do
  if 255 < username.length ∨ 255 < password.length then
    violation (.socks5CredentialsTooLong username.length password.length)
  else do
    writeAll (1 :: username.length.toUInt8 :: username ++ password.length.toUInt8 :: password)
    let response ← readExact 2
    if response.getD 0 0 ≠ 1 then violation (.socks5BadAuthVersion (response.getD 0 0))
    else if response.getD 1 0 ≠ 0 then fail (.authFailed (response.getD 1 0))
    else return ()

def Ipv4.octets (addr : Ipv4) : Bytes := [addr.a, addr.b, addr.c, addr.d]

def octets16 (value : UInt16) : Bytes := [(value >>> 8).toUInt8, value.toUInt8]

def Ipv6.octets (addr : Ipv6) : Bytes := addr.segments.flatMap octets16

/-- Address type and address; `Err` of a length for a domain that is too long. -/
def address (host : Bytes) : Except Nat Bytes :=
  match parseIpv4 host with
  | some addr => .ok (1 :: Ipv4.octets addr)
  | none =>
    match parseIpv6 host with
    | some addr => .ok (4 :: Ipv6.octets addr)
    | none =>
      if 255 < host.length then .error host.length
      else .ok (3 :: host.length.toUInt8 :: host)

def readBound (atyp : UInt8) : ClientProg Unit :=
  if atyp = 1 then do
    let _ ← readExact 6
    return ()
  else if atyp = 3 then do
    let len ← readU8
    if len = 0 then violation .socks5EmptyBoundDomain
    else do
      let _ ← readExact (len.toNat + 2)
      return ()
  else if atyp = 4 then do
    let _ ← readExact 18
    return ()
  else violation (.socks5UnknownAddressType atyp)

def readReply : ClientProg Unit := do
  let header ← readExact 4
  if header.getD 0 0 ≠ 5 then violation (.socks5BadVersion (header.getD 0 0))
  else if header.getD 1 0 ≠ 0 then
    fail (.proxyRejected .socks5 (some (header.getD 1 0).toUInt16) [])
  else if header.getD 2 0 ≠ 0 then violation (.socks5BadReserved (header.getD 2 0))
  else readBound (header.getD 3 0)

def socks5Handshake (host : Bytes) (port : UInt16) (auth : Option (Bytes × Bytes)) :
    ClientProg Unit := do
  if host.isEmpty ∨ port = 0 then fail (.invalidTarget (HostPort.format host port))
  else do
    match auth with
    | some (username, password) => do
      negotiate 2
      sendCredentials username password
    | none => negotiate 0
    match address host with
    | .error len => violation (.socks5DomainTooLong len)
    | .ok addr => do
      writeAll (5 :: 1 :: 0 :: addr ++ octets16 port)
      readReply

def handshakeOverStream (targetAddr : Bytes) (auth : Option (Bytes × Bytes)) :
    ClientProg Unit :=
  match HostPort.parse targetAddr with
  | none => fail (.invalidTarget targetAddr)
  | some parsed => socks5Handshake parsed.host parsed.port auth

end Resocks5.Connect
