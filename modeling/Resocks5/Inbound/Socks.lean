import Resocks5.Inbound.Request
import Resocks5.Net.HostPort

namespace Resocks5.Inbound

open Resocks5.Foundation
open Resocks5.Net
open Prog

/-! The SOCKS5 side of the server. -/

def authFailure : Bytes := [1, 1]

def hexByte (b : UInt8) : Bytes := [digitChar (b.toNat / 16), digitChar (b.toNat % 16)]

def authFail {α : Type} (message : Bytes) : ServerProg α := do
  writeAll authFailure
  fail (.authentication message)

def boolText (b : Bool) : Bytes := if b then lit "true" else lit "false"

/-- Password authentication first. -/
def chooseMethod (options : ServerOptions) (methods : Bytes) : Option UInt8 :=
  if options.password && methods.contains 2 then some 2
  else if options.anonymous && methods.contains 0 then some 0
  else none

/-- The text of a submitted field and, if it is not UTF-8 itself, its raw bytes. -/
def credentialText (raw : Bool) (field : Bytes) : Option (Bytes × Option Bytes) :=
  if isUtf8 field then some (field, none)
  else if raw then some (fromUtf8Lossy field, some field)
  else none

structure Identity where
  username : Option Bytes
  usernameRaw : Option Bytes
  retained : Option Credentials
  deriving DecidableEq, Repr

def Identity.unknown : Identity := ⟨none, none, none⟩

def verify (options : ServerOptions) (credentials : Credentials) : ServerProg Identity := do
  let granted ← call credentials
  if granted then do
    writeAll [1, 0]
    return ⟨some credentials.username, credentials.usernameRaw,
      if options.retainCredentials then some credentials else none⟩
  else do
    writeAll authFailure
    fail (.authentication (lit "SOCKS5 username/password authentication failed"))

def subnegotiate (options : ServerOptions) : ServerProg Identity := do
  let header ← readExact 2
  let version := header.getD 0 0
  let ulen := header.getD 1 0
  if version ≠ 1 then
    fail (.authentication (lit "Invalid auth subnegotiation version: " ++ hexByte version))
  else if ulen = 0 then
    authFail
      (lit "Zero-length username in auth subnegotiation (RFC 1929 requires 1-255 bytes)")
  else do
    let user ← readExact ulen.toNat
    let plen ← readU8
    if plen = 0 then
      authFail
        (lit "Zero-length password in auth subnegotiation (RFC 1929 requires 1-255 bytes)")
    else do
      let password ← readExact plen.toNat
      match credentialText options.rawCredentials user with
      | none => authFail (lit "Invalid UTF-8 in username")
      | some (username, usernameRaw) =>
        match credentialText options.rawCredentials password with
        | none => authFail (lit "Invalid UTF-8 in password")
        | some (password, passwordRaw) =>
          verify options ⟨username, password, usernameRaw, passwordRaw⟩

def refuse {α : Type} (rep : UInt8) (message : Message) : ServerProg α := do
  writeAll (socksReply rep)
  fail (.protocol message)

def readIpv4Target : ServerProg Bytes := do
  let ip ← readExact 4
  let port ← readU16
  let addr : Ipv4 := ⟨ip.getD 0 0, ip.getD 1 0, ip.getD 2 0, ip.getD 3 0⟩
  return addr.display ++ 0x3A :: render 10 port.toNat

/-- `Ipv6Addr::from`, two octets a segment. -/
def ipv6OfOctets (octets : Bytes) : Ipv6 where
  segments := (List.range 8).map fun i =>
    joinBytes (octets.getD (2 * i) 0) (octets.getD (2 * i + 1) 0)
  eight := by rw [List.length_map, List.length_range]

def readIpv6Target : ServerProg Bytes := do
  let ip ← readExact 16
  let port ← readU16
  return 0x5B :: (ipv6OfOctets ip).display ++ 0x5D :: 0x3A :: render 10 port.toNat

def readDomainTarget : ServerProg Bytes := do
  let len ← readU8
  let domain ← readExact len.toNat
  let port ← readU16
  if !isUtf8 domain then fail (.protocol (.utf8 domain))
  else
    let target := domain ++ 0x3A :: render 10 port.toNat
    if domain.isEmpty || domain.any isUnprintable || (HostPort.parse target).isNone then
      refuse 4 (.quoted (lit "Invalid DOMAINNAME in CONNECT request: ") domain)
    else return target

/-- The reserved byte is ignored. -/
def readTarget : ServerProg Bytes := do
  let header ← readExact 4
  let atyp := header.getD 3 0
  if header.getD 0 0 ≠ 5 then
    fail (.protocol (.text (lit "Invalid version in CONNECT request")))
  else if header.getD 1 0 ≠ 1 then
    refuse 7 (.text (lit "Only CONNECT commands are supported"))
  else if atyp = 1 then readIpv4Target
  else if atyp = 4 then readIpv6Target
  else if atyp = 3 then readDomainTarget
  else refuse 8 (.text (lit "Unknown ATYP: " ++ hexByte atyp))

def serveMethod (options : ServerOptions) (chosen : UInt8) : ServerProg IncomingRequest := do
  let identity ← if chosen = 2 then subnegotiate options else ok Identity.unknown
  let target ← readTarget
  return {
    protocol := .socks5
    target
    username := identity.username
    usernameRaw := identity.usernameRaw
    credentials := identity.retained
    pipeline := [] }

def socks (options : ServerOptions) : ServerProg IncomingRequest := do
  let nmethods ← readU8
  let methods ← readExact nmethods.toNat
  match chooseMethod options methods with
  | none => do
    writeAll [5, 255]
    fail (.authentication (lit "No mutually supported SOCKS5 auth method (server: anonymous=" ++
      boolText options.anonymous ++ lit ", user/pass=" ++ boolText options.password ++
      lit "; client offered " ++ render 10 methods.length ++ lit " method(s))"))
  | some chosen => do
    writeAll [5, chosen]
    serveMethod options chosen

end Resocks5.Inbound
