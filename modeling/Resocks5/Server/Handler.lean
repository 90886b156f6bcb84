import Resocks5.Inbound.Http
import Resocks5.Recovery.EffectiveTarget
import Resocks5.Recovery.Prefix
import Resocks5.Server.Access

namespace Resocks5.Server

open Resocks5.Config
open Resocks5.Foundation
open Resocks5.Inbound
open Resocks5.Recovery
open Prog

/-! One connection, from its first byte to the tunnel. -/

inductive Path where
  | local
  | pool
  deriving DecidableEq, Repr

/-- What a connection's handler asks of its surroundings. A dial is granted if it is up before the
client speaks. -/
inductive HostCall where
  | verify (credentials : Credentials)
  | directPermit
  | dial (path : Path) (target : Bytes)
  /-- `CLIENT_FIRST_GRACE` is over and the client has said nothing. -/
  | silent
  /-- The client speaks before the dial ends. -/
  | interrupted
  /-- The upstream is read before the client is. -/
  | greets
  | tunnel (path : Path) (target held : Bytes)
  deriving DecidableEq, Repr

inductive HandlerError where
  | rejected
  | server (error : ServerError)
  | upstream (target : Bytes)
  | panicked
  deriving DecidableEq, Repr

abbrev HandlerProg := Prog HostCall HandlerError

/-- What a connection is handled with. `greeting` is what a first read of the upstream would
bring. -/
structure Connection where
  base64 : Base64
  auth : AuthState
  allowedClients : Option AllowedClients
  peer : Option IpAddr
  banned : Bytes → Bool
  recoverHostFromPayload : Bool
  greeting : Bytes

/-- A program of the server, whose credentials are verified only if they are `allowed`. -/
def overHost {α : Type} (allowed : Credentials → Bool) : ServerProg α → HandlerProg α
  | ok value => ok value
  | fail error => fail (.server error)
  | broken fault => broken fault
  | write bytes next => write bytes (overHost allowed next)
  | exact n next => exact n fun bytes => overHost allowed (next bytes)
  | .read max next => .read max fun bytes => overHost allowed (next bytes)
  | ask credentials next =>
    if allowed credentials then
      ask (.verify credentials) fun answer => overHost allowed (next answer)
    else overHost allowed (next false)

def overPeek {α : Type} : PeekProg α → HandlerProg α
  | ok value => ok value
  | fail _ => fail .panicked
  | broken fault => broken fault
  | write bytes next => write bytes (overPeek next)
  | exact n next => exact n fun bytes => overPeek (next bytes)
  | .read max next => .read max fun bytes => overPeek (next bytes)

inductive RecoveryPeek where
  | client (bytes : Bytes)
  | clientClosed
  | serverFirst (banner : Bytes)
  deriving DecidableEq, Repr

def RecoveryPeek.ofPrefix : Option Bytes → RecoveryPeek
  | some bytes => client bytes
  | none => clientClosed

namespace Connection

variable (conn : Connection)

def options : ServerOptions where
  anonymous := conn.auth.allowAnonymous
  password := !conn.auth.isEmpty
  retainCredentials := false
  rawCredentials := false
  strictHttp := false

/-- The user's rule stands before the verification. -/
def userAllowed (credentials : Credentials) : Bool :=
  conn.auth.clientIpAllowed credentials.username conn.peer

def isDirect (request : IncomingRequest) : Bool :=
  request.username.any conn.auth.isDirect

def reply (request : IncomingRequest) (reply : Reply) : HandlerProg Unit :=
  writeAll (replyBytes request.protocol reply)

/-- `establish_direct` and `establish_connection`: a banned target is not dialed. -/
def establish (path : Path) (target : Bytes) : HandlerProg Bool :=
  if conn.banned target then ok false else call (.dial path target)

def readPrefix (buf : Bytes) : HandlerProg RecoveryPeek := do
  let bytes ← overPeek (readRecoveryPrefix buf)
  return .ofPrefix bytes

def clientPrefix (seed : Bytes) : HandlerProg RecoveryPeek :=
  if seed.isEmpty then ok .clientClosed else readPrefix seed

def peekRecovery (initial target : Bytes) : HandlerProg RecoveryPeek :=
  if !initial.isEmpty then readPrefix initial
  else do
    let silent ← call .silent
    if !silent then do
      let seed ← readSome tmpLen
      clientPrefix seed
    else do
      let connected ← conn.establish .pool target
      if !connected then do
        let interrupted ← call .interrupted
        if interrupted then do
          let seed ← readSome tmpLen
          clientPrefix seed
        else readPrefix []
      else do
        let greets ← call .greets
        if !greets then do
          let seed ← readSome tmpLen
          clientPrefix seed
        else if conn.greeting.isEmpty then readPrefix []
        else return .serverFirst conn.greeting

def forwardTunnel (path : Path) (target held : Bytes) : HandlerProg Unit := do
  let _ ← call (.tunnel path target held)
  return ()

/-- The success reply comes first, since the client names its host only after it. -/
def recoverAndTunnel (request : IncomingRequest) (port initial : Bytes) : HandlerProg Unit := do
  reply request .established
  let peeked ← conn.peekRecovery initial request.target
  match peeked with
  | .clientClosed => return ()
  | .serverFirst banner => do
    writeAll banner
    forwardTunnel .pool request.target []
  | .client buf => do
    let target := effectiveTarget buf request.target port
    let connected ← conn.establish .pool target
    if connected then forwardTunnel .pool target buf
    else fail (.upstream target)

def connectAndTunnel (request : IncomingRequest) (path : Path) : HandlerProg Unit := do
  let connected ← conn.establish path request.target
  if connected then do
    reply request .established
    forwardTunnel path request.target request.pipeline
  else do
    reply request (if conn.banned request.target then .forbidden else .upstreamUnavailable)
    fail (.upstream request.target)

/-- The two handlers differ in what they seed a peek with. -/
def serveRequest (request : IncomingRequest) (seed : Bytes) : HandlerProg Unit :=
  if conn.isDirect request then do
    let permitted ← call .directPermit
    if permitted then conn.connectAndTunnel request .local
    else reply request .overloaded
  else
    match conn.recoverHostFromPayload, ipv4LiteralPort request.target with
    | true, some port => conn.recoverAndTunnel request port seed
    | _, _ => conn.connectAndTunnel request .pool

def handleSocks5Client (request : IncomingRequest) : HandlerProg Unit :=
  conn.serveRequest request []

def handleHttpClient (request : IncomingRequest) : HandlerProg Unit :=
  conn.serveRequest request request.pipeline

def dispatch (request : IncomingRequest) : HandlerProg Unit :=
  match request.protocol with
  | .socks5 => conn.handleSocks5Client request
  | .http => conn.handleHttpClient request

def handleClient : HandlerProg Unit :=
  if globalAllowed conn.allowedClients conn.peer then do
    let request ← overHost conn.userAllowed (accept conn.base64 conn.options)
    conn.dispatch request
  else fail .rejected

end Connection

end Resocks5.Server
