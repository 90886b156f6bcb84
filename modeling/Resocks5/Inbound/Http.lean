import Resocks5.Foundation.Base64
import Resocks5.Inbound.Socks
import Resocks5.Inbound.StrictHttp

namespace Resocks5.Inbound

open Resocks5.Foundation
open Resocks5.Net
open Prog

/-! The HTTP side of the server, and the choice between the two. -/

def maxHeaderBytes : Nat := 16 * 1024

def headerEnd : Bytes := crlf ++ crlf

def httpFail {α : Type} (status : HttpStatus) (error : ServerError) : ServerProg α := do
  writeAll (httpError status)
  fail error

/-- Read up to the end of the header; what was read beyond it is the pipeline. -/
def readHead (buf : Bytes) : ServerProg (Bytes × Bytes) :=
  .read 1024 fun chunk =>
    if hchunk : chunk = [] then fail .closed
    else
      let scanFrom := buf.length - 3
      let grown := buf ++ chunk
      match position headerEnd (grown.drop scanFrom) with
      | some pos =>
        let stop := scanFrom + pos + 4
        if maxHeaderBytes < stop then httpFail .headerFieldsTooLarge .headerTooLarge
        else ok (grown.take stop, grown.drop stop)
      | none =>
        if hlarge : maxHeaderBytes < grown.length then
          httpFail .headerFieldsTooLarge .headerTooLarge
        else readHead grown
termination_by maxHeaderBytes + 1 - buf.length
decreasing_by
  have hpos := List.length_pos_iff.mpr hchunk
  have hlength : (buf ++ chunk).length = buf.length + chunk.length := List.length_append
  have hle : (buf ++ chunk).length ≤ maxHeaderBytes := Nat.le_of_not_lt hlarge
  omega

/-- `ByteLines::next`. -/
def nextLine (rest : Bytes) : Option (Bytes × Bytes) :=
  if rest.isEmpty then none
  else
    match position crlf rest with
    | some pos => some (rest.take pos, rest.drop (pos + 2))
    | none => some (rest, [])

def collectLines : Nat → Bytes → List Bytes
  | 0, _ => []
  | fuel + 1, rest =>
    match nextLine rest with
    | none => []
    | some (line, rest) => line :: collectLines fuel rest

structure HeadLines where
  requestLine : Bytes
  headers : List Bytes
  deriving DecidableEq, Repr

def headLines (head : Bytes) : HeadLines :=
  let text := head.take (head.length - 4)
  match nextLine text with
  | none => ⟨[], []⟩
  | some (line, rest) => ⟨line, collectLines rest.length rest⟩

structure RequestLine where
  method : Bytes
  target : Bytes
  version : Bytes
  deriving DecidableEq, Repr

/-- `splitn(3, ' ')`, with nothing for the parts that are missing. -/
def RequestLine.split (line : Bytes) : RequestLine :=
  match splitOnce 0x20 line with
  | none => ⟨line, [], []⟩
  | some (method, rest) =>
    match splitOnce 0x20 rest with
    | none => ⟨method, rest, []⟩
    | some (target, version) => ⟨method, target, version⟩

def checkRequestLine (line : Bytes) : ServerProg Bytes :=
  let parts := RequestLine.split line
  if parts.method.isEmpty || parts.target.isEmpty || !(lit "HTTP/").isPrefixOf parts.version then
    httpFail .badRequest (.protocol (.quoted (lit "malformed HTTP request line: ") line))
  else if parts.method ≠ lit "CONNECT" then
    httpFail .notImplemented
      (.protocol (.quoted (lit "only CONNECT is supported, client sent ") parts.method))
  else if parts.target.any isUnprintable then
    httpFail .badRequest (.protocol (.quoted
      (lit "CONNECT target contains control or whitespace bytes " ++ [0xE2, 0x80, 0x94] ++
        lit " ") parts.target))
  else if (HostPort.parse parts.target).isNone then
    httpFail .badRequest (.protocol (.quoted
      (lit "CONNECT target is not a valid host:port authority " ++ [0xE2, 0x80, 0x94] ++
        lit " ") parts.target))
  else ok parts.target

def unauthorized {α : Type} (message : String) : ServerProg α :=
  httpFail .proxyAuthenticationRequired (.authentication (lit message))

def proxyAuthorization (line : Bytes) : Option Bytes :=
  if line.isEmpty then none
  else
    (splitOnce 0x3A line).bind fun (name, value) =>
      if eqIgnoreAsciiCase (trimAscii name) (lit "proxy-authorization") then
        some (trimAscii value)
      else none

/-- The first such line counts. -/
def authValue : List Bytes → ServerProg (Option Bytes)
  | [] => ok none
  | line :: rest =>
    match proxyAuthorization line with
    | none => authValue rest
    | some value =>
      if isUtf8 value then ok (some value)
      else unauthorized "Proxy-Authorization header is not valid UTF-8"

def basicCredentials (base64 : Base64) (value : Bytes) : ServerProg (Bytes × Bytes) :=
  match splitOnce 0x20 value with
  | none => unauthorized "unsupported Proxy-Authorization scheme"
  | some (scheme, token) =>
    if !eqIgnoreAsciiCase scheme (lit "Basic") then
      unauthorized "unsupported Proxy-Authorization scheme"
    else
      match base64.decode (trim token) with
      | none => unauthorized "Proxy-Authorization base64 decode failed"
      | some decoded =>
        if !isUtf8 decoded then unauthorized "Proxy-Authorization not valid UTF-8"
        else
          match splitOnce 0x3A decoded with
          | none => unauthorized "Proxy-Authorization missing ':'"
          | some pair => ok pair

def verifyBasic (options : ServerOptions) (user password : Bytes) : ServerProg Identity := do
  if !options.password then
    unauthorized "client sent Proxy-Authorization but server has no users configured"
  else do
    let credentials := Credentials.new user password
    let granted ← call credentials
    if granted then
      return ⟨some user, none, if options.retainCredentials then some credentials else none⟩
    else unauthorized "HTTP proxy authentication failed"

def identify (base64 : Base64) (options : ServerOptions) :
    Option Bytes → ServerProg Identity
  | some value => do
    let (user, password) ← basicCredentials base64 value
    verifyBasic options user password
  | none =>
    if options.anonymous then ok Identity.unknown
    else unauthorized "anonymous HTTP CONNECT not allowed (allow_anonymous=false)"

def checkStrict (options : ServerOptions) (lines : HeadLines) : ServerProg Unit :=
  if options.strictHttp then
    match StrictHttp.validate lines.requestLine lines.headers with
    | .ok () => ok ()
    | .error (.bad reason) => httpFail .badRequest (.protocol (.text reason))
    | .error .unsupported =>
      httpFail .versionNotSupported
        (.protocol (.text (lit "strict HTTP: unsupported HTTP-version")))
  else ok ()

def serveHead (base64 : Base64) (options : ServerOptions) (head pipeline : Bytes) :
    ServerProg IncomingRequest := do
  let lines := headLines head
  if !isUtf8 lines.requestLine then
    httpFail .badRequest (.protocol (.text (lit "non-UTF-8 bytes in HTTP request line")))
  else do
    checkStrict options lines
    let target ← checkRequestLine lines.requestLine
    let value ← authValue lines.headers
    let identity ← identify base64 options value
    return {
      protocol := .http
      target
      username := identity.username
      usernameRaw := none
      credentials := identity.retained
      pipeline }

def http (base64 : Base64) (options : ServerOptions) (first : UInt8) :
    ServerProg IncomingRequest := do
  let (head, pipeline) ← readHead [first]
  serveHead base64 options head pipeline

/-- `5` is SOCKS5, a letter begins an HTTP method. -/
def accept (base64 : Base64) (options : ServerOptions) : ServerProg IncomingRequest := do
  let byte ← readSome 1
  match byte with
  | [] => fail .closed
  | first :: _ =>
    if first = 5 then socks options
    else if isAsciiAlphabetic first then http base64 options first
    else
      fail (.protocol (.text (lit "unrecognised first byte 0x" ++ hexByte first ++ lit " " ++
        [0xE2, 0x80, 0x94] ++ lit " neither SOCKS5 (0x05) nor an HTTP method")))

end Resocks5.Inbound
