import Resocks5.Foundation.Numeral
import Resocks5.Foundation.Prog
import Resocks5.Foundation.Text

namespace Resocks5.Inbound

open Resocks5.Foundation

/-- The absolute deadline is left to the runs: any of them may be cut off. -/
structure ServerOptions where
  anonymous : Bool
  password : Bool
  retainCredentials : Bool
  rawCredentials : Bool
  strictHttp : Bool
  deriving DecidableEq, Repr

inductive Protocol where
  | socks5
  | http
  deriving DecidableEq, Repr

/-- The raw bytes of a field are there only when it was not valid UTF-8. -/
structure Credentials where
  username : Bytes
  password : Bytes
  usernameRaw : Option Bytes
  passwordRaw : Option Bytes
  deriving DecidableEq, Repr

namespace Credentials

def new (username password : Bytes) : Credentials := ⟨username, password, none, none⟩

def usernameBytes (credentials : Credentials) : Bytes :=
  credentials.usernameRaw.getD credentials.username

def passwordBytes (credentials : Credentials) : Bytes :=
  credentials.passwordRaw.getD credentials.password

end Credentials

structure IncomingRequest where
  protocol : Protocol
  target : Bytes
  username : Option Bytes
  usernameRaw : Option Bytes
  credentials : Option Credentials
  pipeline : Bytes
  deriving DecidableEq, Repr

/-- The text of an error. `quoted` ends in the `Debug` form of a string, `utf8` is the
`Display` of the `FromUtf8Error` of some bytes. -/
inductive Message where
  | text (text : Bytes)
  | quoted (text value : Bytes)
  | utf8 (bytes : Bytes)
  deriving DecidableEq, Repr

/-- `Io` and `Deadline` are the faults of a run. -/
inductive ServerError where
  | protocol (message : Message)
  | authentication (message : Bytes)
  | headerTooLarge
  | closed
  deriving DecidableEq, Repr

/-- A program of the server asks its host to verify credentials. -/
abbrev ServerProg := Prog Credentials ServerError

inductive HttpStatus where
  | badRequest
  | forbidden
  | proxyAuthenticationRequired
  | headerFieldsTooLarge
  | notImplemented
  | badGateway
  | serviceUnavailable
  | gatewayTimeout
  | versionNotSupported
  deriving DecidableEq, Repr

namespace HttpStatus

def line : HttpStatus → Bytes
  | badRequest => lit "HTTP/1.1 400 Bad Request"
  | forbidden => lit "HTTP/1.1 403 Forbidden"
  | proxyAuthenticationRequired => lit "HTTP/1.1 407 Proxy Authentication Required"
  | headerFieldsTooLarge => lit "HTTP/1.1 431 Request Header Fields Too Large"
  | notImplemented => lit "HTTP/1.1 501 Not Implemented"
  | badGateway => lit "HTTP/1.1 502 Bad Gateway"
  | serviceUnavailable => lit "HTTP/1.1 503 Service Unavailable"
  | gatewayTimeout => lit "HTTP/1.1 504 Gateway Timeout"
  | versionNotSupported => lit "HTTP/1.1 505 HTTP Version Not Supported"

end HttpStatus

/-- Only the 407 asks for credentials. -/
def httpError (status : HttpStatus) : Bytes :=
  let challenge := match status with
    | .proxyAuthenticationRequired =>
      lit "Proxy-Authenticate: Basic realm=\"resocks5\", charset=\"UTF-8\"" ++ crlf
    | _ => []
  status.line ++ crlf ++ challenge ++ lit "Connection: close" ++ crlf ++
    lit "Content-Length: 0" ++ crlf ++ crlf

inductive Reply where
  | established
  | forbidden
  | upstreamUnavailable
  | connectionRefused
  | networkUnreachable
  | timedOut
  | generalFailure
  | overloaded
  deriving DecidableEq, Repr

/-- RFC 1928 section 6, with an unspecified IPv4 bind address. -/
def socksReply (rep : UInt8) : Bytes := [5, rep, 0, 1, 0, 0, 0, 0, 0, 0]

def replyBytes : Protocol → Reply → Bytes
  | .socks5, .established => socksReply 0
  | .socks5, .forbidden => socksReply 2
  | .socks5, .upstreamUnavailable => socksReply 4
  | .socks5, .connectionRefused => socksReply 5
  | .socks5, .networkUnreachable => socksReply 3
  | .socks5, .timedOut => socksReply 6
  | .socks5, .generalFailure => socksReply 1
  | .socks5, .overloaded => socksReply 1
  | .http, .established => lit "HTTP/1.1 200 Connection Established" ++ crlf ++ crlf
  | .http, .forbidden => httpError .forbidden
  | .http, .upstreamUnavailable => httpError .badGateway
  | .http, .connectionRefused => httpError .badGateway
  | .http, .networkUnreachable => httpError .badGateway
  | .http, .timedOut => httpError .gatewayTimeout
  | .http, .generalFailure => httpError .badGateway
  | .http, .overloaded => httpError .serviceUnavailable

def IncomingRequest.reply (request : IncomingRequest) (reply : Reply) : ServerProg Unit :=
  Prog.writeAll (replyBytes request.protocol reply)

end Resocks5.Inbound
