import Resocks5.Foundation.Text
import Resocks5.Recovery.TlsRecords

namespace Resocks5.Recovery

open Resocks5.Foundation

/-! The host that a client names in the first bytes it sends. A cursor into a message is what is
left of it. -/

def skip (rest : Bytes) (n : Nat) : Option Bytes :=
  if n ≤ rest.length then some (rest.drop n) else none

def skipVec8 : Bytes → Option Bytes
  | [] => none
  | len :: rest => skip rest len.toNat

def skipVec16 : Bytes → Option Bytes
  | high :: low :: rest => skip rest (beU16 high low)
  | _ => none

/-- The first `host_name` among the entries. -/
def serverNames : Nat → Bytes → Option Bytes
  | fuel + 1, nameType :: high :: low :: rest =>
    if rest.length < beU16 high low then none
    else if nameType = 0x00 then
      let name := rest.take (beU16 high low)
      if isUtf8 name && !name.isEmpty then some (name.map toAsciiLower) else none
    else serverNames fuel (rest.drop (beU16 high low))
  | _, _ => none

def parseServerNameExt : Bytes → Option Bytes
  | high :: low :: rest =>
    if rest.length < beU16 high low then none
    else serverNames rest.length (rest.take (beU16 high low))
  | _ => none

/-- The first `server_name` extension. -/
def sniExtension : Nat → Bytes → Option Bytes
  | fuel + 1, typeHigh :: typeLow :: high :: low :: rest =>
    if rest.length < beU16 high low then none
    else if beU16 typeHigh typeLow = 0 then parseServerNameExt (rest.take (beU16 high low))
    else sniExtension fuel (rest.drop (beU16 high low))
  | _, _ => none

/-- Over version, random, session, cipher suites and compression methods to the extensions. -/
def clientHelloExtensions (hello : Bytes) : Option Bytes := do
  let rest ← skip hello 2
  let rest ← skip rest 32
  let rest ← skipVec8 rest
  let rest ← skipVec16 rest
  let rest ← skipVec8 rest
  match rest with
  | high :: low :: extensions => some (extensions.take (beU16 high low))
  | _ => none

def parseHandshake : Bytes → Option Bytes
  | kind :: high :: middle :: low :: body =>
    if kind ≠ 0x01 then none
    else
      (clientHelloExtensions (body.take (beU24 high middle low))).bind fun extensions =>
        sniExtension extensions.length extensions
  | _ => none

def parseSni (data : Bytes) : Option Bytes :=
  if data.length < 5 || data.head? != some handshake || data[1]? != some 0x03 then none
  else (handshakeMessage data).bind parseHandshake

def crlfLine (data : Bytes) : Option (Bytes × Bytes) :=
  (position crlf data).map fun stop => (data.take stop, data.drop (stop + 2))

def isHttp1RequestLine (line : Bytes) : Bool :=
  (lit " HTTP/1.0").isSuffixOf line || (lit " HTTP/1.1").isSuffixOf line

/-- The value of a `Host` header without its port. -/
def hostOf (value : Bytes) : Option Bytes :=
  if !isUtf8 value then none
  else
    let val := trim value
    if val.isEmpty then none
    else
      let host := match rsplitOnce 0x3A val with
        | some (h, port) => if !h.isEmpty && port.all isAsciiDigit then h else val
        | none => val
      some (host.map toAsciiLower)

/-- The first `Host` line decides. -/
def hostHeader : Nat → Bytes → Option Bytes
  | 0, _ => none
  | fuel + 1, headers =>
    match crlfLine headers with
    | none => none
    | some (line, rest) =>
      if line.isEmpty then none
      else
        match splitOnce 0x3A line with
        | none => hostHeader fuel rest
        | some (name, value) =>
          if eqIgnoreAsciiCase (trimAscii name) (lit "host") then hostOf value
          else hostHeader fuel rest

def parseHttpHost (data : Bytes) : Option Bytes :=
  (crlfLine data).bind fun (request, headers) =>
    if isHttp1RequestLine request then hostHeader headers.length headers else none

def sniMightStillAppear (data : Bytes) : Bool := clientHelloMightContinue data

def isForeignLine (line : Bytes) : Bool :=
  line.getLast? != some 0x0D || !isHttp1RequestLine line.dropLast

def httpHostMightStillAppear (data : Bytes) : Bool :=
  match data with
  | [] => true
  | first :: _ =>
    if !isAsciiAlphabetic first then false
    else if (splitOnce 0x0A data).any fun (line, _) => isForeignLine line then false
    else !((position (crlf ++ crlf) data).isSome || (position [0x0A, 0x0A] data).isSome)

def recoverHost (data : Bytes) : Option Bytes := (parseSni data).or (parseHttpHost data)

end Resocks5.Recovery
