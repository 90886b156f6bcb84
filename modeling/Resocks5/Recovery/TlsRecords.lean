import Resocks5.Foundation.Bytes

namespace Resocks5.Recovery

open Resocks5.Foundation

/-! The records of a TLS stream, and the handshake message that they carry. -/

/-- `HANDSHAKE` -/
def handshake : UInt8 := 0x16

def beU16 (high low : UInt8) : Nat := high.toNat * 256 + low.toNat

def beU24 (high middle low : UInt8) : Nat :=
  high.toNat * 65536 + middle.toNat * 256 + low.toNat

/-- A record with its payload, as far as that is there, and what comes behind it. -/
structure TlsRecord where
  contentType : UInt8
  payload : Bytes
  behind : Bytes

/-- A whole header is needed; the payload is clipped. -/
def nextRecord : Bytes → Option TlsRecord
  | contentType :: _ :: _ :: high :: low :: rest =>
    some ⟨contentType, rest.take (beU16 high low), rest.drop (beU16 high low)⟩
  | _ => none

def records : Nat → Bytes → List TlsRecord
  | 0, _ => []
  | fuel + 1, data =>
    match nextRecord data with
    | none => []
    | some record => record :: records fuel record.behind

def walkRecords (data : Bytes) : List TlsRecord := records data.length data

structure HandshakePrefix where
  len : Nat
  kind : Option UInt8
  complete : Bool
  extendable : Bool
  deriving DecidableEq, Repr

/-- The loop over the records. `header` is the part of the message header that is known,
`behind` what follows the last record that counts. -/
def assemble (header : Bytes) (len : Nat) (behind : Bytes) :
    List TlsRecord → HandshakePrefix × Bytes
  | [] => (⟨len, header.head?, false, true⟩, behind)
  | record :: rest =>
    if record.contentType ≠ handshake then (⟨len, header.head?, false, false⟩, behind)
    else
      let header' := header ++ record.payload.take (4 - header.length)
      let len' := len + record.payload.length
      match header' with
      | [_, high, middle, low] =>
        let declared := 4 + beU24 high middle low
        if declared ≤ len' then (⟨declared, header'.head?, true, true⟩, record.behind)
        else assemble header' len' record.behind rest
      | _ => assemble header' len' record.behind rest

def handshakePrefix (data : Bytes) : Option HandshakePrefix :=
  match walkRecords data with
  | [] => none
  | first :: rest =>
    if first.contentType ≠ handshake then none
    else
      let (known, behind) := assemble [] 0 first.behind (first :: rest)
      some { known with
        extendable := known.extendable && behind.head?.all (· == handshake) }

def messageBytes : List TlsRecord → Nat → Bytes
  | [], _ => []
  | record :: rest, len =>
    record.payload.take len ++ messageBytes rest (len - record.payload.length)

def handshakeMessage (data : Bytes) : Option Bytes :=
  (handshakePrefix data).map fun known => messageBytes (walkRecords data) known.len

structure AssembledHandshake where
  message : Bytes
  complete : Bool
  deriving DecidableEq, Repr

def assembleHandshakeMessage (data : Bytes) : Option AssembledHandshake :=
  (handshakePrefix data).map fun known =>
    ⟨messageBytes (walkRecords data) known.len, known.complete⟩

def clientHelloIsComplete (data : Bytes) : Bool :=
  (handshakePrefix data).any fun known => known.complete && known.kind == some 0x01

def clientHelloMightContinue (data : Bytes) : Bool :=
  if data.head?.any (· != handshake) || data[1]?.any (· != 0x03) then false
  else
    match handshakePrefix data with
    | some known => known.kind.all (· == 0x01) && !known.complete && known.extendable
    | none => data.length < 5

end Resocks5.Recovery
