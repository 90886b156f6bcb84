import Resocks5.Connect.Socks5Handshake
import Resocks5.Foundation.Base64
import Resocks5.Foundation.Peek
import Resocks5.Foundation.Text

namespace Resocks5.Connect

open Resocks5.Foundation
open Resocks5.Types
open Prog

/-! The HTTP side of the client: the `CONNECT` that it writes. -/

def sentCredentials (proxy : ProxyNode) : Option (Bytes × Bytes) :=
  match proxy.user, proxy.password with
  | some user, some password => some (user, password)
  | _, _ => none

def authorizationLine (base64 : Base64) : Option (Bytes × Bytes) → Bytes
  | some (user, password) =>
    lit "Proxy-Authorization: Basic " ++ base64.encode (user ++ 0x3A :: password) ++ crlf
  | none => []

def connectRequest (base64 : Base64) (targetAddr : Bytes) (proxy : ProxyNode) : Bytes :=
  lit "CONNECT " ++ targetAddr ++ lit " HTTP/1.1" ++ crlf ++ lit "Host: " ++ targetAddr ++ crlf ++
    authorizationLine base64 (sentCredentials proxy) ++ crlf

def writeConnectRequest (base64 : Base64) (targetAddr : Bytes) (proxy : ProxyNode) :
    ClientProg Unit :=
  if targetAddr.any isUnprintable then violation .httpInvalidConnectTarget
  else writeAll (connectRequest base64 targetAddr proxy)

/-! The two readers of the answer to a `CONNECT`. -/

/-- The length of the buffer; all heads together have to fit. -/
def responseLimit : Nat := 4096

def responseEnd : Bytes := crlf ++ crlf

/-- The filled part of the buffer, and how much was read in all. -/
structure ResponseHead where
  filled : Bytes
  total : Nat
  deriving DecidableEq, Repr

def firstLine (head : Bytes) : Bytes := head.takeWhile (· ≠ 0x0D)

def statusCode (line : Bytes) : Bytes := (line.drop 9).take 3

def validStatusLine (line : Bytes) : Bool :=
  13 ≤ line.length &&
    ((lit "HTTP/1.1 ").isPrefixOf line || (lit "HTTP/1.0 ").isPrefixOf line) &&
    (statusCode line).all isAsciiDigit && line.getD 12 0 == 0x20

def statusNumber (code : Bytes) : Nat :=
  code.foldl (fun acc digit => acc * 10 + (digit - 0x30).toNat) 0

def judgeHead (head : Bytes) : Except ConnectError Bool :=
  let line := firstLine head
  let valid := validStatusLine line
  if valid && line.getD 9 0 == 0x32 then .ok true
  else if valid && line.getD 9 0 == 0x31 && statusCode line != lit "101" then .ok false
  else
    .error (.proxyRejected .http
      (if valid then some (statusNumber (statusCode line)).toUInt16 else none)
      (fromUtf8Lossy line))

namespace ResponseHead

def new : ResponseHead := ⟨[], 0⟩

def remaining (head : ResponseHead) : Except ConnectError Nat :=
  if responseLimit - head.total = 0 then .error (.protocol .httpResponseTooLarge)
  else .ok (responseLimit - head.total)

def advance (head : ResponseHead) (chunk : Bytes) : Except ConnectError (Bool × ResponseHead) :=
  if chunk = [] then .error (.protocol .httpClosedEarly)
  else
    let head : ResponseHead := ⟨head.filled ++ chunk, head.total + chunk.length⟩
    if !responseEnd.isSuffixOf head.filled then .ok (false, head)
    else
      (judgeHead head.filled).map fun last =>
        (last, if last then head else { head with filled := [] })

theorem advance_total {head after : ResponseHead} {chunk : Bytes} {last : Bool}
    (hadvance : head.advance chunk = .ok (last, after)) :
    after.total = head.total + chunk.length ∧ chunk ≠ [] := by
  unfold advance at hadvance
  split at hadvance
  · cases hadvance
  · rename_i hchunk
    dsimp only at hadvance
    split at hadvance
    · cases hadvance
      exact ⟨rfl, hchunk⟩
    · cases hjudge : judgeHead (head.filled ++ chunk) with
      | error error =>
          rw [hjudge] at hadvance
          cases hadvance
      | ok last =>
          rw [hjudge] at hadvance
          cases hadvance
          refine ⟨?_, hchunk⟩
          split <;> rfl

theorem remaining_pos {head : ResponseHead} {remaining : Nat}
    (hremaining : head.remaining = .ok remaining) :
    0 < remaining ∧ remaining = responseLimit - head.total := by
  unfold ResponseHead.remaining at hremaining
  split at hremaining
  · cases hremaining
  · cases hremaining
    exact ⟨by omega, rfl⟩

end ResponseHead

def missingEnd (suffix : Bytes) : Nat :=
  if [0x0D, 0x0A, 0x0D].isSuffixOf suffix then 1
  else if [0x0D, 0x0A].isSuffixOf suffix then 2
  else if [0x0D].isSuffixOf suffix then 3
  else 4

/-- The reading loop of `http_connect_handshake`; it stops exactly at the end of the head. -/
def readConnectResponse (head : ResponseHead) : ClientProg Unit :=
  match hremaining : head.remaining with
  | .error error => fail error
  | .ok remaining =>
    .read (min (missingEnd head.filled) remaining) fun chunk =>
      match hadvance : head.advance chunk with
      | .error error => fail error
      | .ok (true, _) => ok ()
      | .ok (false, after) => readConnectResponse after
termination_by responseLimit - head.total
decreasing_by
  obtain ⟨htotal, hchunk⟩ := ResponseHead.advance_total hadvance
  obtain ⟨hpos, hroom⟩ := ResponseHead.remaining_pos hremaining
  have hlength := List.length_pos_iff.mpr hchunk
  omega

def consumeTo (filled peeked : Bytes) : Nat :=
  let scanFrom := filled.length - 3
  match position responseEnd ((filled ++ peeked).drop scanFrom) with
  | none => filled.length + peeked.length
  | some pos => scanFrom + pos + 4

/-- `read_connect_response_tcp`: look first, then read. -/
def readConnectResponseTcp (head : ResponseHead) : PeekProg ConnectError Unit :=
  match hremaining : head.remaining with
  | .error error => .fail error
  | .ok remaining =>
    .peek remaining fun peeked =>
      .exact (consumeTo head.filled peeked - head.filled.length) fun chunk =>
        match hadvance : head.advance chunk with
        | .error error => .fail error
        | .ok (true, _) => .ok ()
        | .ok (false, after) => readConnectResponseTcp after
termination_by responseLimit - head.total
decreasing_by
  obtain ⟨htotal, hchunk⟩ := ResponseHead.advance_total hadvance
  obtain ⟨hpos, hroom⟩ := ResponseHead.remaining_pos hremaining
  have hlength := List.length_pos_iff.mpr hchunk
  omega

end Resocks5.Connect
