import Resocks5.Recovery.Prefix
import Resocks5.Tunnel.Fragment

namespace Resocks5.Tunnel

open Resocks5.Foundation
open Resocks5.Recovery

/-! From an accepted client to the end of its tunnel. -/

inductive Side where
  | client
  | upstream
  deriving DecidableEq, Repr

def Side.other : Side → Side
  | client => upstream
  | upstream => client

@[simp] theorem Side.other_client : Side.client.other = .upstream := rfl

@[simp] theorem Side.other_upstream : Side.upstream.other = .client := rfl

/-- `copy_bidirectional_with_sizes`. A `read` brings a chunk from a side, nothing at its end; a
`write` hands so many bytes to a side. -/
structure CopyLoop (σ : Type) where
  start : σ
  read : σ → Side → Bytes → Option σ
  write : σ → Side → Nat → Option (Bytes × σ)
  finished : σ → Bool

/-- `TunnelEnd` and the ways to end before the tunnel. -/
inductive Ended where
  | eof
  | timeout
  | stalled
  | clientClosed
  | failed
  deriving DecidableEq, Repr

/-- Where the relay of one client waits. -/
inductive Phase (σ : Type) where
  | peeking (prog : PeekProg (Option Bytes))
  | grace
  | dialing
  | greeting
  | connecting (held : Bytes)
  | replaying (rest : Bytes)
  | gathering (first : Bytes) (len : Nat)
  | answering (first : Bytes) (len : Nat) (rest : Bytes)
  | sending (chunk : Bytes) (written : Nat) (behind : Option (List Bytes))
  | pausing (behind : List Bytes)
  | copying (copy : σ)
  | ended (how : Ended)
  | panicked

def Phase.live {σ : Type} : Phase σ → Bool
  | ended _ | panicked => false
  | _ => true

def gatherMax : Nat := 16 * 1024

def replyLen : Nat := 1024

def copyLen : Nat := 16 * 1024

/-- What has passed. `client` and `upstream` are still to come; `spoken` is all that the
upstream at hand says. -/
structure Flow where
  client : Bytes
  spoken : Bytes
  upstream : Bytes
  fromClient : Bytes
  fromUpstream : Bytes
  toClient : Bytes
  toUpstream : Bytes
  deriving DecidableEq, Repr

structure Relay (σ : Type) extends Flow where
  phase : Phase σ

/-- `dialed` ends a dial, well with what the upstream is going to say. `elapsed` is the end of
the grace or of a pause. `stopped` is a deadline, a stall or a transport failure. -/
inductive Event where
  | readClient (n : Nat)
  | readUpstream (n : Nat)
  | wroteClient (n : Nat)
  | wroteUpstream (n : Nat)
  | flushed
  | elapsed
  | dialed (spoken : Option Bytes)
  | lostUpstream
  | finished
  | stopped (how : Ended)
  deriving DecidableEq, Repr

/-- A read of at most `max` bytes brings `n`; none come only at the end or with no room. -/
def readable (max n : Nat) (stream : Bytes) : Bool :=
  n ≤ max && n ≤ stream.length && (n != 0 || stream.isEmpty || max == 0)

/-- A write takes some of the bytes; to take none is an error. -/
def writable (n : Nat) (bytes : Bytes) : Bool := 0 < n && n ≤ bytes.length

section

variable {σ : Type}

def Phase.sliceTo (len n : Nat) (next : Phase σ) : Phase σ :=
  if n ≤ len then next else panicked

/-- `read_recovery_prefix`, and what `prefix.map_or` makes of its result. -/
def Phase.peek : PeekProg (Option Bytes) → Phase σ
  | .ok (some held) => connecting held
  | .ok none => ended .clientClosed
  | .fail _ => panicked
  | .broken _ => ended .failed
  | prog => peeking prog

def Phase.clientPrefix (seed : Bytes) : Phase σ :=
  sliceTo tmpLen seed.length <|
    if seed.isEmpty then ended .clientClosed else peek (readRecoveryPrefix seed)

def Phase.peekRecovery (initial : Bytes) : Phase σ :=
  if initial.isEmpty then grace else peek (readRecoveryPrefix initial)

def unfinishedHello (spec : FragmentSpec) (initial : Bytes) : Bool :=
  spec.enabled &&
    match classifyClientHello initial with
    | .indeterminate => true
    | .clientHello => !clientHelloIsComplete initial
    | .other => false

/-- `first` and `len` after a read. -/
def isGathered (n : Nat) (first : Bytes) (len : Nat) : Bool :=
  let exhausted := n == 0 || len == first.length
  match classifyClientHello (first.take len) with
  | .other => true
  | .indeterminate => exhausted
  | .clientHello => exhausted || clientHelloIsComplete (first.take len)

variable (loop : CopyLoop σ) (spec : FragmentSpec)

def Phase.sendChunks : List Bytes → Phase σ
  | [] => copying loop.start
  | chunk :: behind => sending chunk 0 (some behind)

def Phase.sendPossiblyFragmented (data : Bytes) : Phase σ :=
  match spec.parts data with
  | none => sending data 0 none
  | some parts => sendChunks loop parts

def Phase.sent : Option (List Bytes) → Phase σ
  | none => copying loop.start
  | some behind => if 0 < spec.delayMs then pausing behind else sendChunks loop behind

/-- `first.resize(16 * 1024, 0)` -/
def resize (initial : Bytes) : Bytes :=
  initial.take gatherMax ++ List.replicate (gatherMax - initial.length) 0

def Phase.preparePayload (initial : Bytes) : Phase σ :=
  if !initial.isEmpty && !unfinishedHello spec initial then
    sendPossiblyFragmented loop spec initial
  else if !spec.enabled then copying loop.start
  else gathering (resize initial) initial.length

def Phase.gathered (first : Bytes) (len : Nat) : Phase σ :=
  if len ≠ 0 then sliceTo first.length len (sendPossiblyFragmented loop spec (first.take len))
  else copying loop.start

/-- `write_all` of the banner, and the tunnel after it. -/
def Phase.replay (rest : Bytes) : Phase σ :=
  if rest.isEmpty then preparePayload loop spec [] else replaying rest

def Phase.answer (first : Bytes) (len : Nat) (rest : Bytes) : Phase σ :=
  if rest.isEmpty then gathering first len else answering first len rest

end

namespace Relay

variable {σ : Type}

def readClient (relay : Relay σ) (max n : Nat) (next : Bytes → Phase σ) : Option (Relay σ) :=
  if readable max n relay.client then
    some { relay with
      phase := next (relay.client.take n)
      client := relay.client.drop n
      fromClient := relay.fromClient ++ relay.client.take n }
  else none

def readUpstream (relay : Relay σ) (max n : Nat) (next : Bytes → Phase σ) : Option (Relay σ) :=
  if readable max n relay.upstream then
    some { relay with
      phase := next (relay.upstream.take n)
      upstream := relay.upstream.drop n
      fromUpstream := relay.fromUpstream ++ relay.upstream.take n }
  else none

def writeClient (relay : Relay σ) (n : Nat) (bytes : Bytes) (next : Phase σ) :
    Option (Relay σ) :=
  if writable n bytes then
    some { relay with phase := next, toClient := relay.toClient ++ bytes.take n }
  else none

def writeUpstream (relay : Relay σ) (n : Nat) (bytes : Bytes) (next : Phase σ) :
    Option (Relay σ) :=
  if writable n bytes then
    some { relay with phase := next, toUpstream := relay.toUpstream ++ bytes.take n }
  else none

/-- `drop(upstream)` -/
def hangUp (relay : Relay σ) : Relay σ :=
  { relay with spoken := [], upstream := [], fromUpstream := [] }

def connect (relay : Relay σ) (spoken : Bytes) (next : Phase σ) : Relay σ :=
  { relay with phase := next, spoken := spoken, upstream := spoken, fromUpstream := [] }

def goOn (relay : Relay σ) (next : Phase σ) : Relay σ := { relay with phase := next }

variable (loop : CopyLoop σ) (spec : FragmentSpec)

/-- `client.read(&mut first[len..])` and what is decided from it. -/
def gatherClient (relay : Relay σ) (first : Bytes) (len n : Nat) : Option (Relay σ) :=
  if len ≤ first.length then
    relay.readClient (first.length - len) n fun chunk =>
      let first' := first.take len ++ chunk ++ first.drop (len + chunk.length)
      let len' := len + chunk.length
      .sliceTo first'.length len' <|
        if isGathered chunk.length first' len' then .gathered loop spec first' len'
        else .gathering first' len'
  else some (relay.goOn .panicked)

/-- `upstream.read(&mut reply)` beside it. -/
def gatherUpstream (relay : Relay σ) (first : Bytes) (len n : Nat) : Option (Relay σ) :=
  relay.readUpstream replyLen n fun chunk =>
    if chunk.isEmpty then .gathered loop spec first len
    else .sliceTo replyLen chunk.length (.answer first len chunk)

/-- `writer.write(&buf[written..])` -/
def sendChunk (relay : Relay σ) (chunk : Bytes) (written n : Nat)
    (behind : Option (List Bytes)) : Option (Relay σ) :=
  if written ≤ chunk.length then
    relay.writeUpstream n (chunk.drop written) (.sending chunk (written + n) behind)
  else some (relay.goOn .panicked)

def copyStep (relay : Relay σ) (copy : σ) : Event → Option (Relay σ)
  | .readClient n =>
    (loop.read copy .client (relay.client.take n)).bind fun copy =>
      relay.readClient copyLen n fun _ => .copying copy
  | .readUpstream n =>
    (loop.read copy .upstream (relay.upstream.take n)).bind fun copy =>
      relay.readUpstream copyLen n fun _ => .copying copy
  | .wroteClient n =>
    (loop.write copy .client n).map fun (bytes, copy) =>
      { relay with phase := .copying copy, toClient := relay.toClient ++ bytes }
  | .wroteUpstream n =>
    (loop.write copy .upstream n).map fun (bytes, copy) =>
      { relay with phase := .copying copy, toUpstream := relay.toUpstream ++ bytes }
  | .finished => if loop.finished copy then some (relay.goOn (.ended .eof)) else none
  | _ => none

def proceed (relay : Relay σ) (event : Event) : Option (Relay σ) :=
  match relay.phase with
  | .peeking prog =>
    match prog, event with
    | .read max next, .readClient n => relay.readClient max n fun chunk => .peek (next chunk)
    | _, _ => none
  | .grace =>
    match event with
    | .readClient n => relay.readClient tmpLen n .clientPrefix
    | .elapsed => some (relay.goOn .dialing)
    | _ => none
  | .dialing =>
    match event with
    | .readClient n => relay.readClient tmpLen n .clientPrefix
    | .dialed none => some (relay.goOn (.peek (readRecoveryPrefix [])))
    | .dialed (some spoken) => some (relay.connect spoken .greeting)
    | _ => none
  | .greeting =>
    match event with
    | .readClient n => relay.hangUp.readClient tmpLen n .clientPrefix
    | .readUpstream n =>
      relay.readUpstream tmpLen n fun banner =>
        if banner.isEmpty then .peek (readRecoveryPrefix [])
        else .sliceTo tmpLen banner.length (.replay loop spec banner)
    | .lostUpstream => some (relay.hangUp.goOn (.peek (readRecoveryPrefix [])))
    | _ => none
  | .connecting held =>
    match event with
    | .dialed none => some (relay.goOn (.ended .failed))
    | .dialed (some spoken) => some (relay.connect spoken (.preparePayload loop spec held))
    | _ => none
  | .replaying rest =>
    match event with
    | .wroteClient n => relay.writeClient n rest (.replay loop spec (rest.drop n))
    | _ => none
  | .gathering first len =>
    match event with
    | .readClient n => relay.gatherClient loop spec first len n
    | .readUpstream n => relay.gatherUpstream loop spec first len n
    | _ => none
  | .answering first len rest =>
    match event with
    | .wroteClient n => relay.writeClient n rest (.answer first len (rest.drop n))
    | _ => none
  | .sending chunk written behind =>
    match event with
    | .wroteUpstream n => relay.sendChunk chunk written n behind
    | .flushed =>
      if chunk.length ≤ written then some (relay.goOn (.sent loop spec behind)) else none
    | _ => none
  | .pausing behind =>
    match event with
    | .elapsed => some (relay.goOn (.sendChunks loop behind))
    | _ => none
  | .copying copy => relay.copyStep loop copy event
  | .ended _ | .panicked => none

/-- What an event does; nothing where it cannot come. -/
def step (relay : Relay σ) (event : Event) : Option (Relay σ) :=
  match event with
  | .stopped how =>
    if relay.phase.live && how != .eof then some (relay.goOn (.ended how)) else none
  | event => relay.proceed loop spec event

/-- An event that cannot come is passed over. -/
def play (relay : Relay σ) (events : List Event) : Relay σ :=
  events.foldl (fun relay event => (relay.step loop spec event).getD relay) relay

/-- A client whose request was accepted. `recover` is for an address whose name is to be
recovered. -/
def start (recover : Bool) (initial client : Bytes) : Relay σ where
  phase := if recover then .peekRecovery initial else .connecting initial
  client := client
  spoken := []
  upstream := []
  fromClient := []
  fromUpstream := []
  toClient := []
  toUpstream := []

end Relay

/-! The copy loop with its two buffers. -/

/-- What was read from one side, and whether its end was. -/
structure CopyBuffer where
  buffer : Bytes
  readDone : Bool
  deriving DecidableEq, Repr

structure CopyBuffers where
  client : CopyBuffer
  upstream : CopyBuffer
  deriving DecidableEq, Repr

namespace CopyBuffers

def of (copy : CopyBuffers) : Side → CopyBuffer
  | .client => copy.client
  | .upstream => copy.upstream

def set (copy : CopyBuffers) (side : Side) (buffer : CopyBuffer) : CopyBuffers :=
  match side with
  | .client => { copy with client := buffer }
  | .upstream => { copy with upstream := buffer }

@[simp] theorem of_set (copy : CopyBuffers) (side : Side) (buffer : CopyBuffer) :
    (copy.set side buffer).of side = buffer := by
  cases side <;> rfl

@[simp] theorem of_set_other (copy : CopyBuffers) (side : Side) (buffer : CopyBuffer) :
    (copy.set side buffer).of side.other = copy.of side.other := by
  cases side <;> rfl

@[simp] theorem of_other_set (copy : CopyBuffers) (side : Side) (buffer : CopyBuffer) :
    (copy.set side.other buffer).of side = copy.of side := by
  cases side <;> rfl

end CopyBuffers

def copyBidirectional : CopyLoop CopyBuffers where
  start := ⟨⟨[], false⟩, ⟨[], false⟩⟩
  read copy side chunk :=
    let source := copy.of side
    if source.readDone || copyLen ≤ source.buffer.length ||
        copyLen < source.buffer.length + chunk.length then none
    else some (copy.set side ⟨source.buffer ++ chunk, chunk.isEmpty⟩)
  write copy side n :=
    let source := copy.of side.other
    if writable n source.buffer then
      some (source.buffer.take n,
        copy.set side.other { source with buffer := source.buffer.drop n })
    else none
  finished copy :=
    copy.client.readDone && copy.client.buffer.isEmpty && copy.upstream.readDone &&
      copy.upstream.buffer.isEmpty

end Resocks5.Tunnel
