import Resocks5.Foundation.Timed
import Resocks5.Foundation.Run

namespace Resocks5.Tunnel

open Resocks5.Foundation

/-! A copy between two streams under an idle limit and a lifetime. -/

def u64Max : Nat := 2 ^ 64 - 1

inductive Stream where
  | a
  | b
  deriving DecidableEq, Repr

/-- What a poll of a stream returns; `ready` with the bytes that it has moved. -/
inductive IoPoll where
  | pending
  | failed
  | ready (n : Nat)
  deriving DecidableEq, Repr

def IoPoll.moved : IoPoll → Nat
  | ready n => n
  | _ => 0

/-- `nanos` is how long after `epoch` something was last recorded. -/
structure Activity where
  epoch : Instant
  nanos : UInt64
  deriving DecidableEq, Repr

namespace Activity

def record (activity : Activity) (now : Instant) : Activity :=
  let elapsed := now - activity.epoch
  { activity with nanos := if elapsed ≤ u64Max then elapsed.toUInt64 else u64Max.toUInt64 }

/-- `epoch + Duration::from_nanos(nanos)`; `None` for the panic. -/
def last (activity : Activity) : Option Instant :=
  Instant.checkedAdd activity.epoch activity.nanos.toNat

end Activity

/-- What the two wrapped streams write to; `confirmed` is the total of the `FlushProgress`. -/
structure Tracked where
  activity : Activity
  confirmed : UInt64
  aToB : UInt64
  bToA : UInt64
  deriving DecidableEq, Repr

namespace Tracked

/-- The reports that a poll of the inner stream makes, taken together. -/
def report (tracked : Tracked) (confirms : Nat) : Tracked :=
  { tracked with confirmed := tracked.confirmed + confirms.toUInt64 }

def record (tracked : Tracked) (now : Instant) : Tracked :=
  { tracked with activity := tracked.activity.record now }

/-- `forwarded.fetch_add` of the destination. -/
def forward (tracked : Tracked) (n : Nat) : Stream → Tracked
  | .a => { tracked with bToA := tracked.bToA + n.toUInt64 }
  | .b => { tracked with aToB := tracked.aToB + n.toUInt64 }

def pollRead (tracked : Tracked) (now : Instant) (result : IoPoll) (confirms : Nat) : Tracked :=
  let polled := tracked.report confirms
  if 0 < result.moved then polled.record now else polled

def pollWrite (tracked : Tracked) (now : Instant) (stream : Stream) (result : IoPoll)
    (confirms : Nat) : Tracked :=
  let polled := tracked.report confirms
  let counted := if 0 < result.moved then polled.forward result.moved stream else polled
  if 0 < result.moved ∨ tracked.confirmed < counted.confirmed then counted.record now else counted

/-- `poll_flush`, and `poll_shutdown`. -/
def pollFlush (tracked : Tracked) (now : Instant) (confirms : Nat) : Tracked :=
  let polled := tracked.report confirms
  if tracked.confirmed < polled.confirmed then polled.record now else polled

end Tracked

inductive TunnelEnd where
  | eof
  | idleTimeout
  | lifetimeTimeout
  deriving DecidableEq, Repr

structure TunnelOutcome where
  ending : TunnelEnd
  aToB : UInt64
  bToA : UInt64
  deriving DecidableEq, Repr

inductive TunnelStatus where
  | waiting
  | done (outcome : TunnelOutcome)
  | failed
  | panicked
  deriving DecidableEq, Repr

/-- The timers as the instants for which they are armed. -/
structure TimedTunnel where
  now : Instant
  tracked : Tracked
  idleTimer : Instant
  lifetimeTimer : Instant
  status : TunnelStatus
  deriving DecidableEq, Repr

/-- What the copy asks of a stream, with the answer and the bytes confirmed below in the meantime;
a timer that is found elapsed; or the end of the copy. -/
inductive TunnelEvent where
  | read (stream : Stream) (result : IoPoll) (confirms : Nat)
  | write (stream : Stream) (result : IoPoll) (confirms : Nat)
  | flush (stream : Stream) (confirms : Nat)
  | shutdown (stream : Stream) (confirms : Nat)
  | lifetime
  | idle
  | copied
  | failed
  deriving DecidableEq, Repr

namespace TimedTunnel

/-- `sleep` arms a timer. -/
def start (sleep : Instant → Duration → Instant) (idle maxLifetime : Duration) (now : Instant) :
    TimedTunnel where
  now := now
  tracked := ⟨⟨now, 0⟩, 0, 0, 0⟩
  idleTimer := sleep now idle
  lifetimeTimer := sleep now maxLifetime
  status := .waiting

def finish (tunnel : TimedTunnel) (ending : TunnelEnd) : TimedTunnel :=
  { tunnel with status := .done ⟨ending, tunnel.tracked.aToB, tunnel.tracked.bToA⟩ }

/-- The idle timer is set again to what the last activity leaves, or it is over. -/
def wakeIdle (tunnel : TimedTunnel) (idle : Duration) : TimedTunnel :=
  match tunnel.tracked.activity.last.bind fun last => Instant.checkedAdd last idle with
  | none => { tunnel with status := .panicked }
  | some deadline =>
    if deadline ≤ tunnel.now then tunnel.finish .idleTimeout
    else { tunnel with idleTimer := deadline }

/-- A timer of length zero is never looked at, and none elapses early. -/
def react (idle maxLifetime : Duration) (tunnel : TimedTunnel) : TunnelEvent → Option TimedTunnel
  | .read _ result confirms =>
    some { tunnel with tracked := tunnel.tracked.pollRead tunnel.now result confirms }
  | .write stream result confirms =>
    some { tunnel with tracked := tunnel.tracked.pollWrite tunnel.now stream result confirms }
  | .flush _ confirms | .shutdown _ confirms =>
    some { tunnel with tracked := tunnel.tracked.pollFlush tunnel.now confirms }
  | .lifetime =>
    if maxLifetime ≠ 0 ∧ tunnel.lifetimeTimer ≤ tunnel.now then
      some (tunnel.finish .lifetimeTimeout)
    else none
  | .idle =>
    if idle ≠ 0 ∧ tunnel.idleTimer ≤ tunnel.now then some (tunnel.wakeIdle idle) else none
  | .copied => some (tunnel.finish .eof)
  | .failed => some { tunnel with status := .failed }

/-- An event at its time, while the tunnel waits; the clock never goes back. -/
def step (idle maxLifetime : Duration) (tunnel : TimedTunnel) :
    Instant × TunnelEvent → Option TimedTunnel
  | (now, event) =>
    if tunnel.status = .waiting ∧ tunnel.now ≤ now ∧ now ≤ Instant.max then
      react idle maxLifetime { tunnel with now } event
    else none

end TimedTunnel

end Resocks5.Tunnel
