import Resocks5.Foundation.Numeral
import Resocks5.Rating.Ops
import Resocks5.Session.Rotator

namespace Resocks5.Server

open Resocks5.Foundation
open Resocks5.Rating
open Resocks5.Session
open Resocks5.Types

/-! The quarantine picture that survives a restart. -/

def stateAlive : Bytes := lit "alive"

def stateQuarantined : Bytes := lit "quarantined"

def stateProbation : Bytes := lit "probation"

structure HealthEntry where
  upstream : Bytes
  gate : UInt8
  group : Bytes
  state : Bytes
  remainingSec : Nat
  trips : Nat
  failures : Nat
  deriving DecidableEq, Repr

structure HealthFile where
  savedAt : Nat
  upstreams : List HealthEntry
  deriving DecidableEq, Repr

/-- A routing group's rotator, under the name its records are keyed with. -/
structure HealthGroup (ρ : Type u) where
  name : Bytes
  rotator : Rotator ρ

structure Restored where
  quarantined : Nat
  probation : Nat
  deriving DecidableEq, Repr

def protocolName : ProxyProtocol → Bytes
  | .socks5 => lit "socks5"
  | .http => lit "http"
  | .https => lit "https"

/-- `protocol://[user@]host:port`; a password is never written. -/
def upstreamLabel (proxy : ProxyConfig) : Bytes :=
  protocolName proxy.node.protocol ++ lit "://" ++
    (match proxy.node.user with
    | some user => user ++ lit "@"
    | none => []) ++
    proxy.node.host ++ lit ":" ++ render 10 proxy.node.port.toNat

def stateName : UpstreamState → Bytes
  | .quarantined => stateQuarantined
  | .probation => stateProbation
  | .alive => stateAlive

def HealthGroup.record {ρ : Type u} (group : HealthGroup ρ) (entry : UpstreamHealth) :
    HealthEntry where
  upstream := upstreamLabel entry.proxy
  gate := entry.proxy.node.gateLevel
  group := group.name
  state := stateName entry.health.state
  remainingSec := entry.health.remaining.asSecs
  trips := entry.health.trips
  failures := entry.health.consecutive

section

variable {ρ : Type u}

/-- Every upstream of every group, at the wall time `savedAt`. -/
def snapshot (groups : List (HealthGroup ρ)) (savedAt : Nat) (now : Instant) : HealthFile where
  savedAt := savedAt
  upstreams := groups.flatMap fun group => (group.rotator.health now).map group.record

/-- The lookup in the collected map, where the last record of a key stays. -/
def HealthFile.saved (file : HealthFile) (upstream : Bytes) (gate : UInt8) (group : Bytes) :
    Option HealthEntry :=
  file.upstreams.reverse.find? fun entry =>
    entry.upstream == upstream && entry.gate == gate && entry.group == group

/-- What a record says after `idle`; `None` for a state that is not restored. -/
def HealthEntry.left (entry : HealthEntry) (idle : Duration) :
    Option (UpstreamState × Duration) :=
  let left := Duration.ofSecs entry.remainingSec - idle
  if entry.state = stateQuarantined ∧ left ≠ 0 then some (.quarantined, left)
  else if entry.state = stateQuarantined ∨ entry.state = stateProbation then
    some (.probation, 0)
  else none

/-- The record of one upstream; an empty group is the fallback of older files. -/
def HealthFile.entryFor (file : HealthFile) (group : Bytes) (idle : Duration)
    (proxy : ProxyConfig) : Option UpstreamHealth := do
  let label := upstreamLabel proxy
  let entry ← (file.saved label proxy.node.gateLevel group).or
    (file.saved label proxy.node.gateLevel [])
  let (state, left) ← entry.left idle
  some ⟨proxy, state, left, entry.trips, entry.failures⟩

def Restored.count (rotator : Rotator ρ) (restored : Restored) (entry : UpstreamHealth) :
    Restored :=
  if rotator.isQuarantined entry.proxy then
    match entry.health.state with
    | .quarantined => { restored with quarantined := restored.quarantined + 1 }
    | _ => { restored with probation := restored.probation + 1 }
  else restored

/-- The entries that apply to a group, and the group with them put back. -/
def HealthGroup.restore (group : HealthGroup ρ) (file : HealthFile) (idle : Duration)
    (now : Instant) : List UpstreamHealth × HealthGroup ρ :=
  let entries := group.rotator.proxies.filterMap (file.entryFor group.name idle)
  (entries, { group with rotator := (group.rotator.restoreHealth now entries).2 })

def restoreGroups (file : HealthFile) (idle : Duration) (now : Instant) :
    Restored → List (HealthGroup ρ) → Restored × List (HealthGroup ρ)
  | restored, [] => (restored, [])
  | restored, group :: rest =>
    let (entries, group) := group.restore file idle now
    let (restored, rest) := restoreGroups file idle now
      (entries.foldl (Restored.count group.rotator) restored) rest
    (restored, group :: rest)

def restore (groups : List (HealthGroup ρ)) (file : HealthFile) (restoredAt : Nat)
    (now : Instant) : Restored × List (HealthGroup ρ) :=
  restoreGroups file (Duration.ofSecs (restoredAt - file.savedAt)) now ⟨0, 0⟩ groups

end

end Resocks5.Server
