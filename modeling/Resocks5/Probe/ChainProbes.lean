import Resocks5.Chain.Gates
import Resocks5.Session.Usage

namespace Resocks5.Probe

open Resocks5.Chain
open Resocks5.Foundation
open Resocks5.Rating
open Resocks5.Session
open Resocks5.Types

/-! Background probes of the inner gate levels. -/

def saturatingAdd (a b : Duration) : Duration := min (a + b) Duration.max

/-- Budget of one probe: a connect, a handshake for each prefix node, and the last one. -/
def probeDeadline (connectTimeout handshakeTimeout : Duration) (depth : Nat) : Duration :=
  saturatingAdd connectTimeout
    (Duration.saturatingMul handshakeTimeout (min (depth + 1) u32Max))

def probeLeaseMargin : Duration := Duration.ofSecs 5

def probeLease (connectTimeout handshakeTimeout : Duration) (depth : Nat) : Duration :=
  saturatingAdd (probeDeadline connectTimeout handshakeTimeout depth) probeLeaseMargin

inductive ProbeVerdict where
  | hardFailure
  | inconclusive
  deriving DecidableEq, Repr

/-- Only a refusal by the tested node itself counts against it. -/
def classifyProbeError (stage : ChainStage) (error : ConnectError) : ProbeVerdict :=
  match stage, error with
  | .target, .proxyRejected _ _ _ => .hardFailure
  | _, _ => .inconclusive

/-- Where the task of a probe stands: it still has levels to pick a prefix node from, or it dials
the tested node through the prefix. -/
inductive Phase where
  | picking (levels : List GateLevel) (nodes : List ProxyConfig)
  | dialing (chain : ProxyConfig) (deadline : Instant)
  deriving DecidableEq

/-- A spawned probe. `fence` is its `lease_until`; `grant` and `leaseEnd` say which lease of the
cell it is, and until when the cell keeps it. -/
structure ChainProbe where
  level : GateLevel
  proxy : ProxyConfig
  claimed : Instant
  fence : Instant
  phase : Phase
  grant : Nat
  leaseEnd : Instant

structure Setup where
  gates : GateLevels
  connectTimeout : Duration
  handshakeTimeout : Duration

namespace Setup

def lease (setup : Setup) : Duration :=
  probeLease setup.connectTimeout setup.handshakeTimeout setup.gates.levels.length

/-- One second less than the worst case. -/
def budget (setup : Setup) (chain : ProxyConfig) : Duration :=
  probeDeadline setup.connectTimeout setup.handshakeTimeout chain.nodes.length -
    Duration.ofSecs 1

/-- All but the outermost. -/
def probed (setup : Setup) : List GateLevel := setup.gates.levels.tail

end Setup

structure World (ρ : Type u) where
  now : Instant
  rotators : Rotators ρ
  probes : List ChainProbe
  grants : RotatorId → Nat → Nat

inductive ProbeEvent where
  | later (now : Instant)
  | report (r : RotatorId) (op : Op)
  | claim (level : GateLevel) (claimed : Instant)
  | pick (k : Nat)
  | atCapacity (k : Nat)
  | settle (k : Nat) (attempt : Option (Except ChainError Unit))

/-- What a request, or a plain probe of an outer or an exit upstream, does to ratings. -/
def reportTime : Op → Instant
  | .failure _ now | .hardFailure _ now | .quarantineNow _ now | .success _ now
  | .restore _ _ now | .takeProbes now | .pick now | .pickOrder now => now

def takes : Op → Bool
  | .takeProbes _ => true
  | _ => false

namespace World

section

variable {ρ : Type u} (arith : FloatArith) (rng : Rng ρ)

def put (world : World ρ) (r : RotatorId) (rotator : Rotator ρ) : World ρ :=
  { world with rotators := Function.update world.rotators r rotator }

def drop (world : World ρ) (k : Nat) : World ρ :=
  { world with probes := world.probes.eraseIdx k }

def advance (world : World ρ) (k : Nat) (probe : ChainProbe) (phase : Phase) : World ρ :=
  { world with probes := world.probes.set k { probe with phase } }

/-- The probe of a leased upstream, its lease counted from before the claim. -/
def spawned (setup : Setup) (world : World ρ) (level : GateLevel) (claimed : Instant)
    (ratings : Ratings ρ) (i : Nat) : Option ChainProbe :=
  (world.rotators level.rotator).proxies[i]?.map fun proxy =>
    { level, proxy, claimed
      fence := claimed + setup.lease
      phase := .picking setup.gates.levels []
      grant := world.grants level.rotator i + 1
      leaseEnd := ((ratings.inner.quarantine[i]?).bind Cell.leaseUntil).getD world.now }

def claim (setup : Setup) (world : World ρ) (level : GateLevel) (claimed : Instant) : World ρ :=
  let rotator := world.rotators level.rotator
  let (leased, ratings) := rotator.ratings.takeProbes world.now
  { world.put level.rotator { rotator with ratings } with
    grants := fun r i =>
      if r = level.rotator ∧ i ∈ leased then world.grants r i + 1 else world.grants r i
    probes := world.probes ++ leased.filterMap (world.spawned setup level claimed ratings) }

def dial (setup : Setup) (world : World ρ) (k : Nat) (probe : ChainProbe) (nodes : List ProxyConfig) :
    World ρ :=
  match ProxyConfig.chain nodes with
  | none => world.drop k
  | some chain => world.advance k probe (.dialing chain (probe.claimed + setup.budget chain))

/-- `healthy_prefix`, one level at a time: the first untripped upstream in pick order. -/
def pick (setup : Setup) (world : World ρ) (k : Nat) (probe : ChainProbe) (nodes : List ProxyConfig) :
    List GateLevel → World ρ
  | [] => world.dial setup k probe nodes
  | level :: levels =>
    if level.rank = probe.level.rank then world.dial setup k probe nodes
    else if probe.level.rank < level.rank then
      let (order, rotator) := (world.rotators level.rotator).pickOrder arith rng world.now
      let world := world.put level.rotator rotator
      match (order.getD []).find? fun proxy => !rotator.isQuarantined proxy with
      | none => world.drop k
      | some proxy => world.advance k probe (.picking levels (nodes ++ [proxy]))
    else world.advance k probe (.picking levels nodes)

def outcome (world : World ρ) (probe : ChainProbe) (attempt : Option (Except ChainError Unit)) :
    Rotator ρ :=
  let rotator := world.rotators probe.level.rotator
  if probe.fence ≤ world.now then rotator
  else
    match attempt with
    | some (.ok ()) => rotator.recordSuccess arith probe.proxy world.now
    | some (.error error) =>
      if classifyProbeError error.stage error.error = .hardFailure then
        (rotator.recordHardFailure arith probe.proxy world.now).2
      else rotator
    | none => rotator

def settle (world : World ρ) (k : Nat) (probe : ChainProbe)
    (attempt : Option (Except ChainError Unit)) : World ρ :=
  (world.put probe.level.rotator (world.outcome arith probe attempt)).drop k

/-- `None` for what cannot happen now: the clock never goes back, reports are made at the time they
say, probes of the inner levels are only claimed here, at instants that can be represented, and an
attempt times out at its deadline. -/
def step (setup : Setup) (world : World ρ) : ProbeEvent → Option (World ρ)
  | .later now => if world.now ≤ now then some { world with now } else none
  | .report r op =>
    if reportTime op = world.now ∧
        (takes op = true → ∀ level ∈ setup.probed, level.rotator ≠ r) then
      some (world.put r ((world.rotators r).use arith rng [op]))
    else none
  | .claim level claimed =>
    if level ∈ setup.probed ∧ claimed ≤ world.now ∧ world.now + setup.lease ≤ Instant.max then
      some (world.claim setup level claimed)
    else none
  | .pick k =>
    world.probes[k]?.bind fun probe =>
      match probe.phase with
      | .picking levels nodes => some (world.pick arith rng setup k probe nodes levels)
      | .dialing _ _ => none
  | .atCapacity k =>
    world.probes[k]?.bind fun probe =>
      match probe.phase with
      | .picking _ _ => none
      | .dialing _ _ => some (world.drop k)
  | .settle k attempt =>
    world.probes[k]?.bind fun probe =>
      match probe.phase with
      | .picking _ _ => none
      | .dialing _ deadline =>
        if attempt = none → deadline ≤ world.now then some (world.settle arith k probe attempt)
        else none

end

end World

end Resocks5.Probe
