import Resocks5.Connect.HopDeadlines
import Resocks5.Probe.Fence

namespace Resocks5.Probe

open Resocks5.Chain
open Resocks5.Connect
open Resocks5.Foundation
open Resocks5.Net
open Resocks5.Rating
open Resocks5.Types

/-! The instants of the chain probes. -/

def Setup.ofSecs (gates : GateLevels) (connectTimeoutSec handshakeTimeoutSec : UInt64) : Setup where
  gates := gates
  connectTimeout := Duration.ofSecs connectTimeoutSec.toNat
  handshakeTimeout := Duration.ofSecs handshakeTimeoutSec.toNat

def Setup.dialer (setup : Setup) (serverName : Bytes → Bool) (tlsConnector : Bool) : Dialer where
  connectTimeout := setup.connectTimeout
  handshakeTimeout := setup.handshakeTimeout
  serverName := serverName
  tlsConnector := tlsConnector

/-- The nodes in front of a rank; `pick` is the first upstream of a level, in pick order, that is
not quarantined. -/
def prefixNodes (pick : GateLevel → Option ProxyConfig) (rank : UInt8) :
    List GateLevel → Option (List ProxyConfig)
  | [] => some []
  | level :: levels =>
    if level.rank = rank then some []
    else if rank < level.rank then
      (pick level).bind fun proxy => (prefixNodes pick rank levels).map (proxy :: ·)
    else prefixNodes pick rank levels

def healthyPrefix (gates : GateLevels) (pick : GateLevel → Option ProxyConfig) (rank : UInt8) :
    Option ProxyConfig :=
  (prefixNodes pick rank gates.levels).bind ProxyConfig.chain

inductive Settlement where
  | noPrefix
  | atCapacity
  | discarded
  | reachable
  | refused
  | inconclusive
  deriving DecidableEq, Repr

/-- A spawned probe, with what it meets: its picks, the permit, the network up to its deadline, and
when it settles. -/
structure ProbeTask where
  proxy : ProxyConfig
  pick : GateLevel → Option ProxyConfig
  permit : Bool
  network : Instant → TimedNetwork
  settled : Instant

structure ProbeAttempt where
  chain : ProxyConfig
  deadline : Instant
  leaseUntil : Instant

/-- Behind the lease every result is discarded. -/
def settlement (attempt : Option (Except ChainError Unit)) (leaseUntil now : Instant) : Settlement :=
  if leaseUntil ≤ now then .discarded
  else
    match attempt with
    | some (.ok ()) => .reachable
    | some (.error error) =>
      if classifyProbeError error.stage error.error = .hardFailure then .refused
      else .inconclusive
    | none => .inconclusive

namespace ProbeTask

variable (setup : Setup) (dialer : Dialer)

def probeChain (task : ProbeTask) (attempt : ProbeAttempt) : Timed Settlement :=
  if task.permit then
    match dialer.connectChain (task.network attempt.deadline) attempt.chain
        (HostPort.format task.proxy.node.host task.proxy.node.port) with
    | .ok ended => return settlement (some ended.result) attempt.leaseUntil task.settled
    | .error .abandoned => return settlement none attempt.leaseUntil task.settled
    | .error .panicked => .error .panicked
  else return .atCapacity

def run (level : GateLevel) (claimed : Instant) (task : ProbeTask) : Timed Settlement :=
  match healthyPrefix setup.gates task.pick level.rank with
  | none => return .noPrefix
  | some chain => do
    let deadline ← Instant.addOrPanic claimed (setup.budget chain)
    let leaseUntil ← Instant.addOrPanic claimed setup.lease
    task.probeChain dialer { chain, deadline, leaseUntil }

end ProbeTask

/-- What becomes of every probe, level by level; `claimed` is when a level is claimed. -/
def spawnChainProbes (setup : Setup) (dialer : Dialer) (claimed : GateLevel → Instant)
    (taken : GateLevel → List ProbeTask) : List (Timed Settlement) :=
  setup.probed.flatMap fun level =>
    (taken level).map fun task => task.run setup dialer level (claimed level)

/-! Where the instants of a probe fit on the clock. -/

/-- The worst case of a probe over every level, and the margin of its lease, fit behind a claim. -/
def Setup.Covers (setup : Setup) (claimed : Instant) : Prop :=
  claimed + setup.connectTimeout +
    setup.handshakeTimeout * min (setup.gates.levels.length + 1) u32Max + probeLeaseMargin ≤
      Instant.max

/-- Each hop that a dial comes to has a deadline that fits. -/
def DialFits (dialer : Dialer) (network : TimedNetwork) (chain : ProxyConfig)
    (targetAddr : Bytes) : Prop :=
  ∀ i node, chain.nodes[i]? = some node →
    dialer.Reaches network chain.nodes targetAddr i → dialer.Fits network i node

theorem Setup.lease_fits_iff {setup : Setup} {claimed : Instant} :
    claimed + setup.lease ≤ Instant.max ↔ setup.Covers claimed := by
  have hshift : claimed + probeLeaseMargin + setup.connectTimeout +
      setup.handshakeTimeout * min (setup.gates.levels.length + 1) u32Max =
      claimed + setup.connectTimeout +
        setup.handshakeTimeout * min (setup.gates.levels.length + 1) u32Max + probeLeaseMargin := by
    rw [Nat.add_right_comm claimed, Nat.add_right_comm _ probeLeaseMargin]
  rw [Setup.lease, probeLease, saturatingAdd, Instant.add_min_le_iff,
    Nat.add_comm (probeDeadline _ _ _), ← Nat.add_assoc, probeDeadline, saturatingAdd,
    Instant.add_min_le_iff, ← Nat.add_assoc, Duration.saturatingMul, Instant.add_min_le_iff,
    hshift, Setup.Covers]

theorem prefixNodes_length {pick : GateLevel → Option ProxyConfig} {rank : UInt8}
    {levels : List GateLevel} {nodes : List ProxyConfig}
    (hnodes : prefixNodes pick rank levels = some nodes) : nodes.length ≤ levels.length := by
  induction levels generalizing nodes with
  | nil =>
    obtain rfl := Option.some.inj hnodes
    exact le_rfl
  | cons level levels ih =>
    rw [prefixNodes] at hnodes
    split at hnodes
    · obtain rfl := Option.some.inj hnodes
      exact Nat.zero_le _
    · split at hnodes
      · obtain ⟨proxy, -, hbehind⟩ := Option.bind_eq_some_iff.mp hnodes
        obtain ⟨rest, hrest, rfl⟩ := Option.map_eq_some_iff.mp hbehind
        exact Nat.succ_le_succ (ih hrest)
      · exact (ih hnodes).trans (Nat.le_succ _)

theorem healthyPrefix_depth {gates : GateLevels} {pick : GateLevel → Option ProxyConfig}
    {rank : UInt8} {chain : ProxyConfig} (hhealthy : healthyPrefix gates pick rank = some chain) :
    chain.nodes.length ≤ gates.levels.length := by
  obtain ⟨nodes, hnodes, hchain⟩ := Option.bind_eq_some_iff.mp hhealthy
  have hlinked := ProxyConfig.nodes_chain nodes
  rw [hchain, Option.map_some, Option.getD_some] at hlinked
  rw [hlinked, List.length_map]
  exact prefixNodes_length hnodes

theorem Setup.budget_fits {setup : Setup} {claimed : Instant} (hcovers : setup.Covers claimed)
    {chain : ProxyConfig} (hdepth : chain.nodes.length ≤ setup.gates.levels.length) :
    claimed + setup.budget chain ≤ Instant.max := by
  have hless := probeDeadline_lt setup.connectTimeout setup.handshakeTimeout hdepth
  exact (Nat.add_le_add_left hless.le claimed).trans (Setup.lease_fits_iff.mpr hcovers)

namespace ProbeTask

variable {setup : Setup} {dialer : Dialer}

def target (task : ProbeTask) : Bytes := HostPort.format task.proxy.node.host task.proxy.node.port

/-- A probe that has a prefix has an instant for the end of its lease, and where it gets a permit
its dial has all it needs. -/
def InstantsFit (setup : Setup) (dialer : Dialer) (level : GateLevel) (claimed : Instant)
    (task : ProbeTask) : Prop :=
  ∀ chain, healthyPrefix setup.gates task.pick level.rank = some chain →
    setup.Covers claimed ∧ (task.permit = true →
      DialFits dialer (task.network (claimed + setup.budget chain)) chain task.target)

theorem probeChain_safe_iff {task : ProbeTask} {attempt : ProbeAttempt} :
    (task.probeChain dialer attempt).Safe ↔
      (task.permit = true →
        DialFits dialer (task.network attempt.deadline) attempt.chain task.target) := by
  rw [DialFits, ← Dialer.connectChain_safe_iff, target]
  unfold probeChain
  split
  · rename_i hpermit
    rw [forall_prop_of_true hpermit]
    split
    · rename_i ended hended
      rw [hended]
      exact iff_of_true (Timed.safe_pure _) (Timed.safe_pure _)
    · rename_i habandoned
      rw [habandoned]
      exact iff_of_true (Timed.safe_pure _) Timed.safe_abandoned
    · rename_i hpanicked
      rw [hpanicked]
      exact iff_of_false (fun hsafe => hsafe rfl) fun hsafe => hsafe rfl
  · rename_i hfull
    exact iff_of_true (Timed.safe_pure _) fun hpermit => absurd hpermit hfull

theorem run_safe_iff {level : GateLevel} {claimed : Instant} {task : ProbeTask} :
    (task.run setup dialer level claimed).Safe ↔
      task.InstantsFit setup dialer level claimed := by
  unfold run InstantsFit
  cases hhealthy : healthyPrefix setup.gates task.pick level.rank with
  | none => exact iff_of_true (Timed.safe_pure _) nofun
  | some chain =>
    dsimp only
    rw [Timed.safe_addOrPanic_bind, Timed.safe_addOrPanic_bind, probeChain_safe_iff,
      Setup.lease_fits_iff]
    constructor
    · rintro ⟨-, hboth⟩ other hother
      obtain rfl := Option.some.inj hother
      exact hboth
    · intro hall
      have hboth := hall chain rfl
      exact ⟨Setup.budget_fits hboth.1 (healthyPrefix_depth hhealthy), hboth⟩

end ProbeTask

theorem ProbeTask.run_dials {setup : Setup} {dialer : Dialer} {level : GateLevel}
    {claimed : Instant} {task : ProbeTask} {chain : ProxyConfig} (hcovers : setup.Covers claimed)
    (hhealthy : healthyPrefix setup.gates task.pick level.rank = some chain) :
    task.run setup dialer level claimed =
      task.probeChain dialer ⟨chain, claimed + setup.budget chain, claimed + setup.lease⟩ := by
  have hbudget := Setup.budget_fits hcovers (healthyPrefix_depth hhealthy)
  rw [run, hhealthy]
  dsimp only
  rw [Timed.addOrPanic_bind hbudget, Timed.addOrPanic_bind (Setup.lease_fits_iff.mpr hcovers)]

theorem World.claim_covers {ρ : Type u} {arith : FloatArith} {rng : Rng ρ} {setup : Setup}
    {world next : World ρ} {level : GateLevel} {claimed : Instant}
    (hstep : world.step arith rng setup (.claim level claimed) = some next) :
    setup.Covers claimed := by
  rw [World.step] at hstep
  split at hstep
  · rename_i hguard
    obtain ⟨-, hclaimed, hfits⟩ := hguard
    exact Setup.lease_fits_iff.mp ((Nat.add_le_add_right hclaimed _).trans hfits)
  · cases hstep

theorem World.outcome_settlement {ρ : Type u} (arith : FloatArith) (world : World ρ)
    (probe : ChainProbe) (attempt : Option (Except ChainError Unit)) :
    world.outcome arith probe attempt =
      match settlement attempt probe.fence world.now with
      | .reachable =>
        (world.rotators probe.level.rotator).recordSuccess arith probe.proxy world.now
      | .refused =>
        ((world.rotators probe.level.rotator).recordHardFailure arith probe.proxy world.now).2
      | _ => world.rotators probe.level.rotator := by
  unfold World.outcome settlement
  split
  · rfl
  · cases attempt with
    | none => rfl
    | some result =>
      cases result with
      | ok _ => rfl
      | error error =>
        dsimp only
        split
        · rfl
        · rfl

/-- No duration overflows, and an instant exactly where a probe or a hop is too late for the
timeouts that are configured. -/
theorem timeouts_safe_iff (connectTimeoutSec handshakeTimeoutSec : UInt64) (gates : GateLevels)
    (serverName : Bytes → Bool) (tlsConnector : Bool) :
    let setup := Setup.ofSecs gates connectTimeoutSec handshakeTimeoutSec
    let dialer := setup.dialer serverName tlsConnector
    (∀ depth, probeDeadline setup.connectTimeout setup.handshakeTimeout depth ≤ Duration.max ∧
      probeLease setup.connectTimeout setup.handshakeTimeout depth ≤ Duration.max) ∧
    (∀ network chain targetAddr, (dialer.connectChain network chain targetAddr).Safe ↔
      DialFits dialer network chain targetAddr) ∧
    (∀ network node, (dialer.connectProxyOn network node).Safe ↔ dialer.Fits network 0 node) ∧
    ∀ claimed taken, (∀ probe ∈ spawnChainProbes setup dialer claimed taken, probe.Safe) ↔
      ∀ level ∈ setup.probed, ∀ task ∈ taken level,
        task.InstantsFit setup dialer level (claimed level) := by
  intro setup dialer
  refine ⟨fun depth => ⟨min_le_right _ _, min_le_right _ _⟩,
    fun network chain targetAddr => Dialer.connectChain_safe_iff,
    fun network node => Dialer.connectProxyOn_safe_iff, fun claimed taken => ?_⟩
  constructor
  · intro hsafe level hlevel task htask
    have hmem : task.run setup dialer level (claimed level) ∈
        spawnChainProbes setup dialer claimed taken :=
      List.mem_flatMap.mpr ⟨level, hlevel, List.mem_map_of_mem htask⟩
    exact ProbeTask.run_safe_iff.mp (hsafe _ hmem)
  · intro hfits probe hprobe
    obtain ⟨level, hlevel, htaken⟩ := List.mem_flatMap.mp hprobe
    obtain ⟨task, htask, rfl⟩ := List.mem_map.mp htaken
    exact ProbeTask.run_safe_iff.mpr (hfits level hlevel task htask)

/-- With a handshake timeout of `2 ^ 63 - 1` seconds, one second after the clock began, on a network
where everything goes well: a chain with an HTTPS exit, the exit on its own, and a probe. -/
theorem timeouts_overflow :
    let outer : GateLevel := ⟨2, 0⟩
    let inner : GateLevel := ⟨1, 1⟩
    let gate : ProxyConfig := ⟨⟨.socks5, [0x67], 1080, none, none, 2⟩, []⟩
    let exit : ProxyNode := ⟨.https, [0x65], 443, none, none, 0⟩
    let setup := Setup.ofSecs ⟨[outer, inner], by decide⟩ 10 9223372036854775807
    let dialer := setup.dialer (fun _ => true) true
    let network : TimedNetwork :=
      ⟨.ready (.ok ()), fun _ => true, fun _ => Duration.ofSecs 1, fun _ => .ready (.ok ()),
        fun _ => .ready (.ok ())⟩
    let task : ProbeTask := ⟨gate, fun _ => some gate, true, fun _ => network, Duration.ofSecs 2⟩
    ¬ (dialer.connectChain network ⟨exit, [gate.node]⟩ [0x61, 0x3A, 0x31]).Safe ∧
    ¬ (dialer.connectProxyOn network exit).Safe ∧
    ∃ probe ∈ spawnChainProbes setup dialer (fun _ => Duration.ofSecs 1) (fun _ => [task]),
      ¬ probe.Safe := by
  intro outer inner gate exit setup dialer network task
  have hlate : ¬ Duration.ofSecs 1 + dialer.handshakeTimeout ≤ Instant.max := by decide +kernel
  refine ⟨fun hsafe => ?_, fun hsafe => ?_, ?_⟩
  · refine hlate (Dialer.connectChain_safe_iff.mp hsafe 1 exit rfl ?_ rfl rfl rfl)
    refine ⟨rfl, rfl, fun _ _ => rfl, fun j hj node hnode => ?_⟩
    obtain rfl : j = 0 := Nat.lt_one_iff.mp hj
    obtain rfl := Option.some.inj hnode
    exact ⟨rfl, fun heq => by cases heq⟩
  · exact hlate (Dialer.connectProxyOn_safe_iff.mp hsafe rfl rfl rfl)
  · refine ⟨_, List.mem_flatMap.mpr ⟨inner, List.mem_singleton_self inner,
      List.mem_map_of_mem (List.mem_singleton_self task)⟩, fun hsafe => ?_⟩
    obtain ⟨hcovers, -⟩ := ProbeTask.run_safe_iff.mp hsafe gate rfl
    revert hcovers
    unfold Setup.Covers
    decide +kernel

end Resocks5.Probe
