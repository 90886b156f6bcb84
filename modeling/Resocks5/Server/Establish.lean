import Resocks5.Chain.Gates
import Resocks5.Connect.Hedged

namespace Resocks5.Server

open Resocks5.Chain
open Resocks5.Connect
open Resocks5.Foundation
open Resocks5.Rating
open Resocks5.Session
open Resocks5.Types

/-! One request on its way to an upstream: sticky routes, planned chains, ordinary exits. -/

/-- A rotator of exits, and what its sticky cache holds for the target when it is asked. -/
structure ExitGroup where
  rotator : RotatorId
  linked : Option ProxyConfig
  deriving DecidableEq, Repr

structure Request where
  targetAddr : Bytes
  banned : Bool
  gates : GateLevels
  v6 : Option ExitGroup
  v4 : Option ExitGroup
  maxUpstreamAttempts : Nat
  hedgeDelay : Duration
  tlsConnector : Bool

/-- What is not in the request's hands, by the turn at which it is met: the time, what other
requests do to the rotators, how chains and the race of exits turn out. -/
structure World where
  clock : Nat → Nat → Instant
  others : Nat → RotatorId → List Op
  network : Nat → Network
  race : List (Instant × RaceEvent)

structure ExitCandidate where
  rotator : RotatorId
  proxy : ProxyConfig
  cached : Bool
  deriving DecidableEq, Repr

inductive Launch where
  | chain (config : ProxyConfig)
  | exit (proxy : ProxyConfig)
  deriving DecidableEq, Repr

/-- An ordinary exit counts as its one-node chain. -/
def Launch.route : Launch → ChainKey
  | .chain config => ⟨config⟩
  | .exit proxy => singletonKey proxy

def Launch.isChain : Launch → Bool
  | .chain _ => true
  | .exit _ => false

def ExitCandidate.route (candidate : ExitCandidate) : ChainKey :=
  singletonKey candidate.proxy

inductive Verdict where
  | banned
  | exhausted
  | chained
  | direct (winner : Nat)
  | failed (attempts : Nat)
  | racing
  | panicked
  | stuck
  deriving DecidableEq, Repr

structure Dial (ρ : Type u) where
  turn : Nat
  rotators : Rotators ρ
  plan : Option ChainPlan
  triedRoutes : List ChainKey
  attempts : Nat
  directReserve : Nat
  candidates : List ExitCandidate
  launches : List Launch

namespace Request

def exits (request : Request) : List ExitGroup :=
  request.v6.toList ++ request.v4.toList

def exitRotators (request : Request) : List RotatorId :=
  request.exits.map (·.rotator)

end Request

namespace Dial

variable {ρ : Type u} (arith : FloatArith) (rng : Rng ρ) (world : World) (request : Request)

/-- Time passes, and other requests use the rotators. -/
def await (dial : Dial ρ) : Dial ρ :=
  { dial with
    turn := dial.turn + 1
    rotators := fun r => (dial.rotators r).use arith rng (world.others dial.turn r) }

def andThen (step : Dial ρ × Option Verdict) (next : Dial ρ → Dial ρ × Option Verdict) :
    Dial ρ × Option Verdict :=
  match step with
  | (dial, none) => next dial
  | (dial, some verdict) => (dial, some verdict)

def start (rotators : Rotators ρ) : Dial ρ where
  turn := 0
  rotators := rotators
  plan := none
  triedRoutes := []
  attempts := 0
  directReserve :=
    if request.exitRotators.any fun r => !(rotators r).proxies.isEmpty then 1 else 0
  candidates := []
  launches := []

def roomForChains (dial : Dial ρ) : Bool :=
  dial.attempts + dial.directReserve < request.maxUpstreamAttempts

def full (dial : Dial ρ) : Bool :=
  request.maxUpstreamAttempts ≤ dial.attempts + dial.candidates.length

/-- The plan so far, or a new one; with the budget spent it stays empty. -/
def planOrNew (dial : Dial ρ) : Option (ChainPlan × Rotators ρ) :=
  match dial.plan with
  | some plan => some (plan, dial.rotators)
  | none =>
    if dial.roomForChains request then
      planFor arith rng (world.clock dial.turn) request.gates request.exitRotators dial.rotators
    else some (ChainPlan.new [] [], dial.rotators)

/-- Count a failed chain against its hops; `None` for a panic. -/
def recordChainFailure (pick : ChainPick) (error : ChainError) (dial : Dial ρ) :
    Option (Dial ρ) :=
  (dial.planOrNew arith rng world request).bind fun (plan, rotators) =>
    let dial := await arith rng world { dial with plan := some plan, rotators }
    (recordFailure arith (world.clock dial.turn) plan dial.rotators pick error.stage
      error.error).map fun (_, plan, rotators) => { dial with plan := some plan, rotators }

def launchChain (pick : ChainPick) (dial : Dial ρ) : Dial ρ :=
  { dial with
    triedRoutes := pick.key :: dial.triedRoutes
    attempts := dial.attempts + 1
    launches := dial.launches ++ [.chain pick.config] }

def chainResult (pick : ChainPick) (dial : Dial ρ) : Except ChainError Unit :=
  (connectChain (world.network dial.turn) request.tlsConnector pick.config
    request.targetAddr).result

def tryChain (pick : ChainPick) (dial : Dial ρ) : Dial ρ × Option Verdict :=
  let result := dial.chainResult world request pick
  let dial := await arith rng world (dial.launchChain pick)
  match result with
  | .ok () =>
    ({ dial with
        rotators := pick.recordSuccess arith (world.clock dial.turn) dial.rotators },
      some .chained)
  | .error error =>
    match dial.recordChainFailure arith rng world request pick error with
    | none => (dial, some .panicked)
    | some dial => (dial, none)

def queueCached (group : ExitGroup) (cached : ProxyConfig) (dial : Dial ρ) : Dial ρ :=
  let route := singletonKey cached
  if dial.triedRoutes.contains route then dial
  else
    let candidates := dial.candidates ++ [⟨group.rotator, cached, true⟩]
    { dial with
      triedRoutes := route :: dial.triedRoutes
      candidates
      directReserve := max dial.directReserve candidates.length }

/-- The cached chain of a group, if it still is one of the configured upstreams and none of
its gates is quarantined. -/
def usableChain (group : ExitGroup) (cached : ProxyConfig) (dial : Dial ρ) :
    Option ChainPick :=
  (request.gates.resolve dial.rotators [group.rotator] cached).filter fun pick =>
    !pick.hops.dropLast.any fun hop => (dial.rotators hop.rotator).isQuarantined hop.proxy

def stickyRoute (group : ExitGroup) (dial : Dial ρ) : Dial ρ × Option Verdict :=
  let dial := await arith rng world dial
  match (dial.rotators group.rotator).getLinked group.linked with
  | none => (dial, none)
  | some cached =>
    if cached.gate = [] then (dial.queueCached group cached, none)
    else
      match dial.usableChain request group cached with
      | none => (dial, none)
      | some pick =>
        if dial.triedRoutes.contains pick.key then (dial, none)
        else if request.maxUpstreamAttempts ≤ dial.attempts then (dial, some .exhausted)
        else dial.tryChain arith rng world request pick

def stickyRoutes : List ExitGroup → Dial ρ → Dial ρ × Option Verdict
  | [], dial => (dial, none)
  | group :: rest, dial =>
    andThen (dial.stickyRoute arith rng world request group) (stickyRoutes rest)

def planLoop : Nat → Dial ρ → Dial ρ × Option Verdict
  | 0, dial => (dial, some .stuck)
  | fuel + 1, dial =>
    if !request.gates.isEmpty && dial.roomForChains request then
      match dial.plan.bind ChainPlan.next with
      | none => (dial, some .panicked)
      | some (none, plan) => ({ dial with plan := some plan }, none)
      | some (some pick, plan) =>
        let dial := { dial with plan := some plan }
        if dial.triedRoutes.contains pick.key then planLoop fuel dial
        else andThen (dial.tryChain arith rng world request pick) (planLoop fuel)
    else (dial, none)

def plannedChains (dial : Dial ρ) : Dial ρ × Option Verdict :=
  let dial := await arith rng world dial
  if !request.gates.isEmpty && dial.roomForChains request then
    match dial.planOrNew arith rng world request with
    | none => (dial, some .panicked)
    | some (plan, rotators) =>
      planLoop arith rng world request (plan.workBound + 1) { dial with plan := some plan, rotators }
  else (dial, none)

def fillFrom (r : RotatorId) : List ProxyConfig → Dial ρ → Dial ρ
  | [], dial => dial
  | proxy :: rest, dial =>
    let route := singletonKey proxy
    if dial.triedRoutes.contains route then fillFrom r rest dial
    else if dial.full request then dial
    else
      fillFrom r rest
        { dial with
          triedRoutes := route :: dial.triedRoutes
          candidates := dial.candidates ++ [⟨r, proxy, false⟩] }

def fillExits : List RotatorId → Dial ρ → Dial ρ × Option Verdict
  | [], dial => (dial, none)
  | r :: rest, dial =>
    if dial.full request then (dial, none)
    else
      let dial := await arith rng world dial
      match (dial.rotators r).pickOrder arith rng (world.clock dial.turn 0) with
      | (none, _) => (dial, some .panicked)
      | (some order, rotator) =>
        fillExits rest (fillFrom request r order
          { dial with rotators := Function.update dial.rotators r rotator })

/-- `report_attempt`, as far as the rotators hear of it. -/
def reportAttempt (now : Instant) (candidate : ExitCandidate) (outcome : AttemptOutcome)
    (rotators : Rotators ρ) : Rotators ρ :=
  let rotator := rotators candidate.rotator
  match outcome with
  | .won | .lateSuccess =>
    Function.update rotators candidate.rotator
      (rotator.recordSuccess arith candidate.proxy now)
  | .failed error =>
    if error.countsAgainstUpstream then
      Function.update rotators candidate.rotator
        (rotator.recordError arith candidate.proxy error now).2
    else rotators
  | .lost => rotators

/-- Race through the candidates, within what is left of the budget. -/
def raceExits (dial : Dial ρ) : Dial ρ × Option Verdict :=
  let candidates := dial.candidates.take (request.maxUpstreamAttempts - dial.attempts)
  let dial := await arith rng world dial
  let race := connectHedged request.hedgeDelay (world.clock dial.turn 0)
    (candidates.map (·.proxy)) world.race
  let rotators := race.reports.zipIdx.foldl (fun rotators (report, i) =>
    match candidates[report.index]? with
    | some candidate =>
      reportAttempt arith (world.clock dial.turn i) candidate report.outcome rotators
    | none => rotators) dial.rotators
  let verdict := match race.ended with
    | none => .racing
    | some (.connected winner) => .direct winner
    | some (.failed attempts _) => .failed (dial.attempts + attempts)
  ({ dial with
      rotators
      launches := dial.launches ++ race.launched.map fun runner => .exit runner.proxy },
    some verdict)

end Dial

section

variable {ρ : Type u} (arith : FloatArith) (rng : Rng ρ) (world : World) (request : Request)

def Dial.chainPhases (rotators : Rotators ρ) : Dial ρ × Option Verdict :=
  Dial.andThen
    (Dial.stickyRoutes arith rng world request request.exits (Dial.start request rotators))
    (Dial.plannedChains arith rng world request)

def Dial.exitPhases (dial : Dial ρ) : Dial ρ × Option Verdict :=
  andThen (dial.fillExits arith rng world request request.exitRotators)
    (raceExits arith rng world request)

def establishConnection (rotators : Rotators ρ) : Dial ρ × Option Verdict :=
  if request.banned then (Dial.start request rotators, some .banned)
  else
    Dial.andThen (Dial.chainPhases arith rng world request rotators)
      (Dial.exitPhases arith rng world request)

end

end Resocks5.Server
