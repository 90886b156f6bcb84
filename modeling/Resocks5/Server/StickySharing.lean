import Resocks5.Server.Establish
import Resocks5.Session.StickyCache

namespace Resocks5.Server

open Resocks5.Chain
open Resocks5.Connect
open Resocks5.Foundation
open Resocks5.Rating
open Resocks5.Session
open Resocks5.Types

/-! Requests for one target, each on its way, over the sticky caches that they share. -/

/-- Where a request stands between two steps; no step accesses the sticky caches twice. -/
inductive Progress where
  | sticky (groups : List RotatorId)
  | checking (group : ExitGroup) (cached : ProxyConfig) (groups : List RotatorId)
  | dialing (group : ExitGroup) (cached : ProxyConfig) (pick : ChainPick) (groups : List RotatorId)
  | unlinking (group : ExitGroup) (cached : ProxyConfig) (groups : List RotatorId)
  | planning
  | choosing
  | chaining (pick : ChainPick)
  | linking (pick : ChainPick)
  | filling
  | racing (candidates : List ExitCandidate) (race : Race)
  | finished

/-- What a request does to the sticky entry of its target; `cached` is the route that it gives up,
`unlink_proxy` is not told. -/
inductive StickyWrite where
  | link (r : RotatorId) (proxy : ProxyConfig)
  | unlink (r : RotatorId) (cached : ProxyConfig)
  deriving DecidableEq, Repr

structure Job (ρ : Type u) where
  request : Request
  world : World
  dial : Dial ρ
  progress : Progress

/-- `report_attempt`, as far as the sticky caches hear of it. -/
def stickyReport (candidate : ExitCandidate) (report : AttemptReport) : Option StickyWrite :=
  match report.outcome with
  | .won =>
    if !report.afterWin && candidate.cached then none
    else if !report.afterWin then some (.link candidate.rotator candidate.proxy)
    else none
  | .failed _ =>
    if candidate.cached && !report.afterWin then
      some (.unlink candidate.rotator candidate.proxy)
    else none
  | .lateSuccess | .lost => none

namespace Job

variable {ρ : Type u} (arith : FloatArith) (rng : Rng ρ)

def start (rotators : Rotators ρ) (request : Request) (world : World) : Job ρ where
  request := request
  world := world
  dial := Dial.start request rotators
  progress := if request.banned then .finished else .sticky request.exitRotators

def goTo (job : Job ρ) (dial : Dial ρ) (progress : Progress) : Job ρ :=
  { job with dial, progress }

def answered (job : Job ρ) (group : ExitGroup) (groups : List RotatorId) (cached : ProxyConfig)
    (dial : Dial ρ) : Job ρ :=
  if cached.gate = [] then job.goTo (dial.queueCached group cached) (.sticky groups)
  else job.goTo dial (.checking group cached groups)

/-- On to the next wait or the next access to a cache, with what is done to a cache there. -/
def advance (job : Job ρ) (dial : Dial ρ) : Job ρ × Option StickyWrite :=
  let request := job.request
  match job.progress with
  | .sticky [] => (job.goTo dial .planning, none)
  | .checking group cached groups =>
    match dial.usableChain request group cached with
    | none => (job.goTo dial (.unlinking group cached groups), none)
    | some pick =>
      if dial.triedRoutes.contains pick.key then (job.goTo dial (.sticky groups), none)
      else if request.maxUpstreamAttempts ≤ dial.attempts then (job.goTo dial .finished, none)
      else (job.goTo (dial.launchChain pick) (.dialing group cached pick groups), none)
  | .dialing group cached pick groups =>
    match dial.chainResult job.world request pick with
    | .ok () =>
      let rotators := pick.recordSuccess arith (job.world.clock dial.turn) dial.rotators
      (job.goTo { dial with rotators } .finished, none)
    | .error error =>
      match dial.recordChainFailure arith rng job.world request pick error with
      | none => (job.goTo dial .finished, none)
      | some dial => (job.goTo dial (.unlinking group cached groups), none)
  | .unlinking group cached groups =>
    (job.goTo dial (.sticky groups), some (.unlink group.rotator cached))
  | .planning =>
    if !request.gates.isEmpty && dial.roomForChains request then
      match dial.planOrNew arith rng job.world request with
      | none => (job.goTo dial .finished, none)
      | some (plan, rotators) =>
        (job.goTo { dial with plan := some plan, rotators } .choosing, none)
    else (job.goTo dial .filling, none)
  | .choosing =>
    if !request.gates.isEmpty && dial.roomForChains request then
      match dial.plan.bind ChainPlan.next with
      | none => (job.goTo dial .finished, none)
      | some (none, plan) => (job.goTo { dial with plan := some plan } .filling, none)
      | some (some pick, plan) =>
        let dial := { dial with plan := some plan }
        if dial.triedRoutes.contains pick.key then (job.goTo dial .choosing, none)
        else (job.goTo (dial.launchChain pick) (.chaining pick), none)
    else (job.goTo dial .filling, none)
  | .chaining pick =>
    match dial.chainResult job.world request pick with
    | .ok () =>
      let rotators := pick.recordSuccess arith (job.world.clock dial.turn) dial.rotators
      (job.goTo { dial with rotators } (.linking pick), none)
    | .error error =>
      match dial.recordChainFailure arith rng job.world request pick error with
      | none => (job.goTo dial .finished, none)
      | some dial => (job.goTo dial .choosing, none)
  | .linking pick =>
    (job.goTo dial .finished, pick.exit?.map fun hop => .link hop.rotator pick.config)
  | .filling =>
    match dial.fillExits arith rng job.world request request.exitRotators with
    | (dial, some _) => (job.goTo dial .finished, none)
    | (dial, none) =>
      let candidates := dial.candidates.take (request.maxUpstreamAttempts - dial.attempts)
      let race := Race.start request.hedgeDelay (job.world.clock dial.turn 0)
        (candidates.map (·.proxy))
      (job.goTo dial (.racing candidates race), none)
  | progress => (job.goTo dial progress, none)

/-- Something happens in the race, also after it has been won; with what is reported of it. -/
def raceOn (job : Job ρ) (now : Instant) (event : RaceEvent) :
    Job ρ × List (ExitCandidate × AttemptReport) :=
  match job.progress with
  | .racing candidates race =>
    match Race.step job.request.hedgeDelay race now event with
    | none => (job, [])
    | some after =>
      ({ job with progress := .racing candidates after },
        (after.reports.drop race.reports.length).filterMap fun report =>
          candidates[report.index]?.map fun candidate => (candidate, report))
  | _ => (job, [])

end Job

/-- The requests for a target, over the rotators and their caches. -/
structure Sharing (ρ : Type u) (Key : Type) [LinearOrder Key] where
  target : Key
  rotators : Rotators ρ
  caches : RotatorId → StickyCache Key ProxyConfig
  jobs : List (Job ρ)

/-- A request goes on, something happens in its race, the ratings of a rotator change, or its
cache is used for another target. -/
inductive Act (ρ : Type u) (Key : Type) where
  | go (i : Nat)
  | race (i : Nat) (now : Instant) (event : RaceEvent)
  | rate (r : RotatorId) (ratings : Ratings ρ)
  | elsewhere (r : RotatorId) (op : StickyOp Key ProxyConfig)

namespace Sharing

variable {ρ : Type u} {Key : Type} [LinearOrder Key] (arith : FloatArith) (rng : Rng ρ)

def start (target : Key) (rotators : Rotators ρ)
    (caches : RotatorId → StickyCache Key ProxyConfig) (requests : List (Request × World)) :
    Sharing ρ Key where
  target := target
  rotators := rotators
  caches := caches
  jobs := requests.map fun (request, world) => Job.start rotators request world

def entry (sharing : Sharing ρ Key) (r : RotatorId) : Option ProxyConfig :=
  ((sharing.caches r).map.lookup sharing.target).map (·.proxy)

def setCache (sharing : Sharing ρ Key) (r : RotatorId) (cache : StickyCache Key ProxyConfig) :
    Sharing ρ Key :=
  { sharing with caches := Function.update sharing.caches r cache }

def setJob (sharing : Sharing ρ Key) (i : Nat) (job : Job ρ) : Sharing ρ Key :=
  { sharing with jobs := sharing.jobs.set i job, rotators := job.dial.rotators }

def write (now : Instant) (sharing : Sharing ρ Key) : StickyWrite → Sharing ρ Key
  | .link r proxy => sharing.setCache r ((sharing.caches r).insert sharing.target proxy now)
  | .unlink r _ => sharing.setCache r ((sharing.caches r).remove sharing.target).2

def awaited (sharing : Sharing ρ Key) (job : Job ρ) : Dial ρ :=
  Dial.await arith rng job.world { job.dial with rotators := sharing.rotators }

/-- `get_linked` for a rotator, and what the request does with the answer. -/
def read (i : Nat) (job : Job ρ) (dial : Dial ρ) (r : RotatorId) (groups : List RotatorId)
    (sharing : Sharing ρ Key) : Sharing ρ Key :=
  let (linked, cache) := (sharing.caches r).get sharing.target (job.world.clock dial.turn 0)
  let sharing := sharing.setCache r cache
  match (dial.rotators r).getLinked linked with
  | none => sharing.setJob i (job.goTo dial (.sticky groups))
  | some cached => sharing.setJob i (job.answered ⟨r, linked⟩ groups cached dial)

def go (i : Nat) (job : Job ρ) (sharing : Sharing ρ Key) : Sharing ρ Key :=
  let dial := sharing.awaited arith rng job
  match job.progress with
  | .sticky (r :: groups) => sharing.read i job dial r groups
  | _ =>
    let (job, write) := job.advance arith rng dial
    match write with
    | none => sharing.setJob i job
    | some write => (sharing.setJob i job).write (job.world.clock dial.turn 0) write

def report (now : Instant) (sharing : Sharing ρ Key)
    (heard : ExitCandidate × AttemptReport) : Sharing ρ Key :=
  let sharing :=
    match stickyReport heard.1 heard.2 with
    | none => sharing
    | some write => sharing.write now write
  { sharing with
    rotators := Dial.reportAttempt arith now heard.1 heard.2.outcome sharing.rotators }

def step (sharing : Sharing ρ Key) : Act ρ Key → Sharing ρ Key
  | .go i =>
    match sharing.jobs[i]? with
    | none => sharing
    | some job => sharing.go arith rng i job
  | .race i now event =>
    match sharing.jobs[i]? with
    | none => sharing
    | some job =>
      let (job, reports) := job.raceOn now event
      reports.foldl (report arith now) { sharing with jobs := sharing.jobs.set i job }
  | .rate r ratings =>
    { sharing with
      rotators := Function.update sharing.rotators r { sharing.rotators r with ratings } }
  | .elsewhere r op =>
    if op.addr = sharing.target then sharing
    else sharing.setCache r ((sharing.caches r).step op).2

def run (sharing : Sharing ρ Key) (acts : List (Act ρ Key)) : Sharing ρ Key :=
  acts.foldl (step arith rng) sharing

end Sharing

end Resocks5.Server
