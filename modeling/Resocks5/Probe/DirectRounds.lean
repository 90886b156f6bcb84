import Resocks5.Probe.Fence

namespace Resocks5.Session

open Resocks5.Foundation
open Resocks5.Types

def Rotator.quarantineNow {ρ : Type u} (rotator : Rotator ρ) (proxy : ProxyConfig) (now : Instant) :
    Option Duration × Rotator ρ :=
  match rotator.indexOf proxy with
  | none => (none, rotator)
  | some i =>
    let (length, ratings) := rotator.ratings.quarantineNow i now
    (length, { rotator with ratings })

end Resocks5.Session

namespace Resocks5.Probe.Direct

open Resocks5.Foundation
open Resocks5.Rating
open Resocks5.Session
open Resocks5.Types

/-! Reachability rounds over upstreams that are dialed directly, and the requests beside them. -/

inductive ProbeEvent where
  | recovered (proxy : ProxyConfig)
  | stillDown (proxy : ProxyConfig) (quarantinedFor : Duration) (reason : String)
  | quarantinedAtStart (proxy : ProxyConfig) (quarantinedFor : Duration) (reason : String)
  deriving DecidableEq, Repr

/-- `probe_due_with` or `probe_all_with`. -/
inductive Round where
  | due
  | all
  deriving DecidableEq, Repr

/-- `tripping` is a start-up check between its two looks at the quarantine. -/
inductive Phase where
  | reserving
  | connecting
  | answered (result : Except String Unit)
  | tripping (reason : String)

structure Check where
  round : Round
  proxy : ProxyConfig
  since : Instant
  timeout : Duration
  phase : Phase

/-- `connectTimeout` is the longest of any round; `delay` is how far the runtime may lag behind. -/
structure Setup where
  connectTimeout : Duration
  delay : Duration

def Setup.patience (setup : Setup) : Duration := setup.connectTimeout + setup.delay

/-- `asked` is when a due round last began. -/
structure World (ρ : Type u) where
  now : Instant
  rotator : Rotator ρ
  checks : List Check
  events : List ProbeEvent
  asked : Instant

/-- `use` is what a request does to the ratings, or the restored health at boot. -/
inductive Event where
  | later (now : Instant)
  | use (op : Op)
  | spawn (round : Round) (timeout : Duration)
  | reserve (k : Nat) (granted : Bool)
  | answer (k : Nat) (result : Except String Unit)
  | panic (k : Nat)
  | report (k : Nat)
  | trip (k : Nat)

namespace World

variable {ρ : Type u}

def fresh (rotator : Rotator ρ) (now : Instant) : World ρ := ⟨now, rotator, [], [], now⟩

def drop (world : World ρ) (k : Nat) : World ρ :=
  { world with checks := world.checks.eraseIdx k }

def goto (world : World ρ) (k : Nat) (check : Check) (phase : Phase) : World ρ :=
  { world with checks := world.checks.set k { check with phase } }

def tell (world : World ρ) (event : Option ProbeEvent) : World ρ :=
  { world with events := world.events ++ event.toList }

def checkOf (world : World ρ) (round : Round) (timeout : Duration) (proxy : ProxyConfig) : Check :=
  ⟨round, proxy, world.now, timeout, .reserving⟩

def spawn (world : World ρ) (timeout : Duration) : Round → World ρ
  | .due =>
    let (leased, ratings) := world.rotator.ratings.takeProbes world.now
    { world with
      rotator := { world.rotator with ratings }
      checks := world.checks ++
        (leased.filterMap (world.rotator.proxies[·]?)).map (world.checkOf .due timeout)
      asked := world.now }
  | .all =>
    { world with
      checks := world.checks ++ world.rotator.proxies.map (world.checkOf .all timeout) }

section

variable (arith : FloatArith)

def reportDue (world : World ρ) (proxy : ProxyConfig) : Except String Unit → World ρ
  | .ok () =>
    { world with rotator := world.rotator.recordSuccess arith proxy world.now }.tell
      (some (.recovered proxy))
  | .error reason =>
    let (length, rotator) := world.rotator.recordHardFailure arith proxy world.now
    { world with rotator }.tell (length.map (.stillDown proxy · reason))

/-- A start-up round takes it; who is quarantined already stays as it is. -/
def reportAll (world : World ρ) (k : Nat) (check : Check) : Except String Unit → World ρ
  | .ok () => world.drop k
  | .error reason =>
    if world.rotator.isQuarantined check.proxy then world.drop k
    else world.goto k check (.tripping reason)

def quarantine (world : World ρ) (proxy : ProxyConfig) (reason : String) : World ρ :=
  let (length, rotator) := world.rotator.quarantineNow proxy world.now
  { world with rotator }.tell (length.map (.quarantinedAtStart proxy · reason))

/-- `None` for what cannot happen now. A check is connected for as long as its timeout, and the
runtime lags by the delay at most; requests take no leases. -/
def step (rng : Rng ρ) (setup : Setup) (world : World ρ) : Event → Option (World ρ)
  | .later now =>
    if world.now ≤ now ∧
        ∀ check ∈ world.checks, now ≤ check.since + check.timeout + setup.delay then
      some { world with now }
    else none
  | .use op =>
    if reportTime op = world.now ∧ takes op = false then
      some { world with rotator := world.rotator.use arith rng [op] }
    else none
  | .spawn round timeout =>
    if timeout ≤ setup.connectTimeout then some (world.spawn timeout round) else none
  | .reserve k granted =>
    world.checks[k]?.bind fun check =>
      match check.phase with
      | .reserving => some (if granted then world.goto k check .connecting else world.drop k)
      | _ => none
  | .answer k result =>
    world.checks[k]?.bind fun check =>
      match check.phase with
      | .connecting => some (world.goto k check (.answered result))
      | _ => none
  | .panic k =>
    world.checks[k]?.bind fun check =>
      match check.phase with
      | .connecting => some (world.drop k)
      | _ => none
  | .report k =>
    world.checks[k]?.bind fun check =>
      match check.phase, check.round with
      | .answered result, .due => some ((world.reportDue arith check.proxy result).drop k)
      | .answered result, .all => some (world.reportAll k check result)
      | _, _ => none
  | .trip k =>
    world.checks[k]?.bind fun check =>
      match check.phase with
      | .tripping reason => some ((world.quarantine check.proxy reason).drop k)
      | _ => none

end

end World

end Resocks5.Probe.Direct
