import Resocks5.Foundation.Bytes
import Resocks5.Foundation.Timed
import Resocks5.Foundation.Run
import Mathlib.Algebra.GroupWithZero.Nat
import Mathlib.Algebra.Order.BigOperators.Group.List
import Mathlib.Algebra.Order.Group.Nat

namespace Resocks5.Pool

open Resocks5.Foundation

/-! The pool as its tasks see it: one step of a task is one operation on what they share. -/

/-- Host and port: credentials live above the TCP layer. -/
abbrev ProxyKey := Bytes × UInt16

structure Config where
  enabled : Bool
  sparePerProxy : Nat
  maxSessionAge : Duration
  maxPerUpstream : Nat
  deriving DecidableEq, Repr

namespace Config

/-- A pool of no permits would brick every acquire. -/
def permits (config : Config) : Nat := max config.maxPerUpstream 1

def target (config : Config) : Nat := min (max config.sparePerProxy 1) config.permits

/-- `saturating_duration_since` against the maximal age. -/
def isFresh (config : Config) (now created : Instant) : Bool := now - created ≤ config.maxSessionAge

end Config

/-- A connected spare. Its permit belongs to the semaphore of its queue. -/
structure PreWarmed where
  createdAt : Instant
  deriving DecidableEq, Repr

/-- A stream from the pool: one socket, its permit, and the permits attached since. -/
structure UpstreamStream where
  key : ProxyKey
  extraPermits : List ProxyKey
  deriving DecidableEq, Repr

namespace UpstreamStream

def attachPermit (stream : UpstreamStream) (key : ProxyKey) : UpstreamStream :=
  { stream with extraPermits := stream.extraPermits ++ [key] }

end UpstreamStream

/-- What is shared. A queue exists once a refill task was spawned for it. -/
structure Shared where
  available : ProxyKey → Nat
  pools : ProxyKey → Option (List PreWarmed)

namespace Shared

/-- A semaphore is made with the first use of its endpoint, and then has every permit. -/
def new (config : Config) : Shared := ⟨fun _ => config.permits, fun _ => none⟩

def tryAcquire (shared : Shared) (key : ProxyKey) : Option Shared :=
  if shared.available key = 0 then none
  else
    some { shared with
      available := Function.update shared.available key (shared.available key - 1) }

def release (shared : Shared) (key : ProxyKey) : Shared :=
  { shared with available := Function.update shared.available key (shared.available key + 1) }

def queue (shared : Shared) (key : ProxyKey) : List PreWarmed := (shared.pools key).getD []

def setQueue (shared : Shared) (key : ProxyKey) (queue : List PreWarmed) : Shared :=
  { shared with pools := Function.update shared.pools key (some queue) }

def pop (shared : Shared) (key : ProxyKey) : Option (PreWarmed × Shared) :=
  match shared.queue key with
  | [] => none
  | spare :: rest => some (spare, shared.setQueue key rest)

def push (config : Config) (shared : Shared) (key : ProxyKey) (spare : PreWarmed) :
    Option Shared :=
  if (shared.queue key).length < config.target then
    some (shared.setQueue key (shared.queue key ++ [spare]))
  else none

end Shared

/-- What wants a socket; `chain` still has nodes to reserve behind it. -/
inductive Caller where
  | checkout
  | acquire
  | chain (rest : List ProxyKey)
  deriving DecidableEq, Repr

/-- What wants a permit; `extend` is a chain with its base stream. -/
inductive Asker where
  | socket (caller : Caller)
  | reserve
  | extend (stream : UpstreamStream) (rest : List ProxyKey)
  deriving DecidableEq, Repr

/-- Where a task stands, with everything it owns there. `dropping` gives one permit back, its
socket before it, and goes on. -/
inductive Task where
  | checkingOut (caller : Caller) (key : ProxyKey) (now : Instant)
  | judging (caller : Caller) (key : ProxyKey) (now : Instant) (spare : PreWarmed)
  | reserving (asker : Asker) (key : ProxyKey)
  | reclaiming (asker : Asker) (key : ProxyKey)
  | reclaimed (asker : Asker) (key : ProxyKey) (spare : PreWarmed)
  | retrying (asker : Asker) (key : ProxyKey)
  | connecting (caller : Caller) (key : ProxyKey)
  | handshaking (stream : UpstreamStream)
  | live (stream : UpstreamStream)
  | permit (key : ProxyKey)
  | refilling (key : ProxyKey)
  | refillConnecting (key : ProxyKey)
  | refillPushing (key : ProxyKey) (spare : PreWarmed)
  | refillWaiting (key : ProxyKey)
  | draining (key : ProxyKey) (now : Instant) (keepers : List PreWarmed)
  | returning (key : ProxyKey) (keepers : List PreWarmed)
  | dropping (key : ProxyKey) (socket : Bool) (next : Task)
  | ended
  deriving DecidableEq, Repr

/-- How an operation comes out: `failed` is a dead spare, a failed or timed-out connect or
handshake, or the age timer of a refill task; `cancelled` is a drop of the future, the stream or
the permit by its owner. -/
inductive Outcome where
  | done (now : Instant)
  | failed (now : Instant)
  | cancelled
  deriving DecidableEq, Repr

namespace Task

def dropPermits : List ProxyKey → Task
  | [] => .ended
  | key :: keys => .dropping key false (dropPermits keys)

/-- The fields of a stream in their order. -/
def dropStream (stream : UpstreamStream) : Task :=
  .dropping stream.key true (dropPermits stream.extraPermits)

/-- `connect_chain` with its base stream: reserve the next node, or shake hands. -/
def chainNext (stream : UpstreamStream) : List ProxyKey → Task
  | [] => .handshaking stream
  | key :: rest => .reserving (.extend stream rest) key

def connected (key : ProxyKey) : Caller → Task
  | .chain rest => chainNext ⟨key, []⟩ rest
  | _ => .live ⟨key, []⟩

def missed (key : ProxyKey) : Caller → Task
  | .checkout => .ended
  | caller => .reserving (.socket caller) key

def reserved (key : ProxyKey) : Asker → Task
  | .socket caller => .connecting caller key
  | .reserve => .permit key
  | .extend stream rest => chainNext (stream.attachPermit key) rest

/-- `AtCapacity`. -/
def refused : Asker → Task
  | .extend stream _ => dropStream stream
  | _ => .ended

def step (config : Config) (shared : Shared) : Task → Outcome → Option (Shared × Task)
  | checkingOut caller key now, .done _ =>
    if !config.enabled then some (shared, missed key caller)
    else
      match shared.pop key with
      | none => some (shared, missed key caller)
      | some (spare, shared) => some (shared, .judging caller key now spare)
  | judging caller key now spare, .done _ =>
    if config.isFresh now spare.createdAt then some (shared, connected key caller)
    else some (shared, .dropping key true (.checkingOut caller key now))
  | judging caller key now _, .failed _ =>
    some (shared, .dropping key true (.checkingOut caller key now))
  | reserving asker key, .done _ =>
    match shared.tryAcquire key with
    | some shared => some (shared, reserved key asker)
    | none => some (shared, .reclaiming asker key)
  | reclaiming asker key, .done _ =>
    match shared.pop key with
    | some (spare, shared) => some (shared, .reclaimed asker key spare)
    | none => some (shared, .retrying asker key)
  | reclaimed asker key _, .done _ => some (shared, reserved key asker)
  | retrying asker key, .done _ =>
    match shared.tryAcquire key with
    | some shared => some (shared, reserved key asker)
    | none => some (shared, refused asker)
  | connecting caller key, .done _ => some (shared, connected key caller)
  | connecting _ key, .failed _ => some (shared, .dropping key false .ended)
  | connecting _ key, .cancelled => some (shared, .dropping key false .ended)
  | handshaking stream, .done _ => some (shared, .live stream)
  | handshaking stream, .failed _ => some (shared, dropStream stream)
  | handshaking stream, .cancelled => some (shared, dropStream stream)
  | live stream, .cancelled => some (shared, dropStream stream)
  | permit key, .cancelled => some (shared, .dropping key false .ended)
  | refilling _, .cancelled => some (shared, .ended)
  | refilling key, .done _ =>
    if (shared.queue key).length < config.target then
      match shared.tryAcquire key with
      | some shared => some (shared, .refillConnecting key)
      | none => some (shared, .refilling key)
    else some (shared, .refillWaiting key)
  | refillConnecting key, .done now => some (shared, .refillPushing key ⟨now⟩)
  | refillConnecting key, .failed _ => some (shared, .dropping key false (.refilling key))
  | refillConnecting key, .cancelled => some (shared, .dropping key false .ended)
  | refillPushing key spare, .done _ =>
    match shared.push config key spare with
    | some shared => some (shared, .refilling key)
    | none => some (shared, .dropping key true (.refilling key))
  | refillWaiting key, .done _ => some (shared, .refilling key)
  | refillWaiting key, .failed now => some (shared, .draining key now [])
  | refillWaiting _, .cancelled => some (shared, .ended)
  | draining key now keepers, .done _ =>
    match shared.pop key with
    | none => some (shared, .returning key keepers)
    | some (spare, shared) =>
      if config.isFresh now spare.createdAt then
        some (shared, .draining key now (keepers ++ [spare]))
      else some (shared, .dropping key true (.draining key now keepers))
  | returning key [], .done _ => some (shared, .refilling key)
  | returning key (spare :: keepers), .done _ =>
    match shared.push config key spare with
    | some shared => some (shared, .returning key keepers)
    | none => some (shared, .dropping key true (.returning key keepers))
  | dropping key true next, .done _ => some (shared, .dropping key false next)
  | dropping key false next, .done _ => some (shared.release key, next)
  | _, _ => none

end Task

structure State where
  shared : Shared
  tasks : List Task

/-- What starts a task, what a task does, and a permit that its owner attaches to a stream. -/
inductive Action where
  | checkout (key : ProxyKey) (now : Instant)
  | acquire (key : ProxyKey) (now : Instant)
  | reservePermit (key : ProxyKey)
  | connectChain (first : ProxyKey) (rest : List ProxyKey) (now : Instant)
  | spawnRefillFor (key : ProxyKey)
  | attachPermit (stream permit : Nat)
  | advance (i : Nat) (outcome : Outcome)
  deriving DecidableEq, Repr

namespace State

def new (config : Config) : State := ⟨Shared.new config, []⟩

def spawn (state : State) (task : Task) : State := { state with tasks := state.tasks ++ [task] }

def set (state : State) (i : Nat) (task : Task) : State :=
  { state with tasks := state.tasks.set i task }

def step (config : Config) (state : State) : Action → Option State
  | .checkout key now => some (state.spawn (.checkingOut .checkout key now))
  | .acquire key now => some (state.spawn (.checkingOut .acquire key now))
  | .reservePermit key => some (state.spawn (.reserving .reserve key))
  | .connectChain first rest now => some (state.spawn (.checkingOut (.chain rest) first now))
  | .spawnRefillFor key =>
    if config.enabled && (state.shared.pools key).isNone then
      some { shared := state.shared.setQueue key [], tasks := state.tasks ++ [.refilling key] }
    else some state
  | .attachPermit i j =>
    match state.tasks[i]?, state.tasks[j]? with
    | some (.live stream), some (.permit key) =>
      some ((state.set i (.live (stream.attachPermit key))).set j .ended)
    | _, _ => none
  | .advance i outcome =>
    (state.tasks[i]?).bind fun task =>
      (task.step config state.shared outcome).map fun (shared, next) =>
        { shared, tasks := state.tasks.set i next }

end State

/-! Who holds the permits of an endpoint. -/

def one (key other : ProxyKey) : Nat := if key = other then 1 else 0

namespace UpstreamStream

def held (stream : UpstreamStream) (key : ProxyKey) : Nat :=
  one stream.key key + stream.extraPermits.count key

end UpstreamStream

namespace Asker

def held (key : ProxyKey) : Asker → Nat
  | extend stream _ => stream.held key
  | _ => 0

def sockets (key : ProxyKey) : Asker → Nat
  | extend stream _ => one stream.key key
  | _ => 0

end Asker

namespace Task

def inHand (key : ProxyKey) : Task → Nat
  | judging _ k _ _ => one k key
  | reclaimed _ k _ => one k key
  | refillPushing k _ => one k key
  | draining k _ keepers => keepers.length * one k key
  | returning k keepers => keepers.length * one k key
  | dropping _ _ next => next.inHand key
  | _ => 0

def connects (key : ProxyKey) : Task → Nat
  | connecting _ k => one k key
  | refillConnecting k => one k key
  | dropping _ _ next => next.connects key
  | _ => 0

/-- Permits of callers and live streams, and those being given back. -/
def held (key : ProxyKey) : Task → Nat
  | reserving asker _ => asker.held key
  | reclaiming asker _ => asker.held key
  | reclaimed asker _ _ => asker.held key
  | retrying asker _ => asker.held key
  | handshaking stream => stream.held key
  | live stream => stream.held key
  | permit k => one k key
  | dropping k _ next => one k key + next.held key
  | _ => 0

def permits (task : Task) (key : ProxyKey) : Nat :=
  task.inHand key + task.connects key + task.held key

def sockets (key : ProxyKey) : Task → Nat
  | judging _ k _ _ => one k key
  | reserving asker _ => asker.sockets key
  | reclaiming asker _ => asker.sockets key
  | reclaimed asker k _ => one k key + asker.sockets key
  | retrying asker _ => asker.sockets key
  | connecting _ k => one k key
  | handshaking stream => one stream.key key
  | live stream => one stream.key key
  | refillConnecting k => one k key
  | refillPushing k _ => one k key
  | draining k _ keepers => keepers.length * one k key
  | returning k keepers => keepers.length * one k key
  | dropping k socket next => (if socket then one k key else 0) + next.sockets key
  | _ => 0

end Task

namespace State

def available (state : State) (key : ProxyKey) : Nat := state.shared.available key

def queued (state : State) (key : ProxyKey) : Nat := (state.shared.queue key).length

def inHand (state : State) (key : ProxyKey) : Nat := (state.tasks.map (Task.inHand key)).sum

def connects (state : State) (key : ProxyKey) : Nat := (state.tasks.map (Task.connects key)).sum

def held (state : State) (key : ProxyKey) : Nat := (state.tasks.map (Task.held key)).sum

def sockets (state : State) (key : ProxyKey) : Nat :=
  state.queued key + (state.tasks.map (Task.sockets key)).sum

end State

end Resocks5.Pool
